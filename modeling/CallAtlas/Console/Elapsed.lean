/-!
# Elapsed times

How long something took, in words: roughly, in the greatest unit that fits, and precisely, with two
digits behind the point.
-/

namespace CallAtlas.Console

/-- An elapsed time as it is shown. -/
structure Elapsed where
  /-- The time in words. -/
  rough : String
  /-- The time in figures. -/
  precise : String
deriving DecidableEq, Repr, Inhabited

namespace Elapsed

def second : Nat := 1000000000

/-- The units of rough times with their names, greatest first. -/
def units : List (Nat × String) :=
  [(365 * 24 * 3600 * second, "year"), (7 * 24 * 3600 * second, "week"),
    (24 * 3600 * second, "day"), (3600 * second, "hour"), (60 * second, "minute"),
    (second, "second")]

/-- A time in words, in the first unit of which it has about one and a half. -/
def roughly (nanoseconds : Nat) : List (Nat × String) → String
  | [] => ""
  | (unit, name) :: smaller =>
    let rounded := (2 * nanoseconds + unit) / (2 * unit)
    let counted (n : Nat) : String := toString n ++ " " ++ name ++ (if n = 1 then "" else "s")
    match smaller with
    | [] => counted rounded
    | (next, _) :: _ =>
      if unit + unit / 2 ≤ nanoseconds + next / 2 then counted (max rounded 2)
      else roughly nanoseconds smaller

/-- A number of units in figures with two digits behind the point. -/
def figures (nanoseconds unit : Nat) : String :=
  let hundredths := (200 * nanoseconds + unit) / (2 * unit)
  let fraction := hundredths % 100
  toString (hundredths / 100) ++ "." ++ (if fraction < 10 then "0" else "") ++ toString fraction

/-- A time in figures. -/
def precisely (nanoseconds : Nat) : String :=
  if second ≤ nanoseconds then figures nanoseconds second ++ "s"
  else if 1000000 ≤ nanoseconds then figures nanoseconds 1000000 ++ "ms"
  else if 1000 ≤ nanoseconds then figures nanoseconds 1000 ++ "µs"
  else figures nanoseconds 1 ++ "ns"

def ofNanoseconds (n : Nat) : Elapsed := ⟨roughly n units, precisely n⟩

end Elapsed

end CallAtlas.Console

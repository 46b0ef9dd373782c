/-!
# The shortest decimal of a binary fraction

A finite double is `m · 2^q`. Its shortest decimal has the fewest digits of all decimals that are
rounded to it; of two such decimals of one length the nearer is taken, and of two equally near ones
the even.
-/

namespace CallAtlas.Decimal

/-- A decimal `digits · 10^exponent`. -/
structure Digits where
  digits : Nat
  exponent : Int
deriving DecidableEq, Repr

/-- A fraction `num / den · 2^0` of the value `m · 2^q`, scaled by `2` so that halves are whole. -/
def scaled (m : Nat) (q : Int) : Nat × Nat :=
  if 0 ≤ q then (m * Nat.pow 2 q.toNat, 1) else (m, Nat.pow 2 (-q).toNat)

/-- Whether `d · 10^e` lies between two fractions, the ends included where `closed` is set. -/
def between (closed : Bool) (low high : Nat × Nat) (d : Nat) (e : Int) : Bool :=
  let (num, den) := if 0 ≤ e then (d * Nat.pow 10 e.toNat, 1) else (d, Nat.pow 10 (-e).toNat)
  let ge := if closed then low.1 * den ≤ num * low.2 else low.1 * den < num * low.2
  let le := if closed then num * high.2 ≤ high.1 * den else num * high.2 < high.1 * den
  decide ge && decide le

/-- The multiple of `10^e` at or below a fraction. -/
def gridBelow (x : Nat × Nat) (e : Int) : Nat :=
  if 0 ≤ e then x.1 / (x.2 * Nat.pow 10 e.toNat) else x.1 * Nat.pow 10 (-e).toNat / x.2

/-- The candidate on the grid of `10^e` that is rounded to the value, if there is one. -/
def onGrid (closed : Bool) (low x high : Nat × Nat) (e : Int) : Option Nat :=
  let d := gridBelow x e
  let downOk := 0 < d && between closed low high d e
  let upOk := between closed low high (d + 1) e
  let twice : Nat × Nat := if 0 ≤ e then ((2 * d + 1) * Nat.pow 10 e.toNat, 2)
    else (2 * d + 1, 2 * Nat.pow 10 (-e).toNat)
  let cmp := compare (x.1 * twice.2) (twice.1 * x.2)
  match downOk, upOk with
  | false, false => none
  | true, false => some d
  | false, true => some (d + 1)
  | true, true =>
    match cmp with
    | .lt => some d
    | .gt => some (d + 1)
    -- a value halfway between goes to the even digit
    | .eq => some (if d % 2 = 0 then d else d + 1)

/-- The first grid, from coarse to fine, that holds a candidate. -/
def firstGrid (closed : Bool) (low x high : Nat × Nat) : (fuel : Nat) → Int → Option Digits
  | 0, _ => none
  | fuel + 1, e =>
    match onGrid closed low x high e with
    | some d => some ⟨d, e⟩
    | none => firstGrid closed low x high fuel (e - 1)

/-- Drops the zeros at the end of the digits. -/
def dropZeros : (fuel : Nat) → Digits → Digits
  | 0, d => d
  | fuel + 1, d =>
    if d.digits != 0 && d.digits % 10 = 0 then dropZeros fuel ⟨d.digits / 10, d.exponent + 1⟩
    else d

/-- The shortest decimal of the positive double with the given bits. -/
def shortest (bits : UInt64) : Digits :=
  let fraction := (bits &&& 0xFFFFFFFFFFFFF).toNat
  let biased := ((bits >>> 52) &&& 0x7FF).toNat
  let m := if biased = 0 then fraction else fraction + 0x10000000000000
  let q : Int := (if biased = 0 then 1 else biased : Nat) - 1075
  -- doubles below a power of two lie twice as close
  let low := if fraction = 0 && 1 < biased then scaled (4 * m - 1) (q - 2)
    else scaled (2 * m - 1) (q - 1)
  let found := firstGrid (m % 2 = 0) low (scaled m q) (scaled (2 * m + 1) (q - 1)) 700 310
  (found.map (dropZeros 20)).getD ⟨0, 0⟩

/-- How decimals are written: positionally for magnitudes from `10^-5` to `10^16`, with at least
one digit behind the point, and else with an exponent behind the letter `e`. -/
def Digits.text (d : Digits) : String :=
  let ds := toString d.digits
  let n : Int := ds.length
  let point := n + d.exponent
  if 0 ≤ d.exponent && point ≤ 16 then
    ds ++ String.ofList (List.replicate d.exponent.toNat '0') ++ ".0"
  else if 0 < point && point ≤ 16 then
    (ds.take point.toNat).toString ++ "." ++ (ds.drop point.toNat).toString
  else if -5 < point && point ≤ 0 then
    "0." ++ String.ofList (List.replicate (-point).toNat '0') ++ ds
  else
    let mantissa := if n = 1 then ds else (ds.take 1).toString ++ "." ++ (ds.drop 1).toString
    mantissa ++ "e" ++ toString (point - 1)

/-- The shortest decimal text of a finite double. -/
def text (x : Float) : String :=
  let bits := x.toBits
  let sign := if bits >>> 63 == 1 then "-" else ""
  let bits := bits &&& 0x7FFFFFFFFFFFFFFF
  if bits == 0 then sign ++ "0.0" else sign ++ (shortest bits).text

/-- How decimals are written without exponents, with at least one digit behind the point. -/
def Digits.positional (d : Digits) : String :=
  let ds := toString d.digits
  let point : Int := ds.length + d.exponent
  if 0 ≤ d.exponent then ds ++ String.ofList (List.replicate d.exponent.toNat '0') ++ ".0"
  else if 0 < point then (ds.take point.toNat).toString ++ "." ++ (ds.drop point.toNat).toString
  else "0." ++ String.ofList (List.replicate (-point).toNat '0') ++ ds

/-- The shortest decimal text of a finite double without an exponent. -/
def positional (x : Float) : String :=
  let bits := x.toBits
  let sign := if bits >>> 63 == 1 then "-" else ""
  let bits := bits &&& 0x7FFFFFFFFFFFFFFF
  if bits == 0 then sign ++ "0.0" else sign ++ (shortest bits).positional

end CallAtlas.Decimal

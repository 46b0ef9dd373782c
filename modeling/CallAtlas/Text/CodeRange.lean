/-!
# Ranges of code points

Classes of characters as ascending tables of inclusive ranges. `covers` decides whether a code
point lies in one of them.
-/

namespace CallAtlas.Text

/-- An inclusive range of code points. -/
abbrev CodeRange := Nat × Nat

/-- Whether `n` lies in one of the ascending ranges `table[lo], …, table[hi - 1]`, by halving.
As many steps as there are ranges always suffice, because each step drops one at least. -/
def inRanges (table : Array CodeRange) (n : Nat) : (fuel lo hi : Nat) → Bool
  | 0, _, _ => false
  | fuel + 1, lo, hi =>
    if lo < hi then
      let mid := (lo + hi) / 2
      match table[mid]? with
      | none => false
      | some (first, last) =>
        if n < first then inRanges table n fuel lo mid
        else if last < n then inRanges table n fuel (mid + 1) hi
        else true
    else false

/-- Whether `n` lies in one of the ascending ranges of the table. -/
def covers (table : Array CodeRange) (n : Nat) : Bool :=
  inRanges table n table.size 0 table.size

end CallAtlas.Text

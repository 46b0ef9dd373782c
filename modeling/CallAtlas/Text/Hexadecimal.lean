/-!
# Hexadecimal digits

The digits of numbers to the base sixteen, written in either case and read in both.
-/

namespace CallAtlas.Text

/-- The case of the digits from ten on. -/
inductive LetterCase where
  | lower
  | upper

/-- The hexadecimal digit of a number below 16. -/
def hexDigit (letters : LetterCase) (n : Nat) : Char :=
  match letters with
  | .lower => "0123456789abcdef".toList.getD n '0'
  | .upper => "0123456789ABCDEF".toList.getD n '0'

/-- The value of a hexadecimal digit. -/
def hexValue (c : Char) : Option Nat :=
  if c.isDigit then some (c.toNat - '0'.toNat)
  else if 'a' ≤ c && c ≤ 'f' then some (c.toNat - 'a'.toNat + 10)
  else if 'A' ≤ c && c ≤ 'F' then some (c.toNat - 'A'.toNat + 10)
  else none

def isHexDigit (c : Char) : Bool := (hexValue c).isSome

variable {letters : LetterCase} {n : Nat}

theorem hexValue_hexDigit (h : n < 16) : hexValue (hexDigit letters n) = some n := by
  have hall : ∀ n < 16, hexValue (hexDigit letters n) = some n := by cases letters <;> decide
  exact hall n h

theorem utf8Size_hexDigit (h : n < 16) : (hexDigit letters n).utf8Size = 1 := by
  have hall : ∀ n < 16, (hexDigit letters n).utf8Size = 1 := by cases letters <;> decide
  exact hall n h

/-- The number of a character below `0x100` in four digits is read back. -/
theorem mapM_hexValue_fourDigits (h : n < 0x100) :
    ['0', '0', hexDigit letters (n / 16), hexDigit letters (n % 16)].mapM hexValue =
      some [0, 0, n / 16, n % 16] := by
  have hzero : hexValue '0' = some 0 := by decide
  simp [hzero, hexValue_hexDigit (n := n / 16) (by omega), hexValue_hexDigit (n := n % 16) (by omega)]

end CallAtlas.Text

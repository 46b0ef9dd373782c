import CallAtlas.Text.Hexadecimal
/-!
# JSON values and their printed form

The values of which documents consist, and their pretty form: two blanks of indentation per level,
one entry per line, empty lists and objects in one piece.
-/

namespace CallAtlas

/-- A JSON value without numbers, truth values and nulls, which no document needs. -/
inductive Json where
  | string (text : String)
  | array (items : List Json)
  /-- An object with its members in order. -/
  | object (members : List (String × Json))

namespace Json

/-- A character as it stands in a quoted text. -/
def escape (c : Char) : List Char :=
  match c with
  | '"' => ['\\', '"']
  | '\\' => ['\\', '\\']
  | '\x08' => ['\\', 'b']
  | '\x0c' => ['\\', 'f']
  | '\n' => ['\\', 'n']
  | '\r' => ['\\', 'r']
  | '\t' => ['\\', 't']
  | c =>
    if c.toNat < 0x20 then
      ['\\', 'u', '0', '0', Text.hexDigit .lower (c.toNat / 16), Text.hexDigit .lower (c.toNat % 16)]
    else [c]

def quote (text : String) : List Char := '"' :: (text.toList.flatMap escape ++ ['"'])

/-- A line end and the blanks of a level. -/
def newline (level : Nat) : List Char := '\n' :: List.replicate (2 * level) ' '

mutual
/-- The pretty form of a value on a level. -/
def prettyChars (level : Nat) : Json → List Char
  | string text => quote text
  | array [] => ['[', ']']
  | array (x :: xs) =>
    '[' :: (newline (level + 1) ++ prettyChars (level + 1) x ++ prettyItems (level + 1) xs ++
      newline level ++ [']'])
  | object [] => ['\x7b', '\x7d']
  | object ((k, x) :: ms) =>
    '\x7b' :: (newline (level + 1) ++ quote k ++ [':', ' '] ++ prettyChars (level + 1) x ++
      prettyMembers (level + 1) ms ++ newline level ++ ['\x7d'])

/-- The items behind the first one, each on a line of its own. -/
def prettyItems (level : Nat) : List Json → List Char
  | [] => []
  | x :: xs => ',' :: (newline level ++ prettyChars level x ++ prettyItems level xs)

/-- The members behind the first one, each on a line of its own. -/
def prettyMembers (level : Nat) : List (String × Json) → List Char
  | [] => []
  | (k, x) :: ms =>
    ',' :: (newline level ++ quote k ++ [':', ' '] ++ prettyChars level x ++
      prettyMembers level ms)
end

/-- The pretty form of a value with a line end behind it. -/
def document (j : Json) : String := String.ofList (j.prettyChars 0 ++ ['\n'])

end Json

end CallAtlas

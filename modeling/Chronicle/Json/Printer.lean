import Chronicle.Decimal
import Chronicle.Value.Basic

/-!
# The text of a value

`pretty` writes each item and member on a line of its own, indented by two blanks per level, and an
empty list or object as its two brackets.
-/

namespace Chronicle.Value

/-- One character inside a string. -/
def escape (c : Char) : List Char :=
  match c with
  | '"' => ['\\', '"']
  | '\\' => ['\\', '\\']
  | '\x08' => ['\\', 'b']
  | '\x0c' => ['\\', 'f']
  | '\n' => ['\\', 'n']
  | '\r' => ['\\', 'r']
  | '\t' => ['\\', 't']
  | _ =>
    if c.toNat < 0x20 then
      ['\\', 'u', '0', '0', Nat.digitChar (c.toNat / 16), Nat.digitChar (c.toNat % 16)]
    else [c]

/-- A string between quotes. -/
def stringText (s : String) : List Char := '"' :: (s.toList.flatMap escape ++ ['"'])

/-- An integer in decimal. -/
def intText (n : Int) : List Char :=
  if n < 0 then '-' :: Nat.toDigits 10 n.natAbs else Nat.toDigits 10 n.natAbs

/-- A new line at the given level. -/
def newline (level : Nat) : List Char := '\n' :: List.replicate (2 * level) ' '

mutual
/-- The text of a value that starts on a line of the given level. -/
def prettyAt (level : Nat) : Value → List Char
  | .list (v :: rest) =>
    '[' :: (newline (level + 1) ++ prettyAt (level + 1) v ++ prettyItems level rest)
  | .object ((name, v) :: rest) =>
    '\x7b' :: (newline (level + 1) ++ stringText name ++ ':' :: ' ' :: prettyAt (level + 1) v ++
      prettyMembers level rest)
  | .list [] => ['[', ']']
  | .object [] => ['\x7b', '\x7d']
  | .null => ['n', 'u', 'l', 'l']
  | .bool true => ['t', 'r', 'u', 'e']
  | .bool false => ['f', 'a', 'l', 's', 'e']
  | .int n => intText n
  | .float x => x.documentText
  | .str s => stringText s

/-- The items after the first, and the closing bracket. -/
def prettyItems (level : Nat) : List Value → List Char
  | [] => newline level ++ [']']
  | v :: rest => ',' :: (newline (level + 1) ++ prettyAt (level + 1) v ++ prettyItems level rest)

/-- The members after the first, and the closing bracket. -/
def prettyMembers (level : Nat) : List (String × Value) → List Char
  | [] => newline level ++ ['\x7d']
  | (name, v) :: rest =>
    ',' :: (newline (level + 1) ++ stringText name ++ ':' :: ' ' :: prettyAt (level + 1) v ++
      prettyMembers level rest)
end

/-- The text of a value over several lines. -/
def pretty (v : Value) : List Char := prettyAt 0 v

end Chronicle.Value

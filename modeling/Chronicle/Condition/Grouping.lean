import Chronicle.Text.Blank

/-!
# Parentheses and the connectives

`||` and `&&` separate the parts of a condition where they stand outside parentheses. The depth of
a place is the number of opening less the number of closing parentheses before it; nothing keeps
it from being negative. A whole condition in parentheses is a group if its first parenthesis is
not closed before its last.
-/

namespace Chronicle.Condition

/-- The depth after a character. -/
def depthAfter (depth : Int) (c : Char) : Int :=
  if c = '(' then depth + 1 else if c = ')' then depth - 1 else depth

/-- The parts between the places at depth zero where a connective stands, which is its mark written
twice. A text without such a place is its own only part. -/
def parts (mark : Char) (depth : Int) : List Char → List (List Char)
  | [] => [[]]
  | [c] => [[c]]
  | c :: d :: rest =>
    if depth = 0 ∧ c = mark ∧ d = mark then [] :: parts mark depth rest
    else (parts mark (depthAfter depth c) (d :: rest)).modifyHead (c :: ·)

/-- The operands of a connective, without blanks around them, or `none` where the connective does
not stand outside parentheses. A blank last operand is left out. -/
def operands? (mark : Char) (cs : List Char) : Option (List (List Char)) :=
  match (parts mark 0 cs).map Text.trim with
  | [] | [_] => none
  | trimmed => some (if trimmed.getLast? = some [] then trimmed.dropLast else trimmed)

/-- No closing parenthesis goes below the given depth. -/
def staysInside (depth : Int) : List Char → Bool
  | [] => true
  | c :: cs => 0 ≤ depthAfter depth c && staysInside (depthAfter depth c) cs

/-- The inside of a text whose first character opens a parenthesis that none but its last one
closes. -/
def group? : List Char → Option (List Char)
  | '(' :: rest =>
    if rest.getLast? = some ')' ∧ staysInside 0 rest.dropLast then some rest.dropLast else none
  | _ => none

end Chronicle.Condition

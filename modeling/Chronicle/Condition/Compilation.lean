import Chronicle.Condition.Basic
import Chronicle.Condition.Grouping
import Chronicle.Decimal
import Chronicle.Text.Split

/-!
# The condition that a text stands for

Every text is a condition. A text is taken apart by the first of these steps that applies: at `||`,
at `&&`, behind a leading `!`, inside a group, at a comparison, at an arithmetic sign. Comparisons
and signs are searched for in the order of their lists, anywhere in the text; the first occurrence
of the first one found is where the text is cut, and a sign that leads the text is passed over.
What remains is a literal, a call of a function, or a name.
-/

namespace Chronicle.Condition

/-- The text consists of digits, at least one. -/
def isDigits (cs : List Char) : Bool := !cs.isEmpty && cs.all Char.isDigit

/-- The number of an integer with an optional sign or of an unsigned decimal with one point. An
integer outside 64 bits is a float, and a number beyond all floats is null. -/
def number? (cs : List Char) : Option Value :=
  let (negative, digits) : Bool × List Char := match cs with
    | '-' :: rest => (true, rest)
    | _ => (false, cs)
  if isDigits digits then
    let size := Nat.ofDigitChars 10 digits 0
    let n : Int := if negative then -size else size
    some (if -0x8000000000000000 ≤ n ∧ n < 0x8000000000000000 then .int n
      else .ofFloat? (Decimal.toBinary64 negative ⟨size, 0⟩))
  else match Text.cut? ['.'] cs with
    | some (whole, fraction) =>
      if isDigits (whole ++ fraction) then
        some (.ofFloat? (Decimal.toBinary64 false
          ⟨Nat.ofDigitChars 10 (whole ++ fraction) 0, -fraction.length⟩))
      else none
    | none => none

/-- The value of a word that is a literal. -/
def keyword? (cs : List Char) : Option Value :=
  if cs = "null".toList ∨ cs = "None".toList then some .null
  else if cs = "true".toList ∨ cs = "True".toList then some (.bool true)
  else if cs = "false".toList ∨ cs = "False".toList then some (.bool false)
  else none

/-- A function whose call the text is, and the text of the argument. -/
def call? (cs : List Char) : Option (Measure × List Char) :=
  Measure.all.findSome? fun f ↦
    let head := f.name ++ ['(']
    let rest := cs.drop head.length
    if head.isPrefixOf cs ∧ rest.getLast? = some ')' then some (f, rest.dropLast) else none

/-- The text between two quotes of one kind. A lone quote has nothing between. -/
def quotation? : List Char → Option String
  | c :: rest =>
    if (c = '"' ∨ c = '\'') ∧ (c :: rest).getLast? = some c then
      some (String.ofList rest.dropLast)
    else none
  | [] => none

/-- The name that a text is. -/
def nameOf (cs : List Char) : Name where
  text := String.ofList cs
  path := match Text.pieces '.' cs with
    | first :: rest => (Root.ofSegment? first).map fun root ↦ (root, rest.map String.ofList)
    | [] => none

/-- The text behind a negation. A single `!` negates what follows it, a group without its
parentheses; `!=` is a comparison. -/
def negated? : List Char → Option (List Char)
  | '!' :: rest =>
    if rest.head? = some '=' then none
    else
      let inner := Text.trim rest
      some ((group? inner).getD inner)
  | _ => none

/-- The comparison at which a text is cut, and the parts. -/
def comparison? (cs : List Char) : Option (Comparison × List Char × List Char) :=
  Comparison.all.findSome? fun op ↦ (Text.cut? op.symbol cs).map (op, ·)

/-- The arithmetic sign at which a text is cut, and the parts. -/
def operation? (cs : List Char) : Option (Operation × List Char × List Char) :=
  Operation.all.findSome? fun op ↦
    if cs.head? = some op.sign then none else (Text.cut? [op.sign] cs).map (op, ·)

/-- The condition of a text without operators, where `sub` gives that of an argument. -/
def leaf (sub : List Char → Condition) (cs : List Char) : Condition :=
  match number? cs with
  | some v => .literal v
  | none =>
  match keyword? cs with
  | some v => .literal v
  | none =>
  match call? cs with
  | some (f, argument) => .measure f (sub argument)
  | none =>
  match quotation? cs with
  | some s => .literal (.str s)
  | none => .name (nameOf cs)

/-- The condition of a text by the first step that applies, where `sub` gives those of its parts. -/
def dispatch (sub : List Char → Condition) (source : List Char) : Condition :=
  let cs := Text.trim source
  if cs.isEmpty then .empty
  else match operands? '|' cs with
  | some operands => .any (operands.map sub)
  | none =>
  match operands? '&' cs with
  | some operands => .all (operands.map sub)
  | none =>
  match negated? cs with
  | some inner => .not (sub inner)
  | none =>
  match group? cs with
  | some inner => sub inner
  | none =>
  match comparison? cs with
  | some (op, left, right) => .compare op (sub left) (sub right)
  | none =>
  match operation? cs with
  | some (op, left, right) => .arith op (sub left) (sub right)
  | none => leaf sub cs

/-- The condition of a text, for texts that are at most as long as the fuel. Every part of a text
is shorter than the text. -/
def compileWith : Nat → List Char → Condition
  | 0, _ => .empty
  | fuel + 1, source => dispatch (compileWith fuel) source

/-- The condition that a text stands for. -/
def compile (source : List Char) : Condition := compileWith source.length source

end Chronicle.Condition

import Chronicle.Value.Numeric

/-!
# Truth, equality, and order of values

Values count as true unless they are null, `false`, a zero, or empty. Equality and order look at
numbers as numbers, so `1`, `1.0`, and `true` are equal. Order is defined between numbers, between
texts, and between lists, which are ordered by the first pair of items that differ.
-/

namespace Chronicle.Value

/-- A value counts as true unless it is null, `false`, a zero, or empty. -/
def truthy : Value → Bool
  | .null => false
  | .bool b => b
  | .int n => n != 0
  | .float x => !x.isZero
  | .str s => s != ""
  | .list items => !items.isEmpty
  | .object members => !members.isEmpty

/-- The number of characters, items, or members. -/
def size : Value → Nat
  | .str s => s.length
  | .list items => items.length
  | .object members => members.length
  | _ => 0

mutual
/-- Equality in which numbers and booleans are compared as numbers. -/
def equal (a b : Value) : Bool :=
  match Numeric.of? a, Numeric.of? b with
  | some x, some y => x.order y == .eq
  | _, _ =>
    match a, b with
    | .null, .null => true
    | .str s, .str t => s == t
    | .list xs, .list ys => equalItems xs ys
    | .object ms, .object ns => ms.length == ns.length && equalMembers ms ns
    | _, _ => false

/-- The lists have equal items in equal places. -/
def equalItems : List Value → List Value → Bool
  | [], [] => true
  | x :: xs, y :: ys => equal x y && equalItems xs ys
  | _, _ => false

/-- Each of the members has an equal one of its name in the second list. -/
def equalMembers : List (String × Value) → List (String × Value) → Bool
  | [], _ => true
  | (name, v) :: ms, ns =>
    (match ns.lookup name with
      | some other => equal v other
      | none => false) && equalMembers ms ns
end

mutual
/-- How two values are ordered, where they are comparable. -/
def order? (a b : Value) : Option Ordering :=
  match Numeric.of? a, Numeric.of? b with
  | some x, some y => some (x.order y)
  | _, _ =>
    match a, b with
    | .str s, .str t => some (compare s t)
    | .list xs, .list ys => orderItems? xs ys
    | _, _ => none

/-- Lists are ordered by the first pair of items that are not equal, and else by their lengths. -/
def orderItems? : List Value → List Value → Option Ordering
  | [], [] => some .eq
  | [], _ :: _ => some .lt
  | _ :: _, [] => some .gt
  | x :: xs, y :: ys => if equal x y then orderItems? xs ys else order? x y
end

end Chronicle.Value

import Chronicle.Binary64
import Chronicle.Keyed

/-!
# Values

The data that states, rules, and conditions are made of. Integers and floats are different values
even where they are equal numbers, and the members of an object keep the order in which they were
written. `sameAs` is equality up to the order of members and the sign of zero.
-/

namespace Chronicle

/-- A tree of data. -/
inductive Value where
  | null
  | bool (b : Bool)
  | int (n : Int)
  | float (x : Binary64)
  | str (s : String)
  | list (items : List Value)
  | object (members : List (String × Value))
deriving Inhabited

/-- A free-form record: members by name, in order. -/
abbrev Attributes := List (String × Value)

namespace Value

mutual
/-- Equality of trees is decided node by node. -/
def decideEq : (a b : Value) → Decidable (a = b)
  | .null, b => match b with
    | .null => isTrue rfl
    | .bool _ | .int _ | .float _ | .str _ | .list _ | .object _ => isFalse (by simp)
  | .bool a, b => match b with
    | .bool c => decidable_of_iff (a = c) (by simp)
    | .null | .int _ | .float _ | .str _ | .list _ | .object _ => isFalse (by simp)
  | .int a, b => match b with
    | .int c => decidable_of_iff (a = c) (by simp)
    | .null | .bool _ | .float _ | .str _ | .list _ | .object _ => isFalse (by simp)
  | .float a, b => match b with
    | .float c => decidable_of_iff (a = c) (by simp)
    | .null | .bool _ | .int _ | .str _ | .list _ | .object _ => isFalse (by simp)
  | .str a, b => match b with
    | .str c => decidable_of_iff (a = c) (by simp)
    | .null | .bool _ | .int _ | .float _ | .list _ | .object _ => isFalse (by simp)
  | .list xs, b => match b with
    | .list ys => @decidable_of_iff _ (xs = ys) (by simp) (decideEqItems xs ys)
    | .null | .bool _ | .int _ | .float _ | .str _ | .object _ => isFalse (by simp)
  | .object ms, b => match b with
    | .object ns => @decidable_of_iff _ (ms = ns) (by simp) (decideEqMembers ms ns)
    | .null | .bool _ | .int _ | .float _ | .str _ | .list _ => isFalse (by simp)

/-- Equality of the items of two lists. -/
def decideEqItems : (xs ys : List Value) → Decidable (xs = ys)
  | [], [] => isTrue rfl
  | [], _ :: _ | _ :: _, [] => isFalse (by simp)
  | x :: xs, y :: ys => match decideEq x y, decideEqItems xs ys with
    | isTrue h, isTrue g => isTrue (by rw [h, g])
    | isFalse h, _ => isFalse (by simp [h])
    | _, isFalse g => isFalse (by simp [g])

/-- Equality of the members of two objects, order included. -/
def decideEqMembers : (ms ns : List (String × Value)) → Decidable (ms = ns)
  | [], [] => isTrue rfl
  | [], _ :: _ | _ :: _, [] => isFalse (by simp)
  | (k, x) :: ms, (l, y) :: ns =>
    match (inferInstance : Decidable (k = l)), decideEq x y, decideEqMembers ms ns with
    | isTrue f, isTrue h, isTrue g => isTrue (by rw [f, h, g])
    | isFalse f, _, _ => isFalse (by simp [f])
    | _, isFalse h, _ => isFalse (by simp [h])
    | _, _, isFalse g => isFalse (by simp [g])
end

instance : DecidableEq Value := decideEq

/-- A float where one results, and null in place of a number that is out of range. -/
def ofFloat? : Option Binary64 → Value
  | some x => .float x
  | none => .null

/-- The member of an object with the given name. -/
def member? (name : String) : Value → Option Value
  | .object members => members.lookup name
  | _ => none

mutual
/-- The values hold the same data: the order of members and the sign of zero do not matter, the
difference between integers and floats does. -/
def sameAs : Value → Value → Bool
  | .null, .null => true
  | .bool a, .bool b => a == b
  | .int a, .int b => a == b
  | .float a, .float b => a.sameValue b
  | .str a, .str b => a == b
  | .list xs, .list ys => sameItems xs ys
  | .object ms, .object ns => ms.length == ns.length && sameMembers ms ns
  | _, _ => false

/-- The items are the same one by one. -/
def sameItems : List Value → List Value → Bool
  | [], [] => true
  | x :: xs, y :: ys => sameAs x y && sameItems xs ys
  | _, _ => false

/-- Every member of the first list occurs in the second with the same value. -/
def sameMembers : List (String × Value) → List (String × Value) → Bool
  | [], _ => true
  | (key, v) :: ms, ns => (ns.any fun m ↦ m.1 == key && sameAs v m.2) && sameMembers ms ns
end

end Value

/-- Two free-form records hold the same data in whatever order. -/
def Attributes.sameAs (a b : Attributes) : Bool := (Value.object a).sameAs (.object b)

end Chronicle

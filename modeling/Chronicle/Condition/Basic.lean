import Chronicle.Value.Basic

/-!
# Conditions

A condition is an expression over the two states of a transition, the values computed for it, and
the events that have fired so far. Names are resolved when the condition is evaluated; a name that
starts with a known root is a path into a tree.
-/

namespace Chronicle

/-- The comparisons. -/
inductive Comparison where
  | ne | eq | ge | le | gt | lt
deriving DecidableEq, Repr

namespace Comparison

/-- The comparisons in the order in which a text is searched for them. -/
def all : List Comparison := [ne, eq, ge, le, gt, lt]

/-- How a comparison is written. -/
def symbol : Comparison → List Char
  | ne => ['!', '=']
  | eq => ['=', '=']
  | ge => ['>', '=']
  | le => ['<', '=']
  | gt => ['>']
  | lt => ['<']

end Comparison

/-- The arithmetic operations. -/
inductive Operation where
  | add | sub | mul | div
deriving DecidableEq, Repr

namespace Operation

/-- The operations in the order in which a text is searched for them. -/
def all : List Operation := [add, sub, mul, div]

/-- How an operation is written. -/
def sign : Operation → Char
  | add => '+'
  | sub => '-'
  | mul => '*'
  | div => '/'

end Operation

/-- The functions, both of which measure a value. -/
inductive Measure where
  | len | count
deriving DecidableEq, Repr

namespace Measure

def all : List Measure := [len, count]

/-- The name of a function. -/
def name : Measure → List Char
  | len => ['l', 'e', 'n']
  | count => ['c', 'o', 'u', 'n', 't']

end Measure

/-- Where a path starts. -/
inductive Root where
  | curr | prev | action | computed
deriving DecidableEq, Repr

/-- The root that the first segment of a name stands for. -/
def Root.ofSegment? (segment : List Char) : Option Root :=
  if segment = "curr".toList then some .curr
  else if segment = "prev".toList then some .prev
  else if segment = "action_result".toList ∨ segment = "actionResult".toList then some .action
  else if segment = "computed".toList then some .computed
  else none

/-- A name as written, and the path it is if it starts with a root. -/
structure Name where
  text : String
  path : Option (Root × List String)
deriving DecidableEq, Repr

/-- A condition. -/
inductive Condition where
  /-- Nothing was written. -/
  | empty
  | literal (v : Value)
  | name (n : Name)
  | not (c : Condition)
  | any (parts : List Condition)
  | all (parts : List Condition)
  | compare (op : Comparison) (left right : Condition)
  | arith (op : Operation) (left right : Condition)
  | measure (f : Measure) (argument : Condition)
deriving Inhabited

namespace Condition

mutual
/-- Equality of conditions is decided node by node. -/
def decideEq : (a b : Condition) → Decidable (a = b)
  | .empty, d => match d with
    | .empty => isTrue rfl
    | .literal .. | .name .. | .not .. | .any .. | .all .. | .compare .. | .arith ..
    | .measure .. => isFalse (by simp)
  | .literal v, d => match d with
    | .literal w => decidable_of_iff (v = w) (by simp)
    | .empty | .name .. | .not .. | .any .. | .all .. | .compare .. | .arith .. | .measure .. =>
      isFalse (by simp)
  | .name m, d => match d with
    | .name n => decidable_of_iff (m = n) (by simp)
    | .empty | .literal .. | .not .. | .any .. | .all .. | .compare .. | .arith .. | .measure .. =>
      isFalse (by simp)
  | .not a, d => match d with
    | .not b => @decidable_of_iff _ (a = b) (by simp) (decideEq a b)
    | .empty | .literal .. | .name .. | .any .. | .all .. | .compare .. | .arith .. | .measure .. =>
      isFalse (by simp)
  | .any as, d => match d with
    | .any bs => @decidable_of_iff _ (as = bs) (by simp) (decideEqParts as bs)
    | .empty | .literal .. | .name .. | .not .. | .all .. | .compare .. | .arith .. | .measure .. =>
      isFalse (by simp)
  | .all as, d => match d with
    | .all bs => @decidable_of_iff _ (as = bs) (by simp) (decideEqParts as bs)
    | .empty | .literal .. | .name .. | .not .. | .any .. | .compare .. | .arith .. | .measure .. =>
      isFalse (by simp)
  | .compare op a b, d => match d with
    | .compare op' c e =>
      match (inferInstance : Decidable (op = op')), decideEq a c, decideEq b e with
      | isTrue f, isTrue g, isTrue h => isTrue (by rw [f, g, h])
      | isFalse f, _, _ => isFalse (by simp [f])
      | _, isFalse g, _ => isFalse (by simp [g])
      | _, _, isFalse h => isFalse (by simp [h])
    | .empty | .literal .. | .name .. | .not .. | .any .. | .all .. | .arith .. | .measure .. =>
      isFalse (by simp)
  | .arith op a b, d => match d with
    | .arith op' c e =>
      match (inferInstance : Decidable (op = op')), decideEq a c, decideEq b e with
      | isTrue f, isTrue g, isTrue h => isTrue (by rw [f, g, h])
      | isFalse f, _, _ => isFalse (by simp [f])
      | _, isFalse g, _ => isFalse (by simp [g])
      | _, _, isFalse h => isFalse (by simp [h])
    | .empty | .literal .. | .name .. | .not .. | .any .. | .all .. | .compare .. | .measure .. =>
      isFalse (by simp)
  | .measure f a, d => match d with
    | .measure f' b =>
      match (inferInstance : Decidable (f = f')), decideEq a b with
      | isTrue g, isTrue h => isTrue (by rw [g, h])
      | isFalse g, _ => isFalse (by simp [g])
      | _, isFalse h => isFalse (by simp [h])
    | .empty | .literal .. | .name .. | .not .. | .any .. | .all .. | .compare .. | .arith .. =>
      isFalse (by simp)

/-- Equality of the parts of two connectives. -/
def decideEqParts : (as bs : List Condition) → Decidable (as = bs)
  | [], [] => isTrue rfl
  | [], _ :: _ | _ :: _, [] => isFalse (by simp)
  | a :: as, b :: bs => match decideEq a b, decideEqParts as bs with
    | isTrue h, isTrue g => isTrue (by rw [h, g])
    | isFalse h, _ => isFalse (by simp [h])
    | _, isFalse g => isFalse (by simp [g])
end

instance : DecidableEq Condition := decideEq

end Condition

end Chronicle

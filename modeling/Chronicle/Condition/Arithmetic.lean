import Chronicle.Condition.Basic
import Chronicle.Value.Comparison

/-!
# What conditions compute

Integers stay integers under `+`, `-`, and `*`; a quotient is a float. Null counts as zero, and a
quotient by zero is zero whatever is divided. `+` also joins texts and lists. An ordering involving
null is false, and values that are not comparable have no ordering.
-/

namespace Chronicle

/-- Why a condition has no value. -/
inductive EvalError where
  | typeMismatch (symbol : String) (left right : Value)
  | overflow (op : Operation)
  | nonFinite (op : Operation)
deriving DecidableEq

/-- The kind of a value, as messages name it. -/
def Value.kind : Value → String
  | .null => "null"
  | .bool _ => "bool"
  | .int _ | .float _ => "number"
  | .str _ => "string"
  | .list _ => "list"
  | .object _ => "object"

def Operation.symbol (op : Operation) : String := String.singleton op.sign

def EvalError.message : EvalError → String
  | .typeMismatch symbol left right => s!"cannot apply `{symbol}` to {left.kind} and {right.kind}"
  | .overflow op => s!"integer overflow in `{op.symbol}`"
  | .nonFinite op => s!"non-finite result from `{op.symbol}`"

namespace Comparison

/-- The comparison holds between values in the given order. -/
def holds (op : Comparison) (order : Ordering) : Bool :=
  match op with
  | ne => order != .eq
  | eq => order == .eq
  | ge => order != .lt
  | le => order != .gt
  | gt => order == .gt
  | lt => order == .lt

/-- The comparison of two values. -/
def apply (op : Comparison) (a b : Value) : Except EvalError Bool :=
  match op with
  | eq => .ok (a.equal b)
  | ne => .ok !(a.equal b)
  | _ =>
    if a = .null ∨ b = .null then .ok false
    else match a.order? b with
      | some order => .ok (op.holds order)
      | none => .error (.typeMismatch (String.ofList op.symbol) a b)

end Comparison

namespace Operation

/-- An exact integer that fits in 64 bits. -/
def exact (op : Operation) (n : Int) : Except EvalError Value :=
  if Numeric.least ≤ n ∧ n ≤ Numeric.greatest then .ok (.int n) else .error (.overflow op)

/-- A finite float. -/
def rounded (op : Operation) (x : Option Binary64) : Except EvalError Value :=
  match x with
  | some x => .ok (.float x)
  | none => .error (.nonFinite op)

/-- The operation on two numbers. -/
def applyNumeric (op : Operation) (a b : Numeric) : Except EvalError Value :=
  match op, a, b with
  | add, .int m, .int n => op.exact (m + n)
  | sub, .int m, .int n => op.exact (m - n)
  | mul, .int m, .int n => op.exact (m * n)
  | add, a, b => op.rounded (a.toBinary64.add b.toBinary64)
  | sub, a, b => op.rounded (a.toBinary64.sub b.toBinary64)
  | mul, a, b => op.rounded (a.toBinary64.mul b.toBinary64)
  | div, a, b => op.rounded (a.toBinary64.div b.toBinary64)

/-- Null counts as zero. -/
def operand : Value → Value
  | .null => .int 0
  | v => v

/-- The operation on two values. -/
def apply (op : Operation) (a b : Value) : Except EvalError Value :=
  let a := operand a
  let b := operand b
  if op = div ∧ (Numeric.of? b).any Numeric.isZero then .ok (.int 0)
  else match Numeric.of? a, Numeric.of? b with
    | some x, some y => op.applyNumeric x y
    | _, _ =>
      match op, a, b with
      | add, .str s, .str t => .ok (.str (s ++ t))
      | add, .list xs, .list ys => .ok (.list (xs ++ ys))
      | _, _, _ => .error (.typeMismatch op.symbol a b)

end Operation

end Chronicle

import Chronicle.Value.Basic

/-!
# Values as numbers

Booleans are the integers one and zero, and an integer that does not fit in 64 bits with a sign
counts as a float. Two integers are compared as integers; where a float takes part both are
compared as floats, in their total order.
-/

namespace Chronicle

/-- A number that a condition computes with. -/
inductive Numeric where
  | int (n : Int)
  | float (x : Binary64)
deriving DecidableEq, Repr

namespace Numeric

/-- The least integer. -/
abbrev least : Int := -0x8000000000000000

/-- The greatest integer. -/
abbrev greatest : Int := 0x7FFFFFFFFFFFFFFF

/-- The number that a value is. -/
def of? : Value → Option Numeric
  | .bool b => some (.int b.toInt)
  | .int n => some (if least ≤ n ∧ n ≤ greatest then .int n else .float (.ofInt n))
  | .float x => some (.float x)
  | _ => none

/-- The number as a float. -/
def toBinary64 : Numeric → Binary64
  | .int n => .ofInt n
  | .float x => x

def isZero : Numeric → Bool
  | .int n => n == 0
  | .float x => x.isZero

/-- How two numbers are ordered. -/
def order : Numeric → Numeric → Ordering
  | .int m, .int n => compare m n
  | a, b => a.toBinary64.order b.toBinary64

end Numeric

end Chronicle

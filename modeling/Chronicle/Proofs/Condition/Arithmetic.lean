import Chronicle.Condition.Arithmetic

/-!
# Arithmetic on integers

A sum, difference, or product of integers is computed exactly, and is an error where it does not fit
in 64 bits: `Operation.applyNumeric_int`. Booleans and null count as integers too:
`Operation.apply_integers`.
-/

namespace Chronicle

namespace Numeric

/-- The integer has 64 bits with a sign. -/
abbrev Fits (n : Int) : Prop := least ≤ n ∧ n ≤ greatest

/-- Integers of 64 bits stand for themselves. -/
theorem of?_int {n : Int} (h : Fits n) : of? (.int n) = some (.int n) := by
  rw [of?, if_pos h]

end Numeric

namespace Value

variable {v : Value} {n : Int}

/-- The integer that a value counts as in arithmetic. Null is zero, and `true` is one. -/
def integer? : Value → Option Int
  | .null => some 0
  | .bool b => some b.toInt
  | .int n => if Numeric.Fits n then some n else none
  | _ => none

theorem integer?_int (h : Numeric.Fits n) : (int n).integer? = some n := if_pos h

/-- What counts as an integer is taken for it by every operation. -/
theorem of?_operand (h : v.integer? = some n) :
    Numeric.of? (Operation.operand v) = some (.int n) := by
  cases v with
  | null =>
      cases h
      exact Numeric.of?_int (by decide)
  | bool b =>
      cases h
      rfl
  | int m =>
      rw [integer?, Option.ite_none_right_eq_some] at h
      obtain ⟨hfits, heq⟩ := h
      cases heq
      exact Numeric.of?_int hfits
  | float | str | list | object => cases h

/-- No value counts as an integer that does not fit. -/
theorem fits_of_integer? (h : v.integer? = some n) : Numeric.Fits n := by
  cases v with
  | null =>
      cases h
      decide
  | bool b =>
      cases h
      cases b <;> decide
  | int m =>
      rw [integer?, Option.ite_none_right_eq_some] at h
      obtain ⟨hfits, heq⟩ := h
      cases heq
      exact hfits
  | float | str | list | object => cases h

end Value

namespace Operation

/-- The exact result of an operation on integers. A quotient is not one. -/
def result? (op : Operation) (a b : Int) : Option Int :=
  match op with
  | add => some (a + b)
  | sub => some (a - b)
  | mul => some (a * b)
  | div => none

variable {op : Operation} {a b n : Int}

theorem ne_div_of_result? (h : op.result? a b = some n) : op ≠ div := by
  rintro rfl
  cases h

/-- The result of an operation on integers, as long as it fits. -/
theorem applyNumeric_int (h : op.result? a b = some n) :
    op.applyNumeric (.int a) (.int b) =
      if Numeric.Fits n then .ok (.int n) else .error (.overflow op) := by
  cases op with
  | add | sub | mul => cases h; rfl
  | div => cases h

/-- Only a division looks at its operands before they are taken for numbers. -/
theorem apply_numeric (hop : op ≠ div) {v w : Value} {x y : Numeric}
    (hv : Numeric.of? (operand v) = some x) (hw : Numeric.of? (operand w) = some y) :
    op.apply v w = op.applyNumeric x y := by
  unfold apply
  dsimp only
  rw [if_neg (fun h ↦ hop h.1), hv, hw]

/-- The operation on values that count as integers. -/
theorem apply_integers {v w : Value} (hv : v.integer? = some a) (hw : w.integer? = some b)
    (h : op.result? a b = some n) :
    op.apply v w = if Numeric.Fits n then .ok (.int n) else .error (.overflow op) := by
  rw [apply_numeric (ne_div_of_result? h) (Value.of?_operand hv) (Value.of?_operand hw),
    applyNumeric_int h]

/-- The operation on integers of 64 bits. -/
theorem apply_int (ha : Numeric.Fits a) (hb : Numeric.Fits b) (h : op.result? a b = some n) :
    op.apply (.int a) (.int b) =
      if Numeric.Fits n then .ok (.int n) else .error (.overflow op) :=
  apply_integers (Value.integer?_int ha) (Value.integer?_int hb) h

end Operation

end Chronicle

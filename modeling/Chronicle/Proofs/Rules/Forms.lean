import Chronicle.Proofs.Binary64
import Chronicle.Proofs.Condition.Arithmetic
import Chronicle.Proofs.Results
import Chronicle.Proofs.Rules.Events

/-!
# Conditions over builtin values

Most conditions have one of a few forms: a flag is set, a number is above or below zero, a list is
not empty, a value is not null. Where the value is the builtin one of its kind, the condition holds
exactly where the typed value says so.
-/

namespace Chronicle

/-- Integers above zero come after zero, also where they are too large to be compared as such. -/
theorem Value.order?_zero_of_pos {n : Int} (h : 0 < n) :
    (Value.int n).order? (.int 0) = some .gt := by
  have hzero : Numeric.of? (.int 0) = some (.int 0) := by decide
  have hkey : (Binary64.ofInt 0).key = 0 := by
    rw [Binary64.ofInt_zero]
    rfl
  simp only [order?, hzero]
  simp only [Numeric.of?]
  -- An integer beyond 64 bits is compared as the float nearest to it.
  split
  · simp only [Numeric.order, Option.some.injEq]
    exact Int.compare_eq_gt.mpr h
  · simp only [Numeric.order, Binary64.order, Numeric.toBinary64, hkey, Option.some.injEq]
    exact Int.compare_eq_gt.mpr (Binary64.key_ofInt_pos h)

/-- Integers of 64 bits are ordered as integers. -/
theorem Value.order?_ofInt64 (n : Int64) :
    (Value.ofInt64 n).order? (.int 0) = some (compare n.toInt 0) := by
  have hrange : Numeric.least ≤ n.toInt ∧ n.toInt ≤ Numeric.greatest :=
    ⟨n.le_toInt, Int.le_sub_one_of_lt n.toInt_lt⟩
  have hzero : Numeric.least ≤ 0 ∧ 0 ≤ Numeric.greatest := by decide
  simp only [ofInt64, order?, Numeric.of?, if_pos hrange, if_pos hzero, Numeric.order]

namespace Comparison

theorem apply_lt_zero (n : Int64) : lt.apply (.ofInt64 n) (.int 0) = .ok (n < 0) := by
  have hless : decide (n < 0) = (compare n.toInt 0 == .lt) := by
    rw [Bool.eq_iff_iff, decide_eq_true_iff, beq_iff_eq, Int.compare_eq_lt]
    exact Int64.lt_iff_toInt_lt
  simp only [apply, Value.order?_ofInt64, holds, hless]
  simp [Value.ofInt64]

theorem apply_gt_zero (n : Int64) : gt.apply (.ofInt64 n) (.int 0) = .ok (0 < n) := by
  have hless : decide (0 < n) = (compare n.toInt 0 == .gt) := by
    rw [Bool.eq_iff_iff, decide_eq_true_iff, beq_iff_eq, Int.compare_eq_gt]
    exact Int64.lt_iff_toInt_lt
  simp only [apply, Value.order?_ofInt64, holds, hless]
  simp [Value.ofInt64]

theorem apply_ne_null (s : Option String) : ne.apply (.ofText? s) .null = .ok s.isSome := by
  cases s with
  | none => simp [apply, Value.ofText?, Value.equal, Numeric.of?]
  | some s => simp [apply, Value.ofText?, Value.equal, Numeric.of?]

theorem apply_size_gt_zero (strings : List String) :
    gt.apply (.int (Value.ofTexts strings).size) (.int 0) = .ok !strings.isEmpty := by
  cases strings with
  | nil => rfl
  | cons s rest =>
      have hsize : 0 < ((Value.ofTexts (s :: rest)).size : Int) :=
        Int.natCast_pos.mpr (Nat.succ_pos _)
      simp [apply, Value.order?_zero_of_pos hsize, holds]

/-- What is null or a number can be ordered. -/
theorem apply_lt_ok {v w : Value} (hv : v = .null ∨ (Numeric.of? v).isSome)
    (hw : w = .null ∨ (Numeric.of? w).isSome) : ∃ b, lt.apply v w = .ok b := by
  by_cases hnull : v = .null ∨ w = .null
  · exact ⟨false, by simp only [apply, if_pos hnull]⟩
  · obtain ⟨hv', hw'⟩ := not_or.mp hnull
    obtain ⟨x, hx⟩ := Option.isSome_iff_exists.mp (hv.resolve_left hv')
    obtain ⟨y, hy⟩ := Option.isSome_iff_exists.mp (hw.resolve_left hw')
    have horder : v.order? w = some (x.order y) := by
      unfold Value.order?
      simp only [hx, hy]
    refine ⟨lt.holds (x.order y), ?_⟩
    simp only [apply, if_neg hnull, horder]

end Comparison

/-- The difference of two integers that fit in 64 bits, if it fits as well. -/
theorem Operation.apply_sub_int {m n : Int} (hm : Numeric.least ≤ m ∧ m ≤ Numeric.greatest)
    (hn : Numeric.least ≤ n ∧ n ≤ Numeric.greatest)
    (h : Numeric.least ≤ m - n ∧ m - n ≤ Numeric.greatest) :
    sub.apply (.int m) (.int n) = .ok (.int (m - n)) := by
  rw [apply_int hm hn rfl, if_pos h]

/-- A float where one results is null or a number. -/
theorem numeric_ofFloat? (x : Option Binary64) :
    Value.ofFloat? x = .null ∨ (Numeric.of? (Value.ofFloat? x)).isSome := by
  cases x with
  | none => exact .inl rfl
  | some x => exact .inr rfl

/-- A ratio is null or a number. -/
theorem numeric_ratio (value maximum : Int64) :
    ratio value maximum = .null ∨ (Numeric.of? (ratio value maximum)).isSome := by
  unfold ratio
  split
  · exact numeric_ofFloat? _
  · exact .inr (by decide)

namespace Condition

/-- A name that is not a path. -/
def named (name : String) : Condition := .name ⟨name, none⟩

/-- A value is below zero. -/
def negative (name : String) : Condition := .compare .lt (named name) (.literal (.int 0))

/-- A value is above zero. -/
def positive (name : String) : Condition := .compare .gt (named name) (.literal (.int 0))

/-- A list is not empty. -/
def nonempty (name : String) : Condition :=
  .compare .gt (.measure .len (named name)) (.literal (.int 0))

/-- A value is not null. -/
def given (name : String) : Condition := .compare .ne (named name) (.literal .null)

/-- The value at a path is true. -/
def isTrue (n : Name) : Condition := .compare .eq (.name n) (.literal (.bool true))

variable {ctx : Context} {name : String}

/-- A computed value is found under its name. -/
theorem evaluate_named {v : Value} (h : ctx.computed.lookup name = some v) :
    (named name).evaluate ctx = .ok v := by
  simp only [named, evaluate, Context.resolve, h]

/-- What is no value and no event does not hold. -/
theorem not_holds_named (hvalue : ctx.computed.lookup name = none)
    (hevent : name ∉ ctx.fired) : (named name).holds ctx = false := by
  simp [holds, named, evaluate, Context.resolve, hvalue, hevent, Value.truthy]

/-- What stands for null is not true. -/
theorem not_holds_isTrue {n : Name} (h : ctx.resolve n = .null) :
    (Condition.isTrue n).holds ctx = false := by
  simp only [holds, Condition.isTrue, evaluate, h]
  rfl

theorem holds_named {b : Bool} (h : ctx.computed.lookup name = some (.bool b)) :
    (named name).holds ctx = b := by
  simp only [holds, evaluate_named h, Value.truthy]

theorem holds_negative {n : Int64} (h : ctx.computed.lookup name = some (.ofInt64 n)) :
    (negative name).holds ctx = decide (n < 0) := by
  simp only [holds, negative, evaluate, evaluate_named h, ok_bind, Comparison.apply_lt_zero,
    Value.truthy]

theorem holds_positive {n : Int64} (h : ctx.computed.lookup name = some (.ofInt64 n)) :
    (positive name).holds ctx = decide (0 < n) := by
  simp only [holds, positive, evaluate, evaluate_named h, ok_bind, Comparison.apply_gt_zero,
    Value.truthy]

theorem holds_given {s : Option String} (h : ctx.computed.lookup name = some (.ofText? s)) :
    (given name).holds ctx = s.isSome := by
  simp only [holds, given, evaluate, evaluate_named h, ok_bind, Comparison.apply_ne_null,
    Value.truthy]

theorem holds_nonempty {strings : List String}
    (h : ctx.computed.lookup name = some (.ofTexts strings)) :
    (nonempty name).holds ctx = !strings.isEmpty := by
  simp only [holds, nonempty, evaluate, evaluate_named h, ok_bind, Comparison.apply_size_gt_zero,
    Value.truthy]

/-- The parts of a conjunction that holds hold. -/
theorem allHold_eq_true {parts : List Condition} (h : allHold ctx parts = .ok true) :
    ∀ c ∈ parts, c.holds ctx = true := by
  induction parts with
  | nil => exact fun c hc ↦ absurd hc List.not_mem_nil
  | cons first rest ih =>
      rw [allHold] at h
      obtain ⟨v, hv, hdecides⟩ := bind_eq_ok.mp h
      split at hdecides
      · next htruthy =>
          have hfirst : first.holds ctx = true := by simp only [holds, hv, htruthy]
          exact List.forall_mem_cons.mpr ⟨hfirst, ih hdecides⟩
      · cases hdecides

/-- A conjunction does not hold where one of its parts does not. -/
theorem not_holds_all {parts : List Condition} {c : Condition} (hc : c ∈ parts)
    (h : c.holds ctx = false) : (Condition.all parts).holds ctx = false := by
  refine Bool.eq_false_iff.mpr fun hall ↦ ?_
  have hparts : allHold ctx parts = .ok true := by
    rw [holds, evaluate] at hall
    rcases hresult : allHold ctx parts with e | (_ | _)
    · rw [hresult] at hall
      cases hall
    · rw [hresult] at hall
      cases hall
    · rfl
  exact Bool.false_ne_true (h.symm.trans (allHold_eq_true hparts c hc))

/-- A value is above zero, and a flag is not set. -/
theorem holds_positive_not {flag : String} {n : Int64} {b : Bool}
    (hn : ctx.computed.lookup name = some (.ofInt64 n))
    (hb : ctx.computed.lookup flag = some (.bool b)) :
    (Condition.all [positive name, .not (named flag)]).holds ctx = (decide (0 < n) && !b) := by
  simp only [holds, positive, evaluate, allHold, evaluate_named hn, evaluate_named hb, ok_bind,
    Comparison.apply_gt_zero, Value.truthy]
  cases decide (0 < n) <;> cases b <;> rfl

end Condition

end Chronicle

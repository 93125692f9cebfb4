import Chronicle.Proofs.Condition.Arithmetic
import Chronicle.Proofs.Rounding
import Chronicle.Proofs.Value.Order

/-!
# Comparisons of numbers

Integers of 64 bits with a sign are compared exactly. In all other cases numbers are compared by the
nearest floats: `Comparison.compares_nearest`. That is exact where both are floats, and elsewhere it
still puts no number above one that it is not above. All of this is up to the sign of zero.
-/

namespace Chronicle

/-- The number is one of the floats. -/
def IsBinary64 (q : ℚ) : Prop := ∃ x : Binary64, x.value = q

theorem Binary64.IsNearest.value_eq_of {x : Binary64} {q : ℚ} (h : x.IsNearest q)
    (hq : IsBinary64 q) : x.value = q := by
  obtain ⟨y, rfl⟩ := hq
  exact h.value_eq

namespace Value

/-- The value is the number: an integer of 64 bits, with a sign or without, or a float. -/
inductive IsNumber : Value → ℚ → Prop where
  | int {n : Int} (hleast : Numeric.least ≤ n) (hmost : n < 2 ^ 64) : IsNumber (.int n) n
  | float (x : Binary64) : IsNumber (.float x) x.value

/-- The value is an integer of 64 bits with a sign. -/
def Integral (v : Value) : Prop := ∃ n, v = .int n ∧ Numeric.Fits n

/-- The zero with a sign. -/
abbrev negativeZero : Value := .float (.zero true)

/-- If both values are zero then both or none of them are the zero with a sign. -/
def AgreeOnZero (a b : Value) : Prop :=
  a.IsNumber 0 → b.IsNumber 0 → (a = negativeZero ↔ b = negativeZero)

theorem truthy_iff {a : Value} {p : ℚ} (h : a.IsNumber p) : a.truthy = true ↔ p ≠ 0 := by
  cases h with
  | int hleast hmost => simp [truthy]
  | float x =>
      rw [truthy, Bool.not_eq_true', ← Bool.not_eq_true, ← Binary64.value_eq_zero]

end Value

/-! ### What stands for a number -/

namespace Numeric

variable {u v : Numeric} {a b : Value} {p q : ℚ}

/-- What is computed with in place of a number. -/
structure StandsFor (u : Numeric) (a : Value) (p : ℚ) : Prop where
  of? : of? a = some u
  nearest : u.toBinary64.IsNearest p
  isZero : u.toBinary64.isZero = true ↔ p = 0
  negativeZero : u.toBinary64 = .zero true ↔ a = .negativeZero

theorem exists_standsFor (h : a.IsNumber p) : ∃ u : Numeric, u.StandsFor a p := by
  cases h with
  | @int n hleast hmost =>
      have hsize : n.natAbs ≤ 2 ^ 64 := by
        have hlower : -2 ^ 63 ≤ n := hleast
        omega
      have hfloat : (if Fits n then int n else float (.ofInt n)).toBinary64 = .ofInt n := by
        split <;> rfl
      have hzero := Binary64.isZero_ofInt hsize
      refine ⟨if Fits n then .int n else .float (.ofInt n), rfl, ?_, ?_, ?_⟩
      · rw [hfloat]
        exact Binary64.isNearest_ofInt hsize
      · rw [hfloat, hzero, Int.cast_eq_zero]
      · rw [hfloat]
        refine ⟨fun heq ↦ ?_, nofun⟩
        have hsign := (Binary64.ofInt_eq hsize).1
        rw [heq] at hsign hzero
        have hneg : n < 0 := of_decide_eq_true hsign.symm
        have hn : n = 0 := hzero.mp rfl
        omega
  | float x =>
      refine ⟨.float x, rfl, x.isNearest_value, Binary64.value_eq_zero.symm, ?_⟩
      rw [Value.float.injEq]
      rfl

theorem StandsFor.of_integral (hu : u.StandsFor a p) (ha : a.IsNumber p) (h : a.Integral) :
    ∃ n : Int, u = int n ∧ p = n := by
  obtain ⟨n, rfl, hfits⟩ := h
  cases ha
  have hof := hu.of?
  rw [of?_int hfits] at hof
  exact ⟨n, (Option.some.inj hof).symm, rfl⟩

theorem StandsFor.integral {n : Int} (hu : (int n).StandsFor a p) (ha : a.IsNumber p) :
    a.Integral := by
  have hof := hu.of?
  cases ha with
  | @int m hleast hmost =>
      by_cases hfits : Fits m
      · exact ⟨m, rfl, hfits⟩
      · rw [Numeric.of?, if_neg hfits] at hof
        cases hof
  | float x => cases hof

/-- Numbers are ordered as floats unless both are integers. -/
theorem order_toBinary64 (h : ¬ ((∃ m, u = int m) ∧ ∃ n, v = int n)) :
    u.order v = u.toBinary64.order v.toBinary64 := by
  cases u with
  | int m =>
      cases v with
      | int n => exact absurd ⟨⟨m, rfl⟩, n, rfl⟩ h
      | float y => rfl
  | float x => cases v <;> rfl

/-- Numbers that are ordered as equal are the same float. -/
theorem toBinary64_eq_of_order (h : u.order v = .eq) : u.toBinary64 = v.toBinary64 := by
  by_cases hint : (∃ m, u = int m) ∧ ∃ n, v = int n
  · obtain ⟨⟨m, rfl⟩, n, rfl⟩ := hint
    rw [show m = n from compare_eq_iff_eq.mp h]
  · rw [order_toBinary64 hint] at h
    exact Binary64.key_inj (compare_eq_iff_eq.mp h)

/-- The floats that stand for numbers are ordered like them. -/
theorem StandsFor.value_le (hu : u.StandsFor a p) (hv : v.StandsFor b q) (ha : a.IsNumber p)
    (hb : b.IsNumber q) (h : p ≤ q) : u.toBinary64.value ≤ v.toBinary64.value := by
  rcases lt_or_eq_of_le h with hlt | rfl
  · exact hu.nearest.value_le hv.nearest hlt
  · by_cases hp : IsBinary64 p
    · rw [hu.nearest.value_eq_of hp, hv.nearest.value_eq_of hp]
    · cases ha with
      | float x => exact absurd ⟨x, rfl⟩ hp
      | @int m hleast hmost =>
          generalize hn : (m : ℚ) = n at hb
          cases hb with
          | float x => exact absurd ⟨x, hn.symm⟩ hp
          | int hleast hmost =>
              obtain rfl := Int.cast_inj.mp hn
              rw [Option.some.inj (hu.of?.symm.trans hv.of?)]

end Numeric

/-! ### Comparisons -/

namespace Comparison

open Value (negativeZero)

variable {u v : Numeric} {a b c : Value} {p q r : ℚ}

/-- The comparison of two numbers. -/
def relates (op : Comparison) (p q : ℚ) : Bool :=
  match op with
  | ne => p ≠ q
  | eq => p = q
  | ge => p ≥ q
  | le => p ≤ q
  | gt => p > q
  | lt => p < q

/-- What a comparison says of an order of two numbers is what it says of the numbers. -/
theorem holds_eq_relates {o : Ordering} (op : Comparison) (h : o.Compares p q) :
    op.holds o = op.relates p q := by
  rw [Bool.eq_iff_iff]
  cases op with
  | ne => simpa [holds, relates] using not_congr h.eq_eq
  | eq => simpa [holds, relates] using h.eq_eq
  | ge => simpa [holds, relates] using h.ne_lt
  | le => simpa [holds, relates] using h.ne_gt
  | gt => simpa [holds, relates] using h.eq_gt
  | lt => simpa [holds, relates] using h.eq_lt

/-- Numbers that stand in some order are compared by it. -/
theorem apply_of_compares (op : Comparison) (hu : u.StandsFor a p) (hv : v.StandsFor b q)
    {s t : ℚ} (h : (u.order v).Compares s t) : op.apply a b = .ok (op.relates s t) := by
  rw [apply_of_order? op (Value.order?_of_numeric hu.of? hv.of?), holds_eq_relates op h]

/-- The order of integers is that of the numbers. -/
theorem compare_compares (m n : Int) : (compare m n).Compares (m : ℚ) n := by
  rcases lt_trichotomy m n with hlt | heq | hgt
  · rw [compare_lt_iff_lt.mpr hlt]
    exact Int.cast_lt.mpr hlt
  · rw [compare_eq_iff_eq.mpr heq]
    exact Int.cast_inj.mpr heq
  · rw [compare_gt_iff_gt.mpr hgt]
    exact Int.cast_lt.mpr hgt

/-- Integers of 64 bits with a sign are compared exactly. -/
theorem apply_integral (op : Comparison) (ha : a.IsNumber p) (hb : b.IsNumber q)
    (hai : a.Integral) (hbi : b.Integral) : op.apply a b = .ok (op.relates p q) := by
  obtain ⟨u, hu⟩ := Numeric.exists_standsFor ha
  obtain ⟨v, hv⟩ := Numeric.exists_standsFor hb
  obtain ⟨m, rfl, rfl⟩ := hu.of_integral ha hai
  obtain ⟨n, rfl, rfl⟩ := hv.of_integral hb hbi
  exact apply_of_compares op hu hv (compare_compares m n)

/-- Other numbers are compared by the floats that stand for them. -/
theorem apply_floats (op : Comparison) (hu : u.StandsFor a p) (hv : v.StandsFor b q)
    (ha : a.IsNumber p) (hb : b.IsNumber q) (hzero : a.AgreeOnZero b)
    (hint : ¬ (a.Integral ∧ b.Integral)) :
    op.apply a b = .ok (op.relates u.toBinary64.value v.toBinary64.value) := by
  refine apply_of_compares op hu hv ?_
  rw [Numeric.order_toBinary64]
  · refine Binary64.order_compares fun hx hy ↦ ?_
    obtain rfl := hu.isZero.mp hx
    obtain rfl := hv.isZero.mp hy
    rw [Bool.eq_iff_iff, Binary64.negative_iff hx, Binary64.negative_iff hy, hu.negativeZero,
      hv.negativeZero]
    exact hzero ha hb
  · rintro ⟨⟨m, rfl⟩, n, rfl⟩
    exact hint ⟨hu.integral ha, hv.integral hb⟩

/-- Floats are compared exactly, whether they are written as floats or as integers. -/
theorem apply_exact (op : Comparison) (ha : a.IsNumber p) (hb : b.IsNumber q)
    (hzero : a.AgreeOnZero b) (hp : IsBinary64 p) (hq : IsBinary64 q) :
    op.apply a b = .ok (op.relates p q) := by
  by_cases hint : a.Integral ∧ b.Integral
  · exact apply_integral op ha hb hint.1 hint.2
  · obtain ⟨u, hu⟩ := Numeric.exists_standsFor ha
    obtain ⟨v, hv⟩ := Numeric.exists_standsFor hb
    rw [apply_floats op hu hv ha hb hzero hint, hu.nearest.value_eq_of hp,
      hv.nearest.value_eq_of hq]

/-- What is not above another number is found not to be above it. -/
theorem apply_le (ha : a.IsNumber p) (hb : b.IsNumber q) (hzero : a.AgreeOnZero b) (h : p ≤ q) :
    le.apply a b = .ok true := by
  by_cases hint : a.Integral ∧ b.Integral
  · rw [apply_integral le ha hb hint.1 hint.2, relates, decide_eq_true h]
  · obtain ⟨u, hu⟩ := Numeric.exists_standsFor ha
    obtain ⟨v, hv⟩ := Numeric.exists_standsFor hb
    rw [apply_floats le hu hv ha hb hzero hint, relates, decide_eq_true (hu.value_le hv ha hb h)]

/-- Where numbers are compared exactly they are equal if they are the same number, and both or none
of them are the zero with a sign. -/
theorem apply_eq_iff (ha : a.IsNumber p) (hb : b.IsNumber q)
    (hexact : a.Integral ∧ b.Integral ∨ IsBinary64 p ∧ IsBinary64 q) :
    eq.apply a b = .ok true ↔ p = q ∧ (a = negativeZero ↔ b = negativeZero) := by
  constructor
  · intro h
    obtain ⟨u, hu⟩ := Numeric.exists_standsFor ha
    obtain ⟨v, hv⟩ := Numeric.exists_standsFor hb
    have horder : u.order v = .eq := by
      rw [apply_of_order? eq (Value.order?_of_numeric hu.of? hv.of?)] at h
      exact eq_of_beq (Except.ok.inj h)
    have hfloats := Numeric.toBinary64_eq_of_order horder
    refine ⟨?_, by rw [← hu.negativeZero, ← hv.negativeZero, hfloats]⟩
    rcases hexact with ⟨hai, hbi⟩ | ⟨hp, hq⟩
    · obtain ⟨m, rfl, rfl⟩ := hu.of_integral ha hai
      obtain ⟨n, rfl, rfl⟩ := hv.of_integral hb hbi
      exact Int.cast_inj.mpr (compare_eq_iff_eq.mp horder)
    · rw [← hu.nearest.value_eq_of hp, hfloats, hv.nearest.value_eq_of hq]
  · rintro ⟨rfl, hsign⟩
    have hrelates : eq.relates p p = true := decide_eq_true rfl
    rw [← hrelates]
    rcases hexact with ⟨hai, hbi⟩ | ⟨hp, -⟩
    · exact apply_integral eq ha hb hai hbi
    · exact apply_exact eq ha hb (fun _ _ ↦ hsign) hp hp

/-- A number other than the zero with a sign is found to differ from zero if it does. -/
theorem apply_ne_zero (ha : a.IsNumber p) (hsign : a ≠ negativeZero) :
    ne.apply a (.int 0) = .ok true ↔ p ≠ 0 := by
  have hb : (Value.int 0).IsNumber ((0 : Int) : ℚ) := .int (by decide) (by decide)
  have hzero : a.AgreeOnZero (.int 0) := fun _ _ ↦ iff_of_false hsign nofun
  by_cases hint : a.Integral ∧ (Value.int 0).Integral
  · rw [apply_integral ne ha hb hint.1 hint.2, Int.cast_zero]
    simp [relates]
  · obtain ⟨u, hu⟩ := Numeric.exists_standsFor ha
    obtain ⟨v, hv⟩ := Numeric.exists_standsFor hb
    have huzero : u.toBinary64.value = 0 ↔ p = 0 := Binary64.value_eq_zero.trans hu.isZero
    have hvzero : v.toBinary64.value = 0 := Binary64.value_eq_zero.mpr (hv.isZero.mpr Int.cast_zero)
    rw [apply_floats ne hu hv ha hb hzero hint, hvzero]
    simp [relates, huzero]

/-- Integers of 64 bits with a sign are compared exactly, and other numbers by the nearest floats.
That is exact where both numbers are floats, as small integers are, and it never puts a number above
one that it is not above. Where comparisons are exact, equality is transitive. A number is true if it
is not zero. -/
theorem compares_nearest {a b c : Value} {p q r : ℚ} (ha : a.IsNumber p) (hb : b.IsNumber q)
    (hc : c.IsNumber r) :
    (a.AgreeOnZero b →
      (a.Integral → b.Integral → ∀ op : Comparison, op.apply a b = .ok (op.relates p q)) ∧
      (¬ (a.Integral ∧ b.Integral) → ∃ x y : Binary64, x.IsNearest p ∧ y.IsNearest q ∧
        ∀ op : Comparison, op.apply a b = .ok (op.relates x.value y.value)) ∧
      (IsBinary64 p → IsBinary64 q → ∀ op : Comparison, op.apply a b = .ok (op.relates p q)) ∧
      (p ≤ q → le.apply a b = .ok true)) ∧
    (a.Integral ∧ b.Integral ∧ c.Integral ∨ IsBinary64 p ∧ IsBinary64 q ∧ IsBinary64 r →
      eq.apply a b = .ok true → eq.apply b c = .ok true → eq.apply a c = .ok true) ∧
    (a.truthy = true ↔ p ≠ 0) ∧
    (a ≠ negativeZero → (a.truthy = true ↔ ne.apply a (.int 0) = .ok true)) ∧
    ∀ n : Int, n.natAbs ≤ 2 ^ 53 → IsBinary64 n := by
  refine ⟨fun hzero ↦ ⟨?_, ?_, ?_, ?_⟩, ?_, Value.truthy_iff ha, ?_, ?_⟩
  · exact fun hai hbi op ↦ apply_integral op ha hb hai hbi
  · intro hint
    obtain ⟨u, hu⟩ := Numeric.exists_standsFor ha
    obtain ⟨v, hv⟩ := Numeric.exists_standsFor hb
    exact ⟨_, _, hu.nearest, hv.nearest, fun op ↦ apply_floats op hu hv ha hb hzero hint⟩
  · exact fun hp hq op ↦ apply_exact op ha hb hzero hp hq
  · exact apply_le ha hb hzero
  · intro hexact hab hbc
    rw [apply_eq_iff ha hb (hexact.imp (fun h ↦ ⟨h.1, h.2.1⟩) fun h ↦ ⟨h.1, h.2.1⟩)] at hab
    rw [apply_eq_iff hb hc (hexact.imp (fun h ↦ h.2) fun h ↦ h.2)] at hbc
    rw [apply_eq_iff ha hc (hexact.imp (fun h ↦ ⟨h.1, h.2.2⟩) fun h ↦ ⟨h.1, h.2.2⟩)]
    exact ⟨hab.1.trans hbc.1, hab.2.trans hbc.2⟩
  · exact fun hsign ↦ (Value.truthy_iff ha).trans (apply_ne_zero ha hsign).symm
  · exact fun n hn ↦ ⟨_, Binary64.value_ofInt hn⟩

/-- An integer and a float on both sides of zero, and the integer that the float is. -/
theorem compares_nearest_mixed :
    let a : Value := .int (-2)
    let b : Value := .float (.ofInt 3)
    let c : Value := .int 3
    (a.IsNumber (-2) ∧ b.IsNumber 3 ∧ c.IsNumber 3) ∧
      (∀ op : Comparison, op.apply a b = .ok (op.relates (-2) 3)) ∧ a.truthy = true ∧
      ∀ op : Comparison, op.apply b c = .ok (op.relates 3 3) := by
  intro a b c
  have hvalue : (Binary64.ofInt 3).value = 3 := Binary64.value_ofInt (by decide)
  have ha : a.IsNumber (-2) := .int (by decide) (by decide)
  have hb : b.IsNumber 3 := hvalue ▸ .float _
  have hc : c.IsNumber 3 := .int (by decide) (by decide)
  have htwo : IsBinary64 (-2) := ⟨_, Binary64.value_ofInt (n := -2) (by decide)⟩
  have hthree : IsBinary64 3 := ⟨_, hvalue⟩
  obtain ⟨hab, -, htruthy, -, -⟩ := compares_nearest ha hb hc
  obtain ⟨hbc, -, -, -, -⟩ := compares_nearest hb hc ha
  have hsign : b ≠ negativeZero := by decide +kernel
  have habZero : a.AgreeOnZero b := fun _ _ ↦ iff_of_false nofun hsign
  have hbcZero : b.AgreeOnZero c := fun _ _ ↦ iff_of_false hsign nofun
  exact ⟨⟨ha, hb, hc⟩, (hab habZero).2.2.1 htwo hthree, htruthy.mpr (by decide),
    (hbc hbcZero).2.2.1 hthree hthree⟩

/-- The integer after `2 ^ 53` is found to be equal to the float `2 ^ 53`. -/
theorem compares_nearest_above :
    let a : Value := .int (2 ^ 53 + 1)
    let b : Value := .float (.ofInt (2 ^ 53))
    a.IsNumber (2 ^ 53 + 1) ∧ b.IsNumber (2 ^ 53) ∧ eq.apply a b = .ok true ∧
      eq.relates (2 ^ 53 + 1) (2 ^ 53) = false := by
  intro a b
  have hvalue : (Binary64.ofInt (2 ^ 53)).value = 2 ^ 53 := Binary64.value_ofInt (by decide)
  have ha : a.IsNumber ((2 ^ 53 + 1 : Int) : ℚ) := .int (by decide) (by decide)
  rw [Int.cast_add, Int.cast_pow, Int.cast_ofNat, Int.cast_one] at ha
  exact ⟨ha, hvalue ▸ .float _, by decide +kernel, decide_eq_false (by norm_num)⟩

end Comparison

end Chronicle

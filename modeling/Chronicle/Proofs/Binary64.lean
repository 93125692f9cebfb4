import Chronicle.Binary64
import Mathlib.Algebra.Group.Nat.Defs

/-!
# Rounding

What `nearest` and the operations built on it do to numbers of particular kinds.
-/

namespace Chronicle.Binary64

/-- The exponent can be a variable, so that nothing tries to compute the power. -/
theorem unitsPerOne_eq : ∃ n, n = 1074 ∧ unitsPerOne = 2 ^ n := by
  unfold unitsPerOne
  generalize 1074 = n
  exact ⟨n, rfl, rfl⟩

theorem unitsPerOne_pos : 0 < unitsPerOne := by
  obtain ⟨n, _, hunits⟩ := unitsPerOne_eq
  rw [hunits]
  exact Nat.two_pow_pos n

/-- A fraction stands for the same number when both its parts are multiplied. -/
theorem nearest_mul (num : Nat) {den factor : Nat} (hfactor : 0 < factor) :
    nearest (num * factor) (den * factor) = nearest num den := by
  have hstep : ∀ s, den * factor * 2 ^ s = den * 2 ^ s * factor := fun s ↦ by
    rw [Nat.mul_right_comm]
  simp only [nearest, Nat.mul_div_mul_right _ _ hfactor, hstep, Nat.mul_mod_mul_right]
  have hless : ∀ a b : Nat, 2 * (a * factor) < b * factor ↔ 2 * a < b := by
    intro a b
    rw [← Nat.mul_assoc, Nat.mul_lt_mul_right hfactor]
  have hequal : ∀ a b : Nat, 2 * (a * factor) = b * factor ↔ 2 * a = b := by
    intro a b
    rw [← Nat.mul_assoc, Nat.mul_left_inj (Nat.ne_of_gt hfactor)]
  simp only [hless, hequal]

/-- Equal fractions are rounded to the same number. -/
theorem nearest_congr {num den num' den' : Nat} (hden : 0 < den) (hden' : 0 < den')
    (h : num * den' = num' * den) : nearest num den = nearest num' den' := by
  rw [← nearest_mul num hden', h, Nat.mul_comm den den', nearest_mul num' hden]

/-- Rounding goes to the place below a fraction or to the next. -/
theorem place_le_nearest (num den : Nat) :
    ((num / den).log2 - 52) * 2 ^ 52 + num / (den * 2 ^ ((num / den).log2 - 52)) ≤
      nearest num den := by
  simp only [nearest]
  split
  · exact Nat.le_refl _
  · exact Nat.le_succ _

/-- The leading power of two of a fraction that is at least one unit. -/
theorem mul_two_pow_log2_le {num den : Nat} (hden : 0 < den) (h : den ≤ num) :
    den * 2 ^ (num / den).log2 ≤ num := by
  have hquot : num / den ≠ 0 := Nat.ne_of_gt (Nat.div_pos h hden)
  calc den * 2 ^ (num / den).log2
      ≤ den * (num / den) := Nat.mul_le_mul_left _ (Nat.log2_self_le hquot)
    _ ≤ num := Nat.mul_div_le num den

/-- A fraction of at least `2 ^ k` units is rounded at least to the place of `2 ^ k` units. -/
theorem le_nearest {num den k : Nat} (hden : 0 < den) (hk : 52 ≤ k) (h : den * 2 ^ k ≤ num) :
    (k - 51) * 2 ^ 52 ≤ nearest num den := by
  have hle : den ≤ num := Nat.le_trans (Nat.le_mul_of_pos_right den (Nat.two_pow_pos k)) h
  have hquot : 2 ^ k ≤ num / den := (Nat.le_div_iff_mul_le hden).mpr (by rwa [Nat.mul_comm])
  have hlog : k ≤ (num / den).log2 :=
    (Nat.le_log2 (Nat.ne_of_gt (Nat.div_pos hle hden))).mpr hquot
  have hplace : 2 ^ 52 ≤ num / (den * 2 ^ ((num / den).log2 - 52)) := by
    refine (Nat.le_div_iff_mul_le (Nat.mul_pos hden (Nat.two_pow_pos _))).mpr ?_
    rw [Nat.mul_comm, Nat.mul_assoc, ← Nat.pow_add, Nat.sub_add_cancel (by omega)]
    exact mul_two_pow_log2_le hden hle
  calc (k - 51) * 2 ^ 52
      = (k - 52) * 2 ^ 52 + 2 ^ 52 := by
        rw [← Nat.succ_mul]
        congr 1
        omega
    _ ≤ _ := Nat.add_le_add (Nat.mul_le_mul_right _ (by omega)) hplace
    _ ≤ nearest num den := place_le_nearest num den

/-- Less than half a unit is rounded to zero. -/
theorem nearest_eq_zero {num den : Nat} (h : 2 * num < den) : nearest num den = 0 := by
  have hquot : num / den = 0 := Nat.div_eq_of_lt (by omega)
  have hmod : num % den = num := Nat.mod_eq_of_lt (by omega)
  have hlog : (0 : Nat).log2 = 0 := by decide
  simp only [nearest, hquot, hlog, Nat.zero_sub, Nat.pow_zero, Nat.mul_one, hmod]
  rw [if_pos (Or.inl h), Nat.zero_mul]

/-- A fraction that is at least one unit is not rounded to zero. -/
theorem nearest_pos {num den : Nat} (hden : 0 < den) (h : den ≤ num) : 0 < nearest num den := by
  have hstep : den * 2 ^ ((num / den).log2 - 52) ≤ num := by
    refine Nat.le_trans (Nat.mul_le_mul_left _ ?_) (mul_two_pow_log2_le hden h)
    exact Nat.pow_le_pow_right (by omega) (Nat.sub_le _ _)
  have hplace : 0 < num / (den * 2 ^ ((num / den).log2 - 52)) :=
    Nat.div_pos hstep (Nat.mul_pos hden (Nat.two_pow_pos _))
  exact Nat.lt_of_lt_of_le (Nat.lt_of_lt_of_le hplace (Nat.le_add_left _ _))
    (place_le_nearest num den)

/-- A significand of at most 53 bits is kept, with all its bits used unless the step is one unit. -/
theorem nearest_significand {significand spacing : Nat} (hlt : significand < 2 ^ 53)
    (hfull : 2 ^ 52 ≤ significand ∨ spacing = 0) :
    nearest (significand * 2 ^ spacing) 1 = spacing * 2 ^ 52 + significand := by
  have hspacing : (significand * 2 ^ spacing / 1).log2 - 52 = spacing := by
    rw [Nat.div_one]
    rcases hfull with hfull | hzero
    · have hlog : (significand * 2 ^ spacing).log2 = 52 + spacing := by
        have hpos : significand * 2 ^ spacing ≠ 0 :=
          Nat.ne_of_gt (Nat.mul_pos (by omega) (Nat.two_pow_pos spacing))
        refine (Nat.log2_eq_iff hpos).mpr ⟨?_, ?_⟩
        · rw [Nat.pow_add]
          exact Nat.mul_le_mul_right _ hfull
        · rw [Nat.add_right_comm, Nat.pow_add]
          exact Nat.mul_lt_mul_of_pos_right hlt (Nat.two_pow_pos spacing)
      omega
    · subst hzero
      rw [Nat.pow_zero, Nat.mul_one]
      by_cases hpos : significand = 0
      · subst hpos
        decide
      · have hlog := (Nat.log2_lt hpos).mpr hlt
        omega
  have hstep : 0 < 2 ^ spacing := Nat.two_pow_pos spacing
  simp only [nearest, hspacing, Nat.one_mul, Nat.mul_div_cancel _ hstep, Nat.mul_mod_left]
  rw [if_pos (Or.inl (by omega))]

/-- A magnitude is nearest to itself. -/
theorem nearest_units (x : Binary64) : nearest x.units 1 = x.magnitude.val := by
  have hdiv := Nat.div_mul_le_self x.magnitude.val (2 ^ 52)
  have hmod := Nat.lt_div_mul_add (a := x.magnitude.val) (show 0 < 2 ^ 52 by decide)
  rw [units, nearest_significand]
  · omega
  · omega
  · omega

/-- Equal fractions are the same number. -/
theorem ofUnits_congr (negative : Bool) {num den num' den' : Nat} (hden : 0 < den)
    (hden' : 0 < den') (h : num * den' = num' * den) :
    ofUnits negative num den = ofUnits negative num' den' := by
  simp only [ofUnits, nearest_congr hden hden' h]

/-- A number is nearest to itself. -/
theorem ofUnits_units (x : Binary64) : ofUnits x.negative x.units 1 = some x := by
  simp only [ofUnits, nearest_units]
  rw [dif_pos x.magnitude.isLt]

/-- Less than half a unit is zero. -/
theorem ofUnits_eq_zero (negative : Bool) {num den : Nat} (h : 2 * num < den) :
    ofUnits negative num den = some (zero negative) := by
  simp only [ofUnits, nearest_eq_zero h]
  rfl

/-- What is at least `2 ^ 1024` is out of range. -/
theorem ofUnits_eq_none (negative : Bool) {num den : Nat} (hden : 0 < den)
    (h : den * 2 ^ 2098 ≤ num) : ofUnits negative num den = none := by
  have hplaces := le_nearest hden (by decide) h
  rw [ofUnits, dif_neg (Nat.not_lt.mpr hplaces)]

/-- The integer zero is the float zero. -/
theorem ofInt_zero : ofInt 0 = zero false := by
  simp only [ofInt, Int.natAbs_zero, Nat.zero_mul]
  rw [ofUnits_eq_zero _ (by decide)]
  rfl

/-- Integers above zero are floats above zero. -/
theorem key_ofInt_pos {n : Int} (h : 0 < n) : 0 < (ofInt n).key := by
  have hsign : ¬ n < 0 := by omega
  have hunits : 1 ≤ n.natAbs * unitsPerOne := Nat.mul_pos (by omega) unitsPerOne_pos
  simp only [ofInt, ofUnits, hsign, decide_false]
  split
  · show 0 < (nearest (n.natAbs * unitsPerOne) 1 : Int)
    exact Int.natCast_pos.mpr (nearest_pos Nat.one_pos hunits)
  · show 0 < ((places - 1 : Nat) : Int)
    decide

end Chronicle.Binary64

import Chronicle.Proofs.Binary64
import Mathlib.Algebra.Order.Field.Basic
import Mathlib.Algebra.Order.Field.Rat
import Mathlib.Order.Compare
import Mathlib.Order.Monotone.Basic
import Mathlib.Tactic.Linarith

/-!
# Floats as numbers

A float is a rational number, `value`. The magnitudes increase from place to place, so floats are
ordered as these numbers except that `-0` precedes `0`: `order_compares`. An integer becomes the
nearest float, and a tie goes to the even place: `isNearest_ofInt`.
-/

namespace Chronicle.Binary64

variable {x y : Binary64} {num place significand spacing : Nat} {n : Int} {p q : ℚ}

/-! ### Magnitudes -/

/-- The magnitude of a place in units of `2 ^ -1074`. -/
def unitsAt (place : Nat) : Nat :=
  (place - (place / 2 ^ 52 - 1) * 2 ^ 52) * 2 ^ (place / 2 ^ 52 - 1)

theorem units_eq (x : Binary64) : x.units = unitsAt x.magnitude.val := rfl

theorem unitsAt_zero : unitsAt 0 = 0 := rfl

/-- The places of one spacing, and the first place of the next. -/
theorem unitsAt_eq (hle : significand ≤ 2 ^ 53) (hfull : 2 ^ 52 ≤ significand ∨ spacing = 0) :
    unitsAt (spacing * 2 ^ 52 + significand) = significand * 2 ^ spacing := by
  by_cases hnext : significand = 2 ^ 53
  · have hspacing : (spacing * 2 ^ 52 + significand) / 2 ^ 52 - 1 = spacing + 1 := by omega
    have hplace : spacing * 2 ^ 52 + significand - (spacing + 1) * 2 ^ 52 = 2 ^ 52 := by omega
    rw [unitsAt, hspacing, hplace, hnext, Nat.pow_succ']
    omega
  · have hspacing : (spacing * 2 ^ 52 + significand) / 2 ^ 52 - 1 = spacing := by omega
    rw [unitsAt, hspacing, Nat.add_sub_cancel_left]

/-- Every place is one of some spacing. -/
theorem exists_spacing (place : Nat) :
    ∃ spacing significand, place = spacing * 2 ^ 52 + significand ∧ significand < 2 ^ 53 ∧
      (2 ^ 52 ≤ significand ∨ spacing = 0) :=
  ⟨place / 2 ^ 52 - 1, place - (place / 2 ^ 52 - 1) * 2 ^ 52, by omega, by omega, by omega⟩

/-- Magnitudes increase from place to place. -/
theorem unitsAt_strictMono : StrictMono unitsAt := by
  refine strictMono_nat_of_lt_succ fun place ↦ ?_
  obtain ⟨spacing, significand, rfl, hlt, hfull⟩ := exists_spacing place
  have hnext : unitsAt (spacing * 2 ^ 52 + (significand + 1)) = (significand + 1) * 2 ^ spacing :=
    unitsAt_eq hlt (hfull.imp_left Nat.le_succ_of_le)
  rw [unitsAt_eq (Nat.le_of_lt hlt) hfull, Nat.add_assoc, hnext]
  exact Nat.mul_lt_mul_of_pos_right (Nat.lt_succ_self _) (Nat.two_pow_pos spacing)

theorem unitsAt_eq_zero : unitsAt place = 0 ↔ place = 0 :=
  unitsAt_strictMono.injective.eq_iff' unitsAt_zero

/-- A significand of at most 53 bits times a power of two is a magnitude. -/
theorem exists_unitsAt (h : significand ≤ 2 ^ 53) :
    ∃ place, unitsAt place = significand * 2 ^ spacing := by
  induction spacing generalizing significand with
  | zero =>
      refine ⟨0 * 2 ^ 52 + significand, ?_⟩
      exact unitsAt_eq h (.inr rfl)
  | succ spacing ih =>
      by_cases hfull : 2 ^ 52 ≤ significand
      · exact ⟨_, unitsAt_eq h (.inl hfull)⟩
      · have hdouble : significand * 2 ≤ 2 ^ 53 := by omega
        obtain ⟨place, hplace⟩ := ih hdouble
        exact ⟨place, by rw [hplace, Nat.pow_succ', Nat.mul_assoc]⟩

/-! ### The nearest magnitude -/

/-- Rounding cuts a magnitude to a significand of 53 bits, and looks at the rest. -/
theorem exists_rest (num : Nat) :
    ∃ spacing significand rest, num = significand * 2 ^ spacing + rest ∧ rest < 2 ^ spacing ∧
      significand < 2 ^ 53 ∧ (2 ^ 52 ≤ significand ∨ spacing = 0) ∧
      nearest num 1 =
        if 2 * rest < 2 ^ spacing ∨
            (2 * rest = 2 ^ spacing ∧ (spacing * 2 ^ 52 + significand) % 2 = 0) then
          spacing * 2 ^ 52 + significand
        else spacing * 2 ^ 52 + significand + 1 := by
  have hpos := Nat.two_pow_pos (num.log2 - 52)
  refine ⟨num.log2 - 52, num / 2 ^ (num.log2 - 52), num % 2 ^ (num.log2 - 52),
    (Nat.div_add_mod' _ _).symm, Nat.mod_lt _ hpos, ?_, ?_, ?_⟩
  · rw [Nat.div_lt_iff_lt_mul hpos, ← Nat.pow_add]
    refine Nat.lt_of_lt_of_le Nat.lt_log2_self (Nat.pow_le_pow_right (by decide) ?_)
    omega
  · by_cases hspacing : num.log2 - 52 = 0
    · exact .inr hspacing
    · left
      have hnum : num ≠ 0 := by
        rintro rfl
        exact hspacing (by decide)
      rw [Nat.le_div_iff_mul_le hpos, ← Nat.pow_add, show 52 + (num.log2 - 52) = num.log2 by omega]
      exact Nat.log2_self_le hnum
  · simp only [nearest, Nat.div_one, Nat.one_mul]

/-- Rounding is down to the place below or up to the next one, whichever is nearer, and to the even
one if none is. -/
theorem nearest_between (num : Nat) :
    ∃ place, unitsAt place ≤ num ∧ num < unitsAt (place + 1) ∧
      (nearest num 1 = place ∧
          (2 * num < unitsAt place + unitsAt (place + 1) ∨
            2 * num = unitsAt place + unitsAt (place + 1) ∧ place % 2 = 0) ∨
        nearest num 1 = place + 1 ∧
          (unitsAt place + unitsAt (place + 1) < 2 * num ∨
            2 * num = unitsAt place + unitsAt (place + 1) ∧ place % 2 = 1)) := by
  obtain ⟨spacing, significand, rest, hnum, hrest, hlt, hfull, hnearest⟩ := exists_rest num
  have hthis := unitsAt_eq (Nat.le_of_lt hlt) hfull
  have hnext : unitsAt (spacing * 2 ^ 52 + (significand + 1)) = (significand + 1) * 2 ^ spacing :=
    unitsAt_eq hlt (hfull.imp_left Nat.le_succ_of_le)
  rw [← Nat.add_assoc, Nat.add_mul, Nat.one_mul] at hnext
  refine ⟨spacing * 2 ^ 52 + significand, by omega, by omega, ?_⟩
  split at hnearest
  · left
    refine ⟨hnearest, ?_⟩
    omega
  · right
    refine ⟨hnearest, ?_⟩
    omega

/-- No place is nearer. -/
theorem nearest_closest (num place : Nat) :
    ((unitsAt (nearest num 1) : Int) - num).natAbs ≤ ((unitsAt place : Int) - num).natAbs := by
  obtain ⟨below, hlow, hhigh, hnearest⟩ := nearest_between num
  have hplaces : unitsAt place ≤ unitsAt below ∨ unitsAt (below + 1) ≤ unitsAt place := by
    rcases Nat.lt_or_ge below place with hlt | hge
    · exact .inr (unitsAt_strictMono.monotone hlt)
    · exact .inl (unitsAt_strictMono.monotone hge)
  rcases hnearest with ⟨heq, hside⟩ | ⟨heq, hside⟩
  · rw [heq]
    omega
  · rw [heq]
    omega

/-- If another place is as near, rounding is to the even one. -/
theorem nearest_even (hne : place ≠ nearest num 1)
    (h : ((unitsAt (nearest num 1) : Int) - num).natAbs = ((unitsAt place : Int) - num).natAbs) :
    nearest num 1 % 2 = 0 := by
  obtain ⟨below, hlow, hhigh, hnearest⟩ := nearest_between num
  rcases hnearest with ⟨heq, hside⟩ | ⟨heq, hside⟩
  · rw [heq] at h hne ⊢
    rcases Nat.lt_or_gt_of_ne hne with hlt | hgt
    · have hunits := unitsAt_strictMono hlt
      omega
    · have hunits := unitsAt_strictMono.monotone (show below + 1 ≤ place from hgt)
      omega
  · rw [heq] at h hne ⊢
    rcases Nat.lt_or_gt_of_ne hne with hlt | hgt
    · have hunits := unitsAt_strictMono.monotone (show place ≤ below from Nat.le_of_lt_succ hlt)
      omega
    · have hunits := unitsAt_strictMono hgt
      omega

/-- A magnitude is rounded to itself. -/
theorem unitsAt_nearest (h : unitsAt place = num) : unitsAt (nearest num 1) = num := by
  have hclosest := nearest_closest num place
  omega

/-- What is less than the largest magnitude is not rounded out of range. -/
theorem nearest_lt_places (h : num < unitsAt (places - 1)) : nearest num 1 < places := by
  obtain ⟨place, hlow, -, hnearest⟩ := nearest_between num
  have hplace : place < places - 1 := unitsAt_strictMono.lt_iff_lt.mp (Nat.lt_of_le_of_lt hlow h)
  omega

/-! ### Numbers -/

/-- The number that a float is. -/
def value (x : Binary64) : ℚ := x.scaled / (unitsPerOne : ℕ)

/-- The float is nearest to the number. If another one is as near, its place is even. -/
structure IsNearest (x : Binary64) (q : ℚ) : Prop where
  closest : ∀ y : Binary64, |x.value - q| ≤ |y.value - q|
  even : ∀ y : Binary64, |x.value - q| = |y.value - q| → x.value ≠ y.value →
    x.magnitude.val % 2 = 0

theorem scaled_of_nonneg (h : x.negative = false) : x.scaled = unitsAt x.magnitude.val := by
  rw [scaled, h, if_neg Bool.false_ne_true, units_eq]

theorem scaled_of_neg (h : x.negative = true) : x.scaled = -(unitsAt x.magnitude.val : Int) := by
  rw [scaled, if_pos h, units_eq]

theorem scaled_neg (x : Binary64) : x.neg.scaled = -x.scaled := by
  cases h : x.negative with
  | false => rw [scaled_of_nonneg h, scaled_of_neg (by rw [neg, h]; rfl)]; rfl
  | true => rw [scaled_of_neg h, scaled_of_nonneg (by rw [neg, h]; rfl), Int.neg_neg]; rfl

theorem unitsPerOne_pos' : (0 : ℚ) < (unitsPerOne : ℕ) := Nat.cast_pos.mpr unitsPerOne_pos

theorem value_lt_iff : x.value < y.value ↔ x.scaled < y.scaled := by
  rw [value, value, div_lt_div_iff_of_pos_right unitsPerOne_pos', Int.cast_lt]

theorem value_eq_iff : x.value = y.value ↔ x.scaled = y.scaled := by
  rw [value, value, div_left_inj' (ne_of_gt unitsPerOne_pos'), Int.cast_inj]

/-- The distance to an integer in units. -/
theorem abs_value_sub (x : Binary64) (n : Int) :
    |x.value - n| = ((x.scaled - n * unitsPerOne).natAbs : ℕ) / ((unitsPerOne : ℕ) : ℚ) := by
  have hpos := unitsPerOne_pos'
  rw [value]
  generalize unitsPerOne = one at *
  have hsub : (x.scaled : ℚ) / one - n = ((x.scaled - n * one : Int) : ℚ) / one := by
    rw [Int.cast_sub, Int.cast_mul, Int.cast_natCast, sub_div,
      mul_div_cancel_right₀ _ (ne_of_gt hpos)]
  rw [hsub, abs_div, abs_of_pos hpos, ← Int.cast_abs, Int.abs_eq_natAbs, Int.cast_natCast]

theorem abs_value_sub_le :
    |x.value - n| ≤ |y.value - n| ↔
      (x.scaled - n * unitsPerOne).natAbs ≤ (y.scaled - n * unitsPerOne).natAbs := by
  rw [abs_value_sub, abs_value_sub, div_le_div_iff_of_pos_right unitsPerOne_pos', Nat.cast_le]

theorem abs_value_sub_eq :
    |x.value - n| = |y.value - n| ↔
      (x.scaled - n * unitsPerOne).natAbs = (y.scaled - n * unitsPerOne).natAbs := by
  rw [abs_value_sub, abs_value_sub, div_left_inj' (ne_of_gt unitsPerOne_pos'), Nat.cast_inj]

/-- The nearest magnitude is also nearest among the floats of either sign. -/
theorem scaled_closest (num : Nat) (y : Binary64) :
    ((unitsAt (nearest num 1) : Int) - num).natAbs ≤ (y.scaled - num).natAbs := by
  cases h : y.negative with
  | false =>
      rw [scaled_of_nonneg h]
      exact nearest_closest num _
  | true =>
      have hzero := nearest_closest num 0
      rw [unitsAt_zero] at hzero
      rw [scaled_of_neg h]
      omega

theorem scaled_even (hne : (unitsAt (nearest num 1) : Int) ≠ y.scaled)
    (h : ((unitsAt (nearest num 1) : Int) - num).natAbs = (y.scaled - num).natAbs) :
    nearest num 1 % 2 = 0 := by
  cases hsign : y.negative with
  | false =>
      rw [scaled_of_nonneg hsign] at h hne
      refine nearest_even (fun heq ↦ hne ?_) h
      rw [heq]
  | true =>
      -- A negative float is no nearer than zero, which has an even place.
      have hzero := nearest_closest num 0
      rw [unitsAt_zero] at hzero
      rw [scaled_of_neg hsign] at h
      by_cases hplace : 0 = nearest num 1
      · omega
      · refine nearest_even hplace ?_
        rw [unitsAt_zero]
        omega

/-! ### Integers -/

/-- Integers of 64 bits are in range. -/
theorem nearest_natAbs_lt (h : n.natAbs ≤ 2 ^ 64) :
    nearest (n.natAbs * unitsPerOne) 1 < places := by
  obtain ⟨k, hk, hunits⟩ := unitsPerOne_eq
  have hlargest : unitsAt (places - 1) = (2 ^ 53 - 1) * 2 ^ (k + 971) := by
    rw [← unitsAt_eq (by decide) (.inl (by decide)), hk]
    rfl
  refine nearest_lt_places ?_
  calc n.natAbs * unitsPerOne
      ≤ 2 ^ 64 * unitsPerOne := Nat.mul_le_mul_right _ h
    _ = 2 ^ (64 + k) := by rw [hunits, Nat.pow_add]
    _ ≤ 2 ^ (k + 971) := Nat.pow_le_pow_right (by decide) (by omega)
    _ < (2 ^ 53 - 1) * 2 ^ (k + 971) := by
        have hpos := Nat.two_pow_pos (k + 971)
        omega
    _ = unitsAt (places - 1) := hlargest.symm

/-- An integer of 64 bits becomes a float of its sign and of the nearest magnitude. -/
theorem ofInt_eq (h : n.natAbs ≤ 2 ^ 64) :
    (ofInt n).negative = decide (n < 0) ∧
      (ofInt n).magnitude.val = nearest (n.natAbs * unitsPerOne) 1 := by
  rw [ofInt, ofUnits, dif_pos (nearest_natAbs_lt h)]
  exact ⟨rfl, rfl⟩

/-- The units of an integer. -/
theorem mul_unitsPerOne (n : Int) :
    n * unitsPerOne = if n < 0 then -((n.natAbs * unitsPerOne : ℕ) : Int)
      else (n.natAbs * unitsPerOne : ℕ) := by
  rw [Nat.cast_mul, ← Int.neg_mul]
  split
  · congr 1
    omega
  · congr 1
    omega

theorem scaled_ofInt (h : n.natAbs ≤ 2 ^ 64) :
    (ofInt n).scaled = if n < 0 then -(unitsAt (nearest (n.natAbs * unitsPerOne) 1) : Int)
      else unitsAt (nearest (n.natAbs * unitsPerOne) 1) := by
  obtain ⟨hsign, hplace⟩ := ofInt_eq h
  rw [scaled, units_eq, hsign, hplace]
  simp only [decide_eq_true_eq]

/-- An integer of 64 bits becomes the nearest float. -/
theorem isNearest_ofInt (h : n.natAbs ≤ 2 ^ 64) : (ofInt n).IsNearest n := by
  have hplace := (ofInt_eq h).2
  have hscaled := scaled_ofInt h
  have hunits := mul_unitsPerOne n
  by_cases hneg : n < 0
  · -- Below zero everything is turned around.
    have hturn : ∀ target z : Int, (z - -target).natAbs = (-z - target).natAbs := by
      intro target z
      omega
    rw [if_pos hneg] at hscaled hunits
    refine ⟨fun y ↦ ?_, fun y heq hne ↦ ?_⟩
    · rw [abs_value_sub_le, hscaled, hunits, hturn, hturn, Int.neg_neg, ← scaled_neg]
      exact scaled_closest _ y.neg
    · rw [abs_value_sub_eq, hscaled, hunits, hturn, hturn, Int.neg_neg, ← scaled_neg] at heq
      rw [ne_eq, value_eq_iff, hscaled, neg_eq_iff_eq_neg, ← scaled_neg] at hne
      rw [hplace]
      exact scaled_even hne heq
  · rw [if_neg hneg] at hscaled hunits
    refine ⟨fun y ↦ ?_, fun y heq hne ↦ ?_⟩
    · rw [abs_value_sub_le, hscaled, hunits]
      exact scaled_closest _ y
    · rw [abs_value_sub_eq, hscaled, hunits] at heq
      rw [ne_eq, value_eq_iff, hscaled] at hne
      rw [hplace]
      exact scaled_even hne heq

/-- Every integer of at most 53 bits is a float. -/
theorem value_ofInt (h : n.natAbs ≤ 2 ^ 53) : (ofInt n).value = n := by
  obtain ⟨k, -, hunits⟩ := unitsPerOne_eq
  have hmagnitude : ∃ place, unitsAt place = n.natAbs * 2 ^ k := exists_unitsAt h
  rw [← hunits] at hmagnitude
  obtain ⟨place, hplace⟩ := hmagnitude
  have hdistance : (ofInt n).scaled - n * unitsPerOne = 0 := by
    rw [scaled_ofInt (Nat.le_trans h (by decide)), mul_unitsPerOne, unitsAt_nearest hplace,
      Int.sub_self]
  rw [← sub_eq_zero, ← abs_eq_zero, abs_value_sub, hdistance, Int.natAbs_zero, Nat.cast_zero,
    zero_div]

theorem isZero_ofInt (h : n.natAbs ≤ 2 ^ 64) : (ofInt n).isZero = true ↔ n = 0 := by
  rw [isZero, beq_iff_eq, (ofInt_eq h).2]
  constructor
  · intro hplace
    by_contra hn
    have hunits : 1 ≤ n.natAbs * unitsPerOne := Nat.mul_pos (by omega) unitsPerOne_pos
    exact absurd hplace (Nat.ne_of_gt (nearest_pos Nat.one_pos hunits))
  · rintro rfl
    rw [Int.natAbs_zero, Nat.zero_mul, nearest_eq_zero (by decide)]

/-! ### Nearest floats -/

/-- A float that is the number is the nearest one. -/
theorem isNearest_value (x : Binary64) : x.IsNearest x.value :=
  ⟨fun y ↦ by rw [sub_self, abs_zero]; exact abs_nonneg _,
    fun y heq hne ↦ by
      rw [sub_self, abs_zero, eq_comm, abs_eq_zero, sub_eq_zero] at heq
      exact absurd heq.symm hne⟩

/-- What is nearest to a float is that number. -/
theorem IsNearest.value_eq (h : x.IsNearest y.value) : x.value = y.value := by
  have hclosest := h.closest y
  rw [sub_self, abs_zero] at hclosest
  exact sub_eq_zero.mp (abs_eq_zero.mp (le_antisymm hclosest (abs_nonneg _)))

/-- Rounding does not turn numbers around. -/
theorem IsNearest.value_le (hx : x.IsNearest p) (hy : y.IsNearest q) (h : p < q) :
    x.value ≤ y.value := by
  by_contra hlt
  rw [not_le] at hlt
  have hxy := hx.closest y
  have hyx := hy.closest x
  -- The first number is not below the middle between the floats, and the second not above it.
  have hp : x.value + y.value ≤ 2 * p := by
    rcases abs_cases (x.value - p) with hx | hx
    · rcases abs_cases (y.value - p) with hy | hy <;> linarith
    · linarith
  have hq : 2 * q ≤ x.value + y.value := by
    rcases abs_cases (y.value - q) with hy | hy
    · linarith
    · rcases abs_cases (x.value - q) with hx | hx <;> linarith
  linarith

/-! ### Order -/

theorem isZero_iff : x.isZero = true ↔ x.magnitude.val = 0 := beq_iff_eq

/-- There are two zeros, and the sign tells them apart. -/
theorem negative_iff (h : x.isZero = true) : x.negative = true ↔ x = zero true := by
  constructor
  · intro hsign
    cases x with
    | mk sign place => exact congrArg₂ mk hsign (Fin.ext (isZero_iff.mp h))
  · rintro rfl
    rfl

/-- Only the places of the two zeros have the value zero. -/
theorem value_eq_zero : x.value = 0 ↔ x.isZero = true := by
  have hscaled : x.scaled = 0 ↔ unitsAt x.magnitude.val = 0 := by
    rw [scaled, units_eq]
    split <;> omega
  rw [value, div_eq_zero_iff, or_iff_left (ne_of_gt unitsPerOne_pos'), Int.cast_eq_zero, hscaled,
    unitsAt_eq_zero, isZero_iff]

/-- A float is known by its position in the total order. -/
theorem key_inj (h : x.key = y.key) : x = y := by
  cases x with
  | mk sx mx =>
      cases y with
      | mk sy my =>
          cases sx <;> cases sy <;> simp [key] at h ⊢ <;> omega

/-- The total order is that of the numbers, except for two zeros. -/
theorem scaled_lt_of_key_lt (hzero : x.isZero = true → y.isZero = true → x.negative = y.negative)
    (h : x.key < y.key) : x.scaled < y.scaled := by
  cases hx : x.negative with
  | false =>
      cases hy : y.negative with
      | false =>
          have hplace : x.magnitude.val < y.magnitude.val := by
            simpa [key, hx, hy] using h
          have hunits := unitsAt_strictMono hplace
          rw [scaled_of_nonneg hx, scaled_of_nonneg hy]
          omega
      | true =>
          simp only [key, hx, hy, Bool.false_eq_true, if_false, if_true] at h
          omega
  | true =>
      cases hy : y.negative with
      | false =>
          rw [scaled_of_neg hx, scaled_of_nonneg hy]
          by_contra hle
          have hxplace : x.magnitude.val = 0 := unitsAt_eq_zero.mp (by omega)
          have hyplace : y.magnitude.val = 0 := unitsAt_eq_zero.mp (by omega)
          have hsigns := hzero (isZero_iff.mpr hxplace) (isZero_iff.mpr hyplace)
          rw [hx, hy] at hsigns
          cases hsigns
      | true =>
          have hplace : y.magnitude.val < x.magnitude.val := by
            simpa [key, hx, hy] using h
          have hunits := unitsAt_strictMono hplace
          rw [scaled_of_neg hx, scaled_of_neg hy]
          omega

/-- Floats are ordered as the numbers that they are, except for zeros of different signs. -/
theorem order_compares
    (hzero : x.isZero = true → y.isZero = true → x.negative = y.negative) :
    (x.order y).Compares x.value y.value := by
  rw [order]
  rcases lt_trichotomy x.key y.key with hlt | heq | hgt
  · rw [compare_lt_iff_lt.mpr hlt]
    exact value_lt_iff.mpr (scaled_lt_of_key_lt hzero hlt)
  · rw [compare_eq_iff_eq.mpr heq]
    exact congrArg value (key_inj heq)
  · rw [compare_gt_iff_gt.mpr hgt]
    exact value_lt_iff.mpr (scaled_lt_of_key_lt (fun hy hx ↦ (hzero hx hy).symm) hgt)

end Chronicle.Binary64

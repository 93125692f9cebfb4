import Chronicle.Decimal
import Chronicle.Proofs.Binary64

/-!
# Shortest decimals

`Decimal.toBinary64_shortest` says that the digits which a number is written with round to that
number again, whether they come from the search or from the exact decimal that stands in where the
search finds nothing. Rounding depends on the value of a decimal only: `toBinary64_eq` removes the
shortcuts for extreme exponents, so that zeros can be moved between digits and exponent.
-/

namespace Chronicle.Decimal

open Binary64

/-- A power of ten is above the power of two with three times the exponent. -/
theorem two_pow_le_ten_pow (n : Nat) : 2 ^ (3 * n) ≤ 10 ^ n := by
  rw [Nat.pow_mul]
  exact Nat.pow_le_pow_left (by decide) n

/-- Digits with a large exponent are beyond the largest magnitude. -/
theorem two_pow_le_large {digits n : Nat} (hpos : digits ≠ 0) (hlarge : 400 < n) :
    2 ^ 2098 ≤ digits * 10 ^ n * unitsPerOne := by
  obtain ⟨one, hone, hunits⟩ := unitsPerOne_eq
  generalize htop : 2098 = top
  have hsplit : 2 ^ top = 2 ^ (top - one) * unitsPerOne := by
    rw [hunits, ← Nat.pow_add, Nat.sub_add_cancel (by omega)]
  rw [hsplit]
  refine Nat.mul_le_mul_right _ ?_
  calc 2 ^ (top - one) ≤ 2 ^ (3 * n) := Nat.pow_le_pow_right (by decide) (by omega)
    _ ≤ 10 ^ n := two_pow_le_ten_pow n
    _ ≤ digits * 10 ^ n := Nat.le_mul_of_pos_left _ (Nat.pos_of_ne_zero hpos)

/-- Digits with a small exponent are below the smallest magnitude. -/
theorem small_lt_ten_pow {digits n : Nat} (hsmall : digits.log2 + 401 < n) :
    2 * (digits * unitsPerOne) < 10 ^ n := by
  obtain ⟨one, hone, hunits⟩ := unitsPerOne_eq
  calc 2 * (digits * unitsPerOne)
      = digits * 2 ^ (one + 1) := by rw [Nat.mul_left_comm, hunits, Nat.pow_succ']
    _ < 2 ^ (digits.log2 + 1) * 2 ^ (one + 1) :=
        Nat.mul_lt_mul_of_pos_right Nat.lt_log2_self (Nat.two_pow_pos _)
    _ = 2 ^ (digits.log2 + 1 + (one + 1)) := (Nat.pow_add _ _ _).symm
    _ ≤ 2 ^ (3 * n) := Nat.pow_le_pow_right (by decide) (by omega)
    _ ≤ 10 ^ n := two_pow_le_ten_pow n

/-- A decimal is rounded as a fraction, also where the exponent alone decides. -/
theorem toBinary64_eq (negative : Bool) (d : Decimal) :
    d.toBinary64 negative = ofUnits negative (d.digits * 10 ^ d.exponent.toNat * unitsPerOne)
      (10 ^ (-d.exponent).toNat) := by
  unfold toBinary64
  split
  · next hzero =>
      rw [hzero, Nat.zero_mul, Nat.zero_mul, ofUnits_eq_zero]
      exact Nat.pow_pos (by decide)
  · next hpos =>
      split
      · next hlarge =>
          have hden : (-d.exponent).toNat = 0 := by omega
          rw [hden]
          refine (ofUnits_eq_none _ Nat.one_pos ?_).symm
          simpa only [Nat.one_mul] using two_pow_le_large hpos (by omega)
      · split
        · next hsmall =>
            have hnum : d.exponent.toNat = 0 := by omega
            rw [hnum, ofUnits_eq_zero]
            rw [Nat.pow_zero, Nat.mul_one]
            exact small_lt_ten_pow (by omega)
        · rfl

/-- A zero at the end of the digits can be moved into the exponent. -/
theorem toBinary64_mul_ten (negative : Bool) (digits : Nat) (exponent : Int) :
    toBinary64 negative ⟨digits * 10, exponent⟩ = toBinary64 negative ⟨digits, exponent + 1⟩ := by
  rw [toBinary64_eq, toBinary64_eq]
  refine ofUnits_congr negative (Nat.pow_pos (by decide)) (Nat.pow_pos (by decide)) ?_
  show digits * 10 * 10 ^ exponent.toNat * unitsPerOne * 10 ^ (-(exponent + 1)).toNat =
    digits * 10 ^ (exponent + 1).toNat * unitsPerOne * 10 ^ (-exponent).toNat
  -- Exactly one of the two exponents changes: the one above the line, or the one below.
  have hpow : 10 * 10 ^ exponent.toNat * 10 ^ (-(exponent + 1)).toNat =
      10 ^ (exponent + 1).toNat * 10 ^ (-exponent).toNat := by
    rw [← Nat.pow_succ', ← Nat.pow_add, ← Nat.pow_add]
    congr 1
    omega
  generalize unitsPerOne = one
  calc digits * 10 * 10 ^ exponent.toNat * one * 10 ^ (-(exponent + 1)).toNat
      = digits * one * (10 * 10 ^ exponent.toNat * 10 ^ (-(exponent + 1)).toNat) := by
        ac_rfl
    _ = digits * one * (10 ^ (exponent + 1).toNat * 10 ^ (-exponent).toNat) := by rw [hpow]
    _ = digits * 10 ^ (exponent + 1).toNat * one * 10 ^ (-exponent).toNat := by ac_rfl

/-- Zeros at the end of the digits can be moved into the exponent. -/
theorem toBinary64_mul_pow (negative : Bool) (digits n : Nat) (exponent : Int) :
    toBinary64 negative ⟨digits * 10 ^ n, exponent⟩ =
      toBinary64 negative ⟨digits, exponent + n⟩ := by
  induction n generalizing exponent with
  | zero => simp
  | succ n ih =>
      rw [Nat.pow_succ, ← Nat.mul_assoc, toBinary64_mul_ten, ih]
      congr 2
      omega

/-- Normalizing keeps the number. -/
theorem toBinary64_normalize (negative : Bool) (d : Decimal) :
    d.normalize.toBinary64 negative = d.toBinary64 negative := by
  unfold normalize
  generalize d.digits.log2 + 1 = fuel
  induction fuel generalizing d with
  | zero => rfl
  | succ fuel ih =>
      unfold normalize.go
      split
      · next h =>
          rw [ih, ← toBinary64_mul_ten, Nat.div_mul_cancel (Nat.dvd_of_mod_eq_zero h.2)]
      · rfl

/-- What is picked hits. -/
theorem hits_of_pick {hits : Nat → Bool} {below n : Nat} {upper : Bool}
    (h : pick hits below upper = some n) : hits n = true := by
  unfold pick at h
  split at h
  · next hbelow habove =>
      cases upper with
      | true => exact Option.some.inj h ▸ habove
      | false => exact Option.some.inj h ▸ hbelow
  · next hbelow _ => exact Option.some.inj h ▸ hbelow
  · next _ habove => exact Option.some.inj h ▸ habove
  · cases h

/-- What the search finds rounds to the number again. -/
theorem toBinary64_ofLength? {tie : Tie} {x : Binary64} {count : Nat} {d : Decimal}
    (h : ofLength? tie x count = some d) : d.toBinary64 x.negative = some x := by
  obtain ⟨digits, hdigits, hd⟩ := Option.map_eq_some_iff.mp h
  rw [← hd]
  exact eq_of_beq (hits_of_pick hdigits)

/-- The exact decimal of a magnitude has that magnitude. -/
theorem toBinary64_exact (x : Binary64) : (exact x).toBinary64 x.negative = some x := by
  obtain ⟨n, hn, hunits⟩ := unitsPerOne_eq
  have hden : 10 ^ n = 5 ^ n * unitsPerOne := by
    rw [hunits]
    exact Nat.mul_pow 5 2 n
  have hdigits : (exact x).digits = x.units * 5 ^ n := by
    rw [hn]
    unfold exact
    -- As in `unitsPerOne_eq`, the exponent is a variable while the powers are compared.
    generalize 1074 = k
    rfl
  have hexponent : (exact x).exponent = -n := by
    rw [hn]
    rfl
  have hexact : exact x = ⟨x.units * 5 ^ n, -n⟩ := congrArg₂ mk hdigits hexponent
  rw [toBinary64_eq, hexact, ← ofUnits_units x]
  refine ofUnits_congr x.negative (Nat.pow_pos (by decide)) Nat.one_pos ?_
  have hnum : (-(n : Int)).toNat = 0 := by omega
  have hpower : (- -(n : Int)).toNat = n := by omega
  rw [hnum, hpower, hden, Nat.pow_zero, Nat.mul_one, Nat.mul_one, Nat.mul_assoc]

/-- The shortest digits of a number round to it. -/
theorem toBinary64_shortest (tie : Tie) (x : Binary64) :
    (shortest tie x).toBinary64 x.negative = some x := by
  unfold shortest
  split
  · next hzero =>
      have hplace : x.magnitude = 0 := Fin.ext (by simpa [isZero] using hzero)
      obtain ⟨negative, magnitude⟩ := x
      subst hplace
      rfl
  · rw [toBinary64_normalize]
    cases hfind : (List.range 17).findSome? fun i ↦ ofLength? tie x (i + 1) with
    | none => exact toBinary64_exact x
    | some d =>
        obtain ⟨i, _, hd⟩ := List.exists_of_findSome?_eq_some hfind
        exact toBinary64_ofLength? hd

end Chronicle.Decimal

import Chronicle.Json.Parser
import Chronicle.Json.Printer
import Chronicle.Proofs.Decimal

/-!
# Numbers in texts

A number that is written is read back: `scanNumber_shortest` for floats and `scanNumber_toDigits`
for integers, whatever follows as long as it cannot belong to a number. The layouts differ in where
the point stands and whether an exponent is written, and each part of a number has its own lemma
about how it is read.
-/

namespace Chronicle.Json

/-- What follows cannot belong to a number. -/
def EndsNumber (rest : List Char) : Prop :=
  ∀ c ∈ rest.head?, c.isDigit = false ∧ c ≠ '.' ∧ c ≠ 'e' ∧ c ≠ 'E'

/-- What follows cannot be one of the digits before it. -/
def EndsDigits (rest : List Char) : Prop := ∀ c ∈ rest.head?, c.isDigit = false

theorem EndsNumber.endsDigits {rest : List Char} (h : EndsNumber rest) : EndsDigits rest :=
  fun c hc ↦ (h c hc).1

/-- All of the characters are digits. -/
abbrev Digits (cs : List Char) : Prop := ∀ c ∈ cs, c.isDigit = true

theorem digits_toDigits (n : Nat) : Digits (Nat.toDigits 10 n) :=
  fun _ hc ↦ Nat.isDigit_of_mem_toDigits (by decide) (by decide) hc

/-- The digits at the front of a text are taken and no more. -/
theorem takeWhile_digits {digits rest : List Char} (hdigits : Digits digits)
    (hrest : EndsDigits rest) : (digits ++ rest).takeWhile Char.isDigit = digits := by
  rw [List.takeWhile_append_of_pos hdigits]
  cases rest with
  | nil => simp
  | cons c cs => rw [List.takeWhile_cons_of_neg (by simp [hrest c rfl]), List.append_nil]

/-- The digits before the point have no zero in front, unless there is only this zero. -/
theorem wholeDigits_append {whole rest : List Char} (hwhole : Digits whole) (hne : whole ≠ [])
    (hlead : whole = ['0'] ∨ whole.head? ≠ some '0') (hrest : EndsDigits rest) :
    wholeDigits (whole ++ rest) = whole := by
  rcases hlead with hzero | hlead
  · rw [hzero]
    rfl
  · unfold wholeDigits
    split
    · next heq =>
        cases whole with
        | nil => exact absurd rfl hne
        | cons c cs =>
            cases heq
            exact absurd rfl hlead
    · exact takeWhile_digits hwhole hrest

/-- A number goes on behind the digits before the point. -/
theorem scanNumber_append (negative : Bool) {whole rest : List Char} (hwhole : Digits whole)
    (hne : whole ≠ []) (hlead : whole = ['0'] ∨ whole.head? ≠ some '0') (hrest : EndsDigits rest) :
    scanNumber negative (whole ++ rest) = scanFraction negative whole rest := by
  have hnone : rest.head?.any Char.isDigit = false := by
    cases rest with
    | nil => rfl
    | cons c cs => exact hrest c rfl
  simp only [scanNumber, wholeDigits_append hwhole hne hlead hrest, List.drop_left, hnone,
    Bool.false_eq_true, and_false, if_false]
  rw [if_neg (by simpa using hne)]

/-- Without a point there is no fraction. -/
theorem scanFraction_none (negative : Bool) (whole : List Char) {rest : List Char}
    (hrest : rest.head? ≠ some '.') :
    scanFraction negative whole rest =
      scanTail negative (Nat.ofDigitChars 10 whole 0) none rest := by
  unfold scanFraction
  split
  · exact absurd rfl hrest
  · rfl

/-- The digits behind a point. -/
theorem scanFraction_point (negative : Bool) (whole : List Char) {fraction rest : List Char}
    (hfraction : Digits fraction) (hne : fraction ≠ []) (hrest : EndsDigits rest) :
    scanFraction negative whole ('.' :: (fraction ++ rest)) =
      scanTail negative (Nat.ofDigitChars 10 (whole ++ fraction) 0) (some fraction.length)
        rest := by
  simp only [scanFraction, takeWhile_digits hfraction hrest, List.drop_left]
  rw [if_neg (by simpa using hne)]

/-- A number ends with its digits. -/
theorem scanTail_end (negative : Bool) (digits : Nat) (places : Option Nat) {rest : List Char}
    (hrest : EndsNumber rest) :
    scanTail negative digits places rest =
      (match places with
        | some n => decimalNode negative digits (-n)
        | none => integerNode negative digits, rest) := by
  unfold scanTail
  split
  · exact absurd rfl (hrest 'e' rfl).2.2.1
  · exact absurd rfl (hrest 'E' rfl).2.2.2
  · cases places <;> rfl

/-- A number ends with a signed exponent. -/
theorem scanTail_exponent (negative : Bool) (digits : Nat) (places : Option Nat) (exponent : Int)
    {rest : List Char} (hrest : EndsDigits rest) :
    scanTail negative digits places
        ('e' :: (if exponent < 0 then '-' else '+') :: (Nat.toDigits 10 exponent.natAbs ++ rest)) =
      (decimalNode negative digits (exponent - (places.getD 0 : Nat)), rest) := by
  have hdigits := digits_toDigits exponent.natAbs
  by_cases hsign : exponent < 0
  · simp only [scanTail, scanExponent, if_pos hsign, takeWhile_digits hdigits hrest,
      List.drop_left, Nat.ofDigitChars_ten_toDigits]
    rw [if_neg (by simp)]
    congr 2
    omega
  · simp only [scanTail, scanExponent, if_neg hsign, takeWhile_digits hdigits hrest,
      List.drop_left, Nat.ofDigitChars_ten_toDigits]
    rw [if_neg (by simp)]
    congr 2
    omega

/-! ### Digits -/

theorem digits_zeros (n : Nat) : Digits (List.replicate n '0') := by
  intro c hc
  rw [List.eq_of_mem_replicate hc]
  decide

theorem Digits.append {cs ds : List Char} (hcs : Digits cs) (hds : Digits ds) :
    Digits (cs ++ ds) := by
  intro c hc
  exact (List.mem_append.mp hc).elim (hcs c) (hds c)

theorem toDigits_eq_cons (n : Nat) : ∃ c cs, Nat.toDigits 10 n = c :: cs ∧ c.isDigit = true := by
  have hdigits := digits_toDigits n
  cases hcs : Nat.toDigits 10 n with
  | nil => exact absurd hcs Nat.toDigits_ne_nil
  | cons c cs => exact ⟨c, cs, rfl, hdigits c (by simp [hcs])⟩

/-- What is appended leaves the front as it is. -/
theorem head_append_ne {cs ds : List Char} {c : Char} (hne : cs ≠ []) (h : cs.head? ≠ some c) :
    (cs ++ ds).head? ≠ some c := by
  cases cs with
  | nil => exact absurd rfl hne
  | cons d cs => exact h

/-- The digits of a number have no zero in front. -/
theorem head_toDigits {n : Nat} (h : n ≠ 0) : (Nat.toDigits 10 n).head? ≠ some '0' := by
  induction n using Nat.strongRecOn with
  | ind n ih =>
      by_cases hsmall : n < 10
      · have hdigit : ∀ m < 10, m ≠ 0 → [m.digitChar].head? ≠ some '0' := by decide
        rw [Nat.toDigits_of_lt_base hsmall]
        exact hdigit n hsmall h
      · rw [Nat.toDigits_of_base_le (by decide) (by omega)]
        exact head_append_ne Nat.toDigits_ne_nil (ih (n / 10) (by omega) (by omega))

/-- Zeros behind the digits multiply the number. -/
theorem ofDigitChars_zeros (n k : Nat) :
    Nat.ofDigitChars 10 (Nat.toDigits 10 n ++ List.replicate k '0') 0 = n * 10 ^ k := by
  rw [Nat.ofDigitChars_append, Nat.ofDigitChars_ten_toDigits, Nat.ofDigitChars_replicate_zero,
    Nat.mul_comm]

/-! ### Layouts -/

/-- A decimal whose fraction is written as zeros. -/
theorem decimalNode_mul_pow (negative : Bool) (n k : Nat) (exponent : Int) :
    decimalNode negative (n * 10 ^ k) exponent = decimalNode negative n (exponent + k) := by
  simp only [decimalNode, Decimal.toBinary64_mul_pow]

/-- The point stands in front of the digits. -/
theorem scanNumber_leading_zero (negative : Bool) (n zeros : Nat) {rest : List Char}
    (hrest : EndsNumber rest) :
    scanNumber negative
        ('0' :: '.' :: (List.replicate zeros '0' ++ Nat.toDigits 10 n) ++ rest) =
      (decimalNode negative n (-(zeros + (Nat.toDigits 10 n).length : Nat)), rest) := by
  have hzero : Digits ['0'] := digits_zeros 1
  have hfraction : Digits (List.replicate zeros '0' ++ Nat.toDigits 10 n) :=
    (digits_zeros zeros).append (digits_toDigits n)
  have hne : List.replicate zeros '0' ++ Nat.toDigits 10 n ≠ [] := by
    simp
  have hvalue : Nat.ofDigitChars 10 (['0'] ++ (List.replicate zeros '0' ++ Nat.toDigits 10 n)) 0 =
      n := by
    rw [Nat.ofDigitChars_append, Nat.ofDigitChars_append, Nat.ofDigitChars_replicate_zero]
    show Nat.ofDigitChars 10 (Nat.toDigits 10 n) (10 ^ zeros * 0) = n
    rw [Nat.mul_zero, Nat.ofDigitChars_ten_toDigits]
  show scanNumber negative
    (['0'] ++ ('.' :: ((List.replicate zeros '0' ++ Nat.toDigits 10 n) ++ rest))) = _
  rw [scanNumber_append negative hzero (by simp) (.inl rfl) (by simp [EndsDigits]),
    scanFraction_point negative _ hfraction hne hrest.endsDigits, hvalue,
    scanTail_end negative _ _ hrest, List.length_append, List.length_replicate]

/-- The point stands among the digits. -/
theorem scanNumber_point_inside (negative : Bool) {n places : Nat} (hn : n ≠ 0)
    (hpos : 0 < places) (hlt : places < (Nat.toDigits 10 n).length) {rest : List Char}
    (hrest : EndsNumber rest) :
    scanNumber negative ((Nat.toDigits 10 n).take places ++
        '.' :: ((Nat.toDigits 10 n).drop places ++ rest)) =
      (decimalNode negative n (-((Nat.toDigits 10 n).length - places : Nat)), rest) := by
  have hdigits := digits_toDigits n
  have hlead := head_toDigits hn
  have hvalue := @Nat.ofDigitChars_ten_toDigits n
  generalize Nat.toDigits 10 n = digits at *
  have hne : digits.take places ≠ [] := by
    rw [ne_eq, List.take_eq_nil_iff]
    rintro (h | h)
    · omega
    · rw [h] at hlt
      exact absurd hlt (Nat.not_lt_zero _)
  have hhead : (digits.take places).head? = digits.head? := by
    rw [List.head?_take, if_neg (by omega)]
  have hne' : digits.drop places ≠ [] := by
    rw [ne_eq, List.drop_eq_nil_iff]
    omega
  rw [scanNumber_append negative (fun c hc ↦ hdigits c (List.mem_of_mem_take hc)) hne
      (.inr (hhead ▸ hlead)) (by simp [EndsDigits]),
    scanFraction_point negative _ (fun c hc ↦ hdigits c (List.mem_of_mem_drop hc)) hne'
      hrest.endsDigits,
    scanTail_end negative _ _ hrest, List.take_append_drop, hvalue, List.length_drop]

/-- The point stands behind the digits, after zeros that fill up to it. -/
theorem scanNumber_trailing_zeros (negative : Bool) {n zeros : Nat} (h : n ≠ 0 ∨ zeros = 0)
    {rest : List Char} (hrest : EndsNumber rest) :
    scanNumber negative
        ((Nat.toDigits 10 n ++ List.replicate zeros '0') ++ '.' :: (['0'] ++ rest)) =
      (decimalNode negative n zeros, rest) := by
  have hzero : Digits ['0'] := digits_zeros 1
  have hwhole : Digits (Nat.toDigits 10 n ++ List.replicate zeros '0') :=
    (digits_toDigits n).append (digits_zeros zeros)
  have hlead : Nat.toDigits 10 n ++ List.replicate zeros '0' = ['0'] ∨
      (Nat.toDigits 10 n ++ List.replicate zeros '0').head? ≠ some '0' := by
    by_cases hn : n = 0
    · subst hn
      obtain rfl := h.resolve_left (by simp)
      exact .inl rfl
    · exact .inr (head_append_ne Nat.toDigits_ne_nil (head_toDigits hn))
  have hvalue : Nat.ofDigitChars 10
      (Nat.toDigits 10 n ++ List.replicate zeros '0' ++ ['0']) 0 = n * 10 ^ (zeros + 1) := by
    rw [List.append_assoc, ← List.replicate_succ', ofDigitChars_zeros]
  have hexponent : (-((['0'].length : Nat) : Int)) + (zeros + 1 : Nat) = zeros := by
    show (-((1 : Nat) : Int)) + (zeros + 1 : Nat) = zeros
    omega
  rw [scanNumber_append negative hwhole (by simp) hlead (by simp [EndsDigits]),
    scanFraction_point negative _ hzero (by simp) hrest.endsDigits,
    scanTail_end negative _ _ hrest, hvalue]
  simp only [decimalNode_mul_pow, hexponent]

/-- All digits are written, with the point where it belongs. -/
theorem scanNumber_positional (negative : Bool) {n : Nat} {exponent : Int}
    (h : n ≠ 0 ∨ exponent = 0) {rest : List Char} (hrest : EndsNumber rest) :
    scanNumber negative
        (Decimal.positional (Nat.toDigits 10 n) (exponent + (Nat.toDigits 10 n).length) true ++
          rest) =
      (decimalNode negative n exponent, rest) := by
  have hlength : 0 < (Nat.toDigits 10 n).length := List.length_pos_iff.mpr Nat.toDigits_ne_nil
  unfold Decimal.positional
  split
  · -- The point is in front of all digits, then behind them, then among them.
    rw [scanNumber_leading_zero negative n _ hrest]
    congr 2
    omega
  · next hwhole =>
      dsimp only
      split
      · next hdrop =>
          rw [List.drop_eq_nil_iff] at hdrop
          rw [if_pos rfl, List.take_of_length_le hdrop, List.append_assoc]
          refine (scanNumber_trailing_zeros negative ?_ hrest).trans ?_
          · omega
          · congr 2
            omega
      · next hdrop =>
          have hlt : (exponent + (Nat.toDigits 10 n).length).toNat <
              (Nat.toDigits 10 n).length := by
            rw [← Nat.not_le, ← List.drop_eq_nil_iff]
            exact hdrop
          have hzeros : (exponent + (Nat.toDigits 10 n).length).toNat -
              (Nat.toDigits 10 n).length = 0 := by omega
          rw [hzeros, List.replicate_zero, List.append_nil, List.append_assoc, List.cons_append]
          refine (scanNumber_point_inside negative ?_ (by omega) hlt hrest).trans ?_
          · omega
          · congr 2
            omega

/-- The leading digit stands in front of the point, and the exponent is written. -/
theorem scanNumber_scientific (negative : Bool) {n : Nat} {exponent : Int} (hn : n ≠ 0)
    {rest : List Char} (hrest : EndsNumber rest) :
    scanNumber negative
        (Decimal.scientific (Nat.toDigits 10 n) (exponent + (Nat.toDigits 10 n).length - 1) ++
          rest) =
      (decimalNode negative n exponent, rest) := by
  have hdigits := digits_toDigits n
  have hlead := head_toDigits hn
  have hvalue := @Nat.ofDigitChars_ten_toDigits n
  have hne : Nat.toDigits 10 n ≠ [] := Nat.toDigits_ne_nil
  generalize Nat.toDigits 10 n = digits at *
  unfold Decimal.scientific
  cases digits with
  | nil => exact absurd rfl hne
  | cons d more =>
      obtain ⟨hd, hmore⟩ := List.forall_mem_cons.mp hdigits
      have hsingle : Digits [d] := List.forall_mem_cons.mpr ⟨hd, by simp⟩
      have hrestDigits := hrest.endsDigits
      -- A single digit has no point behind it.
      cases more with
      | nil =>
          show scanNumber negative ([d] ++ ('e' :: _ :: (Nat.toDigits 10 _ ++ rest))) = _
          rw [scanNumber_append negative hsingle (by simp) (.inr hlead) (by simp [EndsDigits]),
            scanFraction_none negative _ (by simp), hvalue,
            scanTail_exponent negative _ _ _ hrestDigits]
          congr 2
          simp
      | cons e more =>
          simp only [List.append_assoc, List.cons_append]
          show scanNumber negative
            ([d] ++ '.' :: ((e :: more) ++ ('e' :: _ :: (Nat.toDigits 10 _ ++ rest)))) = _
          rw [scanNumber_append negative hsingle (by simp) (.inr hlead) (by simp [EndsDigits]),
            scanFraction_point negative _ hmore (by simp) (by simp [EndsDigits]),
            List.singleton_append, hvalue, scanTail_exponent negative _ _ _ hrestDigits]
          congr 2
          simp
          omega

/-- A decimal is read back from its text. -/
theorem scanNumber_decimal (negative : Bool) {d : Decimal} (h : d.digits ≠ 0 ∨ d.exponent = 0)
    {rest : List Char} (hrest : EndsNumber rest) :
    scanNumber negative (d.documentText ++ rest) =
      (decimalNode negative d.digits d.exponent, rest) := by
  simp only [Decimal.documentText]
  split
  · rw [Int.sub_add_cancel]
    exact scanNumber_positional negative h hrest
  · next houtside =>
      -- Zero is within the bounds for which all digits are written.
      have hn : d.digits ≠ 0 := by
        intro hzero
        have hexponent := h.resolve_left (not_not_intro hzero)
        rw [hzero, hexponent] at houtside
        exact houtside (by decide)
      exact scanNumber_scientific negative hn hrest

/-- Only zero has no digits. -/
theorem shortest_digits (x : Binary64) :
    (Decimal.shortest .even x).digits ≠ 0 ∨ (Decimal.shortest .even x).exponent = 0 := by
  by_cases hzero : x.isZero = true
  · right
    rw [Decimal.shortest, if_pos hzero]
  · left
    intro hdigits
    have hround := Decimal.toBinary64_shortest .even x
    rw [Decimal.toBinary64, if_pos hdigits] at hround
    rw [← Option.some.inj hround] at hzero
    exact hzero rfl

/-- A float is read back from its text behind the sign. -/
theorem scanNumber_shortest (x : Binary64) {rest : List Char} (hrest : EndsNumber rest) :
    scanNumber x.negative ((Decimal.shortest .even x).documentText ++ rest) =
      (.float x, rest) := by
  have hround : Decimal.toBinary64 x.negative ⟨(Decimal.shortest .even x).digits,
      (Decimal.shortest .even x).exponent⟩ = some x := Decimal.toBinary64_shortest .even x
  rw [scanNumber_decimal x.negative (shortest_digits x) hrest]
  simp only [decimalNode, hround]

/-- An integer is read back from its digits. -/
theorem scanNumber_toDigits (negative : Bool) (n : Nat) {rest : List Char}
    (hrest : EndsNumber rest) :
    scanNumber negative (Nat.toDigits 10 n ++ rest) = (integerNode negative n, rest) := by
  have hlead : Nat.toDigits 10 n = ['0'] ∨ (Nat.toDigits 10 n).head? ≠ some '0' := by
    by_cases hn : n = 0
    · subst hn
      exact .inl rfl
    · exact .inr (head_toDigits hn)
  have hpoint : rest.head? ≠ some '.' := fun h ↦ (hrest '.' h).2.1 rfl
  rw [scanNumber_append negative (digits_toDigits n) Nat.toDigits_ne_nil hlead hrest.endsDigits,
    scanFraction_none negative _ hpoint, scanTail_end negative _ _ hrest,
    Nat.ofDigitChars_ten_toDigits]

/-- The text of a decimal starts with a digit. -/
theorem documentText_head (d : Decimal) :
    ∃ c cs, d.documentText = c :: cs ∧ c.isDigit = true := by
  have hdigits := digits_toDigits d.digits
  have hne : Nat.toDigits 10 d.digits ≠ [] := Nat.toDigits_ne_nil
  simp only [Decimal.documentText]
  generalize Nat.toDigits 10 d.digits = digits at *
  cases digits with
  | nil => exact absurd rfl hne
  | cons first more =>
      have hfirst := (List.forall_mem_cons.mp hdigits).1
      split
      · unfold Decimal.positional
        split
        · exact ⟨'0', _, rfl, by decide⟩
        · next hwhole =>
            obtain ⟨k, hk⟩ := Nat.exists_eq_succ_of_ne_zero (n := Int.toNat _)
              (show (d.exponent + (first :: more).length - 1 + 1).toNat ≠ 0 by omega)
            rw [hk]
            dsimp only [List.take_succ_cons, List.drop_succ_cons]
            split
            · exact ⟨first, _, rfl, hfirst⟩
            · exact ⟨first, _, rfl, hfirst⟩
      · cases more with
        | nil => exact ⟨first, _, rfl, hfirst⟩
        | cons second more => exact ⟨first, _, rfl, hfirst⟩

end Chronicle.Json

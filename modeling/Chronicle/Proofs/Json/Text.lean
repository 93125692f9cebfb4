import Chronicle.Json.Parser
import Chronicle.Json.Printer

/-!
# Strings in texts

A string that is written between quotes is read back: each character is written as one code unit,
and the units join to the same characters again.
-/

namespace Chronicle.Json

open Value

/-- Four digits are read whatever follows them. -/
theorem hexQuad_escape {n : Nat} (h : n < 0x20) (rest : List Char) :
    hexQuad ('0' :: '0' :: Nat.digitChar (n / 16) :: Nat.digitChar (n % 16) :: rest) = .ok n := by
  show hexQuad ['0', '0', Nat.digitChar (n / 16), Nat.digitChar (n % 16)] = .ok n
  have hall : ∀ m < 0x20, (hexQuad ['0', '0', Nat.digitChar (m / 16),
      Nat.digitChar (m % 16)]).toOption = some m := by decide
  cases hquad : hexQuad ['0', '0', Nat.digitChar (n / 16), Nat.digitChar (n % 16)] with
  | error fault =>
      have := hall n h
      rw [hquad] at this
      cases this
  | ok m =>
      have := hall n h
      rw [hquad] at this
      exact congrArg _ (Option.some.inj this)

/-- A control character is read from its number. -/
theorem joinUnits_code {c : Char} (h : c.toNat < 0x20) (units : List CodeUnit) :
    joinUnits false (.code c.toNat :: units) = (joinUnits false units).map (c :: ·) := by
  have htrailing : isTrailing c.toNat = false := by
    simp only [isTrailing, Bool.and_eq_false_iff, decide_eq_false_iff_not]
    omega
  have hleading : isLeading c.toNat = false := by
    simp only [isLeading, Bool.and_eq_false_iff, decide_eq_false_iff_not]
    omega
  rw [joinUnits.eq_def]
  simp only [htrailing, hleading, Char.ofNat_toNat, Bool.false_eq_true, if_false]

/-- A character inside a string is read as one code unit, which joins to the character. -/
theorem codeUnits_escape (c : Char) : ∃ u : CodeUnit,
    (∀ fuel rest, codeUnits (fuel + 1) (escape c ++ rest) =
      (u :: (codeUnits fuel rest).1, (codeUnits fuel rest).2)) ∧
    ∀ units, joinUnits false (u :: units) = (joinUnits false units).map (c :: ·) := by
  unfold escape
  split
  -- Only the last case, of a character without an escape of its own, looks at the character.
  case h_8 hquote hbackslash _ _ _ _ _ =>
    by_cases hcontrol : c.toNat < 0x20
    · refine ⟨.code c.toNat, fun fuel rest ↦ ?_, joinUnits_code hcontrol⟩
      rw [if_pos hcontrol]
      simp only [List.cons_append, List.nil_append, codeUnits, hexQuad_escape hcontrol]
      rfl
    · refine ⟨.char c, fun fuel rest ↦ ?_, fun units ↦ rfl⟩
      rw [if_neg hcontrol, List.singleton_append, codeUnits, if_neg hcontrol]
      · exact fun h ↦ hquote h
      · exact fun h ↦ hbackslash h
  all_goals exact ⟨.char _, fun fuel rest ↦ rfl, fun units ↦ rfl⟩

/-- The characters of a string are read back up to the closing quote. -/
theorem codeUnits_flatMap_escape (cs rest : List Char) {fuel : Nat} (hfuel : cs.length < fuel) :
    ∃ units, codeUnits fuel (cs.flatMap escape ++ '"' :: rest) = (units, .ok rest) ∧
      joinUnits false units = some cs := by
  induction cs generalizing fuel with
  | nil =>
      obtain ⟨fuel, rfl⟩ := Nat.exists_eq_succ_of_ne_zero (Nat.ne_of_gt hfuel)
      exact ⟨[], rfl, rfl⟩
  | cons c cs ih =>
      obtain ⟨fuel, rfl⟩ := Nat.exists_eq_succ_of_ne_zero (Nat.ne_of_gt (Nat.zero_lt_of_lt hfuel))
      obtain ⟨units, hunits, hjoin⟩ := ih (Nat.lt_of_succ_lt_succ hfuel)
      obtain ⟨u, hread, hunit⟩ := codeUnits_escape c
      refine ⟨u :: units, ?_, ?_⟩
      · rw [List.flatMap_cons, List.append_assoc, hread, hunits]
      · rw [hunit, hjoin]
        rfl

theorem length_le_flatMap_escape (cs : List Char) : cs.length ≤ (cs.flatMap escape).length := by
  induction cs with
  | nil => exact Nat.le_refl 0
  | cons c cs ih =>
      have hc : 1 ≤ (escape c).length := by
        unfold escape
        split <;> try split
        all_goals simp
      rw [List.flatMap_cons, List.length_append, List.length_cons]
      omega

/-- A string is read back from its text behind the opening quote. -/
theorem scanString_escape (s : String) (rest : List Char) :
    scanString (s.toList.flatMap escape ++ '"' :: rest) = .ok (some s, rest) := by
  have hfuel : s.toList.length < (s.toList.flatMap escape ++ '"' :: rest).length := by
    have := length_le_flatMap_escape s.toList
    rw [List.length_append, List.length_cons]
    omega
  obtain ⟨units, hunits, hjoin⟩ := codeUnits_flatMap_escape s.toList rest hfuel
  simp only [scanString, hunits, hjoin, Option.map_some, String.ofList_toList]

end Chronicle.Json

import Chronicle.Uuid
import Mathlib.Algebra.Group.Nat.Defs

/-!
# Identifiers in texts

An identifier is read back from its digits, be they plain (`parse?_simple`) or in groups
(`parse?_hyphenated`), so that different identifiers have different texts.
-/

namespace Chronicle.Uuid

/-- The number of a list of hexadecimal digits. -/
def ofValues (values : List Nat) : Nat := values.foldl (fun n d ↦ 16 * n + d) 0

theorem digitValue?_digitChar {d : Nat} (h : d < 16) : digitValue? (Nat.digitChar d) = some d := by
  have hall : ∀ d < 16, digitValue? (Nat.digitChar d) = some d := by decide
  exact hall d h

@[simp]
theorem length_hexDigits (width n : Nat) : (hexDigits width n).length = width := by
  induction width generalizing n with
  | zero => rfl
  | succ width ih => simp [hexDigits, ih]

/-- The last digits of a number have the number's value up to a power of sixteen. -/
theorem mapM_hexDigits (width n : Nat) : ∃ values,
    (hexDigits width n).mapM digitValue? = some values ∧ ofValues values = n % 16 ^ width := by
  induction width generalizing n with
  | zero => exact ⟨[], rfl, by simp [ofValues, Nat.mod_one]⟩
  | succ width ih =>
      obtain ⟨values, hvalues, hsum⟩ := ih (n / 16)
      refine ⟨values ++ [n % 16], ?_, ?_⟩
      · simp [hexDigits, List.mapM_append, hvalues, digitValue?_digitChar (Nat.mod_lt n _)]
      · have hfold : ofValues (values ++ [n % 16]) = 16 * ofValues values + n % 16 := by
          simp [ofValues]
        rw [hfold, hsum, Nat.pow_succ', Nat.mod_mul, Nat.add_comm]

/-- An identifier is the one of its digits. -/
theorem ofDigits?_simple (id : Uuid) : ofDigits? id.simple = some id := by
  obtain ⟨values, hvalues, hsum⟩ := mapM_hexDigits 32 id.value
  have hrange : id.value.val % 16 ^ 32 = id.value.val := Nat.mod_eq_of_lt id.value.isLt
  have hlength : id.simple.length = 32 := length_hexDigits _ _
  rw [ofDigits?, if_neg (by simp [hlength])]
  rw [simple, hvalues]
  show some (⟨Fin.ofNat _ (ofValues values)⟩ : Uuid) = some id
  rw [hsum, hrange]
  simp

/-- Plain digits are read back. -/
theorem parse?_simple (id : Uuid) : parse? id.simple = some id := by
  have hlength : id.simple.length = 32 := length_hexDigits _ _
  rw [parse?, if_pos hlength, ofDigits?_simple]

/-- Groups are read as the digits in them. -/
theorem ofGroups?_append {a b c d e : List Char} (ha : a.length = 8) (hb : b.length = 4)
    (hc : c.length = 4) (hd : d.length = 4) (he : e.length = 12) :
    ofGroups? (a ++ '-' :: (b ++ '-' :: (c ++ '-' :: (d ++ '-' :: e)))) =
      ofDigits? (a ++ b ++ c ++ d ++ e) := by
  simp [ofGroups?, List.drop_append, List.drop_of_length_le, ha, hb, hc, hd, he]

/-- Hexadecimal digits are neither the letter of a scheme nor a brace. -/
theorem hexDigits_ne {width n : Nat} {c : Char} (h : c ∈ hexDigits width n) :
    c ∉ ['u', 'U', '\x7b'] := by
  induction width generalizing n with
  | zero => cases h
  | succ width ih =>
      rcases List.mem_append.mp h with h | h
      · exact ih h
      · have hall : ∀ d < 16, Nat.digitChar d ∉ ['u', 'U', '\x7b'] := by decide
        rw [List.mem_singleton.mp h]
        exact hall _ (Nat.mod_lt n (by decide))

/-- What starts with a digit has neither a scheme nor braces. -/
theorem parse?_cons {c : Char} (h : c ∉ ['u', 'U', '\x7b']) {cs : List Char}
    (hlength : (c :: cs).length ≠ 32) : parse? (c :: cs) = ofGroups? (c :: cs) := by
  have hu : 'u' ≠ c := by
    rintro rfl
    exact h (by decide)
  have hU : 'U' ≠ c := by
    rintro rfl
    exact h (by decide)
  have hscheme : afterScheme? (c :: cs) = none := by
    have hschemes : schemes = [['u', 'r', 'n', ':', 'u', 'u', 'i', 'd', ':'],
      ['U', 'R', 'N', ':', 'U', 'U', 'I', 'D', ':']] := by decide
    simp [afterScheme?, hschemes, hu, hU]
  have hbrace : betweenBraces? (c :: cs) = none := by
    unfold betweenBraces?
    split
    · next heq =>
        cases heq
        exact absurd (by decide) h
    · rfl
  rw [parse?, if_neg hlength, hscheme, hbrace]

/-- Groups of digits are read back. -/
theorem parse?_hyphenated (id : Uuid) : parse? id.hyphenated = some id := by
  have hlength : id.simple.length = 32 := length_hexDigits _ _
  have hdigits : ∀ c ∈ id.simple, c ∉ ['u', 'U', '\x7b'] := fun c hc ↦ hexDigits_ne hc
  have hread := ofDigits?_simple id
  rw [hyphenated]
  generalize id.simple = digits at *
  have hcut : ∀ i j, (digits.drop i).take j ++ digits.drop (i + j) = digits.drop i := by
    intro i j
    rw [← List.drop_drop, List.take_append_drop]
  -- Each group is cut off from the digits behind the groups before it.
  have hjoin : digits.take 8 ++ (digits.drop 8).take 4 ++ (digits.drop 12).take 4 ++
      (digits.drop 16).take 4 ++ digits.drop 20 = digits := by
    rw [List.append_assoc, hcut 16 4, List.append_assoc, hcut 12 4, List.append_assoc, hcut 8 4,
      List.take_append_drop]
  have hgroups := ofGroups?_append (a := digits.take 8) (b := (digits.drop 8).take 4)
    (c := (digits.drop 12).take 4) (d := (digits.drop 16).take 4) (e := digits.drop 20)
    (by simp [hlength]) (by simp [hlength]) (by simp [hlength]) (by simp [hlength])
    (by simp [hlength])
  rw [hjoin, hread] at hgroups
  obtain ⟨first, more, rfl⟩ : ∃ first more, digits = first :: more := by
    cases digits with
    | nil => cases hlength
    | cons first more => exact ⟨first, more, rfl⟩
  have hfirst := hdigits first List.mem_cons_self
  refine (parse?_cons hfirst ?_).trans hgroups
  have hmore : more.length = 31 := Nat.succ.inj hlength
  simp [hmore]

end Chronicle.Uuid

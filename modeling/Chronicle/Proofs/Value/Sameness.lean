import Chronicle.Proofs.Value.Order

/-!
# Sameness

Two trees hold the same data if their items are the same one by one and their members by name, in
whatever order. Every tree is the same as itself: `Value.sameAs_self`. Sameness asks for a partner
of each member of the first tree only, which is enough where no name stands twice:
`Value.sameAs_comm`.
-/

namespace Chronicle

namespace Value

variable {a b : Value}

theorem sameItems_iff {xs ys : List Value} :
    sameItems xs ys = true ↔ List.Forall₂ (fun v w ↦ v.sameAs w = true) xs ys := by
  induction xs generalizing ys with
  | nil => cases ys <;> simp [sameItems]
  | cons v xs ih => cases ys <;> simp [sameItems, ih]

theorem sameMembers_iff {ms ns : Attributes} :
    sameMembers ms ns = true ↔ ∀ m ∈ ms, ∃ w, (m.1, w) ∈ ns ∧ m.2.sameAs w = true := by
  induction ms with
  | nil => simp [sameMembers]
  | cons m ms ih =>
      rw [sameMembers, Bool.and_eq_true, ih, List.forall_mem_cons]
      refine and_congr_left fun _ ↦ ?_
      simp [List.any_eq_true]

/-- A tree of data is the same as itself. -/
theorem sameAs_self (v : Value) : v.sameAs v = true := by
  induction v using induct with
  | leaf v hleaf =>
      cases v with
      | null => rfl
      | bool | int | str => rw [sameAs, beq_self_eq_true]
      | float x => rw [sameAs, Binary64.sameValue, beq_self_eq_true, Bool.true_or]
      | list items => exact absurd rfl (hleaf.1 items)
      | object members => exact absurd rfl (hleaf.2 members)
  | list items ih =>
      rw [sameAs, sameItems_iff]
      exact List.forall₂_same.mpr ih
  | object members ih =>
      rw [sameAs, beq_self_eq_true, Bool.true_and, sameMembers_iff]
      exact fun m hm ↦ ⟨m.2, hm, ih m hm⟩

/-- Sameness can be turned around where one side has no parts. -/
theorem IsLeaf.sameAs_symm (hleaf : a.IsLeaf) (h : a.sameAs b = true) : b.sameAs a = true := by
  cases a with
  | list items => exact absurd rfl (hleaf.1 items)
  | object members => exact absurd rfl (hleaf.2 members)
  | null | bool | int | str => cases b <;> simp_all [sameAs]
  | float x =>
      cases b with
      | float y =>
          rw [sameAs, Binary64.sameValue] at h ⊢
          rwa [Bool.beq_comm, Bool.and_comm]
      | _ => simp [sameAs] at h

/-- Sameness can be turned around. -/
theorem sameAs_symm (ha : a.Distinct) (hb : b.Distinct) (h : a.sameAs b = true) :
    b.sameAs a = true := by
  induction a using induct generalizing b with
  | leaf a hleaf => exact hleaf.sameAs_symm h
  | list xs ih =>
      cases b with
      | list ys =>
          have hxs := distinct_list.mp ha
          have hys := distinct_list.mp hb
          rw [sameAs, sameItems_iff] at h ⊢
          exact forall₂_symm h fun v hv w hw ↦ ih v hv (hxs v hv) (hys w hw)
      | _ => simp [sameAs] at h
  | object ms ih =>
      cases b with
      | object ns =>
          obtain ⟨hmsKeys, hms⟩ := distinct_object.mp ha
          obtain ⟨hnsKeys, hns⟩ := distinct_object.mp hb
          rw [sameAs, Bool.and_eq_true, beq_iff_eq, sameMembers_iff] at h ⊢
          obtain ⟨hlength, hmembers⟩ := h
          refine ⟨hlength.symm, fun n hn ↦ ?_⟩
          obtain ⟨v, hv, hsame⟩ := partners hmsKeys hnsKeys hlength hmembers n hn
          exact ⟨v, hv, ih (n.1, v) hv (hms _ hv) (hns n hn) hsame⟩
      | _ => simp [sameAs] at h

theorem sameAs_comm (ha : a.Distinct) (hb : b.Distinct) : a.sameAs b = b.sameAs a :=
  Bool.eq_iff_iff.mpr ⟨sameAs_symm ha hb, sameAs_symm hb ha⟩

end Value

end Chronicle

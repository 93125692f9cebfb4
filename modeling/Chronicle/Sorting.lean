/-!
# Stable sorting

`sorted before` puts the elements of a list in order; `before a b` says that `a` may stand before
`b`. Elements that may stand in either order keep the order that they have.
-/

namespace Chronicle

variable {α : Type}

/-- Puts an element before the first one that it may stand before. -/
def insertSorted (before : α → α → Bool) (a : α) : List α → List α
  | [] => [a]
  | b :: rest => if before a b then a :: b :: rest else b :: insertSorted before a rest

/-- The elements in order. -/
def sorted (before : α → α → Bool) : List α → List α
  | [] => []
  | a :: rest => insertSorted before a (sorted before rest)

theorem insertSorted_perm (before : α → α → Bool) (a : α) (l : List α) :
    (insertSorted before a l).Perm (a :: l) := by
  induction l with
  | nil => exact .refl _
  | cons b rest ih =>
      simp only [insertSorted]
      split
      · exact .refl _
      · exact (ih.cons b).trans (.swap a b rest)

theorem sorted_perm (before : α → α → Bool) (l : List α) : (sorted before l).Perm l := by
  induction l with
  | nil => exact .refl _
  | cons a rest ih => exact (insertSorted_perm before a _).trans (ih.cons a)

section

variable {before : α → α → Bool} {R : α → α → Prop} (trans : ∀ a b c, R a b → R b c → R a c)
  (of_before : ∀ a b, before a b = true → R a b) (of_not_before : ∀ a b, before a b = false → R b a)

include trans of_before of_not_before

theorem insertSorted_pairwise {a : α} {l : List α} (h : l.Pairwise R) :
    (insertSorted before a l).Pairwise R := by
  induction l with
  | nil => exact List.pairwise_singleton R a
  | cons b rest ih =>
      obtain ⟨hb, hrest⟩ := List.pairwise_cons.mp h
      simp only [insertSorted]
      split
      · next hbefore =>
          have hab : R a b := of_before a b hbefore
          refine List.pairwise_cons.mpr ⟨fun c hc ↦ ?_, h⟩
          rcases List.mem_cons.mp hc with rfl | hc
          · exact hab
          · exact trans a b c hab (hb c hc)
      · next hbefore =>
          have hba : R b a := of_not_before a b (Bool.eq_false_iff.mpr hbefore)
          refine List.pairwise_cons.mpr ⟨fun c hc ↦ ?_, ih hrest⟩
          rcases List.mem_cons.mp ((insertSorted_perm before a rest).mem_iff.mp hc) with rfl | hc
          · exact hba
          · exact hb c hc

/-- The elements are in any order that `before` decides. -/
theorem sorted_pairwise (l : List α) : (sorted before l).Pairwise R := by
  induction l with
  | nil => exact List.Pairwise.nil
  | cons a rest ih => exact insertSorted_pairwise trans of_before of_not_before ih

end

/-! ### Stability -/

section

variable {before : α → α → Bool} {p : α → Bool}
  (h : ∀ a b, p a = true → p b = true → before a b = true)

include h

/-- Among elements that may stand in either order, a new one comes first. -/
theorem filter_insertSorted (a : α) (l : List α) :
    (insertSorted before a l).filter p = (a :: l).filter p := by
  induction l with
  | nil => rfl
  | cons b rest ih =>
      rw [insertSorted]
      split
      · rfl
      · next hbefore =>
          rw [List.filter_cons, ih]
          by_cases hb : p b = true
          · have ha : ¬ p a = true := fun ha ↦ hbefore (h a b ha hb)
            simp [List.filter_cons, ha]
          · simp [List.filter_cons, hb]

/-- Elements that may stand in either order keep the order that they have. -/
theorem filter_sorted (l : List α) : (sorted before l).filter p = l.filter p := by
  induction l with
  | nil => rfl
  | cons a rest ih =>
      rw [sorted, filter_insertSorted h, List.filter_cons, List.filter_cons, ih]

end

/-! ### Comparisons -/

section

variable {β : Type} {before other : α → α → Bool}

theorem insertSorted_congr {a : α} {l : List α} (h : ∀ b ∈ l, before a b = other a b) :
    insertSorted before a l = insertSorted other a l := by
  induction l with
  | nil => rfl
  | cons b rest ih =>
      obtain ⟨hb, hrest⟩ := List.forall_mem_cons.mp h
      rw [insertSorted, insertSorted, hb, ih hrest]

/-- Only comparisons of an element with those after it matter. -/
theorem sorted_congr {l : List α} (h : l.Pairwise fun a b ↦ before a b = other a b) :
    sorted before l = sorted other l := by
  induction l with
  | nil => rfl
  | cons a rest ih =>
      obtain ⟨ha, hrest⟩ := List.pairwise_cons.mp h
      rw [sorted, sorted, ih hrest]
      exact insertSorted_congr fun b hb ↦ ha b ((sorted_perm other rest).mem_iff.mp hb)

theorem map_insertSorted {g : α → β} {across : β → β → Bool}
    (h : ∀ a b, across (g a) (g b) = before a b) (a : α) (l : List α) :
    (insertSorted before a l).map g = insertSorted across (g a) (l.map g) := by
  induction l with
  | nil => rfl
  | cons b rest ih =>
      rw [insertSorted, List.map_cons, insertSorted, h]
      split
      · rfl
      · rw [List.map_cons, ih]

/-- Sorting comes before or after a map that no comparison sees. -/
theorem map_sorted {g : α → β} {across : β → β → Bool}
    (h : ∀ a b, across (g a) (g b) = before a b) (l : List α) :
    (sorted before l).map g = sorted across (l.map g) := by
  induction l with
  | nil => rfl
  | cons a rest ih => rw [sorted, map_insertSorted h, ih, List.map_cons, sorted]

end

end Chronicle

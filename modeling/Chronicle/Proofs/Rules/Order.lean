import Chronicle.Proofs.Results
import Chronicle.Rules.Document
import Mathlib.Data.List.Forall2

/-!
# The order of the rules in a document

A document has its rules by category, and one after another in each category. What it says between
them under a reserved name does not count. The rules are tried by ascending priority, and among
rules of one priority in the order of the document: `RuleBook.ordered_of_parse`.
-/

namespace Chronicle

/-- What a document says under an event of a category. -/
structure RuleDocument.Item where
  category : String
  event : String
  value : Value

namespace RuleDocument

/-- The rule that is written in an item. -/
def Item.Gives (item : Item) (r : EventRule) : Prop :=
  RuleBook.readRule item.category item.event item.value = .ok r

/-- The items of a category, without those of reserved names. -/
def itemsIn (category : String) (events : Attributes) : List Item :=
  (events.filter fun (event, _) ↦ !isReserved event).map fun (event, v) ↦ ⟨category, event, v⟩

/-- The items of all categories, without those of reserved names, in the order of the document. -/
def items (document : RuleDocument) : List Item :=
  (document.events.filter fun (category, _) ↦ !isReserved category).flatMap fun (category, v) ↦
    match v with
    | .object events => itemsIn category events
    | _ => []

end RuleDocument

open RuleDocument

/-- The rules as they are tried, in relation to the rules as they are written: the same rules by
ascending priority, where rules of one priority keep their order. -/
structure EventRule.Ordered (written tried : List EventRule) : Prop where
  perm : tried.Perm written
  ascending : tried.Pairwise fun a b ↦ a.priority ≤ b.priority
  stable : ∀ priority : Int64,
    (tried.filter fun r ↦ r.priority = priority) = written.filter fun r ↦ r.priority = priority

namespace EventRule

/-- The first of rules by ascending priority has no higher priority than any of them. -/
theorem priority_le_of_mem {first r : EventRule} {rest : List EventRule}
    (h : (first :: rest).Pairwise fun a b ↦ a.priority ≤ b.priority) (hr : r ∈ first :: rest) :
    first.priority ≤ r.priority := by
  rcases List.mem_cons.mp hr with rfl | hr
  · exact Int64.le_refl _
  · exact (List.pairwise_cons.mp h).1 r hr

theorem mem_iff_of_filter_eq {a b : List EventRule} (h : ∀ priority : Int64,
    (a.filter fun r ↦ r.priority = priority) = b.filter fun r ↦ r.priority = priority)
    (r : EventRule) : r ∈ a ↔ r ∈ b := by
  have hsame := congrArg (r ∈ ·) (h r.priority)
  simpa using hsame

/-- Rules by ascending priority are determined by the rules of each priority. -/
theorem eq_of_filter_eq {a b : List EventRule}
    (ha : a.Pairwise fun r s ↦ r.priority ≤ s.priority)
    (hb : b.Pairwise fun r s ↦ r.priority ≤ s.priority)
    (h : ∀ priority : Int64,
      (a.filter fun r ↦ r.priority = priority) = b.filter fun r ↦ r.priority = priority) :
    a = b := by
  have hmem := mem_iff_of_filter_eq h
  induction a generalizing b with
  | nil =>
      refine (List.eq_nil_iff_forall_not_mem.mpr fun r hr ↦ ?_).symm
      exact absurd ((hmem r).mpr hr) List.not_mem_nil
  | cons x xs ih =>
      cases b with
      | nil => exact absurd ((hmem x).mp List.mem_cons_self) List.not_mem_nil
      | cons y ys =>
          -- Each of the first rules stands in the other list too, so neither has more priority.
          have hpriority : x.priority = y.priority := Int64.le_antisymm
            (priority_le_of_mem ha ((hmem y).mpr List.mem_cons_self))
            (priority_le_of_mem hb ((hmem x).mp List.mem_cons_self))
          have hfirst := h x.priority
          rw [List.filter_cons_of_pos (by simp), List.filter_cons_of_pos (by simp [hpriority])]
            at hfirst
          obtain ⟨rfl, -⟩ := List.cons.inj hfirst
          have hrest : ∀ priority : Int64, (xs.filter fun r ↦ r.priority = priority) =
              ys.filter fun r ↦ r.priority = priority := by
            intro priority
            have hall := h priority
            rw [List.filter_cons, List.filter_cons] at hall
            split at hall
            · exact (List.cons.inj hall).2
            · exact hall
          have heq : xs = ys := ih (List.pairwise_cons.mp ha).2 (List.pairwise_cons.mp hb).2 hrest
            (mem_iff_of_filter_eq hrest)
          rw [heq]

/-- There is one order in which the rules can be tried. -/
theorem Ordered.eq {written tried other : List EventRule} (h : Ordered written tried)
    (hother : Ordered written other) : tried = other :=
  eq_of_filter_eq h.ascending hother.ascending fun priority ↦
    (h.stable priority).trans (hother.stable priority).symm

end EventRule

namespace RuleBook

/-- The rules of a category are those that its items give. -/
theorem readRules_eq_ok {category : String} {events : Attributes} {rules : List EventRule} :
    readRules category events = .ok rules ↔
      List.Forall₂ Item.Gives (itemsIn category events) rules := by
  induction events generalizing rules with
  | nil =>
      show Except.ok [] = Except.ok rules ↔ List.Forall₂ Item.Gives [] rules
      rw [List.forall₂_nil_left_iff, Except.ok.injEq, eq_comm]
  | cons entry rest ih =>
      obtain ⟨event, v⟩ := entry
      cases hreserved : isReserved event with
      | true =>
          rw [readRules, if_pos hreserved, ih, itemsIn, itemsIn,
            List.filter_cons_of_neg (by simp [hreserved])]
      | false =>
          rw [readRules, if_neg (by simp [hreserved]), bind_eq_ok, itemsIn,
            List.filter_cons_of_pos (by simp [hreserved]), List.map_cons, ← itemsIn,
            List.forall₂_cons_left_iff]
          constructor
          · rintro ⟨r, hr, h⟩
            obtain ⟨more, hmore, heq⟩ := bind_eq_ok.mp h
            cases heq
            exact ⟨r, more, hr, ih.mp hmore, rfl⟩
          · rintro ⟨r, more, hr, hmore, rfl⟩
            exact ⟨r, hr, bind_eq_ok.mpr ⟨more, ih.mpr hmore, rfl⟩⟩

/-- The rules of a document are those that its items give, and its categories are objects. -/
theorem readCategories_eq_ok {document : RuleDocument} {rules : List EventRule} :
    readCategories document.events = .ok rules ↔
      (∀ entry ∈ document.events, isReserved entry.1 = false →
        ∃ events, entry.2 = .object events) ∧
        List.Forall₂ Item.Gives document.items rules := by
  obtain ⟨events, definitions⟩ := document
  induction events generalizing rules with
  | nil =>
      show Except.ok [] = Except.ok rules ↔ _ ∧ List.Forall₂ Item.Gives [] rules
      rw [List.forall₂_nil_left_iff, Except.ok.injEq, eq_comm]
      exact (and_iff_right fun _ hmem ↦ absurd hmem List.not_mem_nil).symm
  | cons entry rest ih =>
      obtain ⟨category, v⟩ := entry
      rw [List.forall_mem_cons]
      cases hreserved : isReserved category with
      | true =>
          rw [items, List.filter_cons_of_neg (by simp [hreserved])]
          unfold readCategories
          rw [if_pos hreserved, and_iff_right (nomatch ·)]
          exact ih
      | false =>
          rw [items, List.filter_cons_of_pos (by simp [hreserved]), List.flatMap_cons]
          unfold readCategories
          rw [if_neg (by simp [hreserved])]
          cases v with
          | object events =>
              rw [and_iff_right fun _ ↦ ⟨events, rfl⟩, bind_eq_ok]
              constructor
              · rintro ⟨first, hfirst, h⟩
                obtain ⟨more, hmore, heq⟩ := bind_eq_ok.mp h
                cases heq
                obtain ⟨hobjects, hgives⟩ := ih.mp hmore
                exact ⟨hobjects, List.rel_append (readRules_eq_ok.mp hfirst) hgives⟩
              · rintro ⟨hobjects, h⟩
                -- The rules are cut where the items of the category end.
                have hfirst := List.forall₂_take (itemsIn category events).length h
                have hmore := List.forall₂_drop (itemsIn category events).length h
                rw [List.take_left] at hfirst
                rw [List.drop_left] at hmore
                refine ⟨_, readRules_eq_ok.mpr hfirst, bind_eq_ok.mpr
                  ⟨_, ih.mpr ⟨hobjects, hmore⟩, ?_⟩⟩
                rw [List.take_append_drop]
          | _ => exact ⟨(nomatch ·), fun h ↦ nomatch h.1.1 rfl⟩

/-- The rules are sorted by priority, and rules of one priority stay as they are written. -/
theorem ordered_sorted (written : List EventRule) :
    EventRule.Ordered written (sorted precedes written) := by
  refine ⟨sorted_perm _ _, ?_, fun priority ↦ ?_⟩
  · refine @sorted_pairwise _ precedes (fun a b ↦ a.priority ≤ b.priority) ?_ ?_ ?_ written
    · exact fun _ _ _ ↦ Int64.le_trans
    · exact fun a b hbefore ↦ of_decide_eq_true hbefore
    · exact fun a b hbefore ↦ (Int64.le_total _ _).resolve_left (of_decide_eq_false hbefore)
  · refine filter_sorted (fun a b ha hb ↦ decide_eq_true ?_) written
    rw [of_decide_eq_true ha, of_decide_eq_true hb]
    exact Int64.le_refl priority

/-- The rules of a document that can be read are those of its items, in the one order in which they
can be tried. -/
theorem ordered_of_parse {cs : List Char} {book : RuleBook} (h : parse cs = .ok book) :
    ∃ document written, RuleDocument.codec.readText cs = .ok document ∧
      List.Forall₂ Item.Gives document.items written ∧
      ∀ tried, EventRule.Ordered written tried ↔ tried = book.rules := by
  unfold parse at h
  split at h
  · next document hdocument =>
      obtain ⟨written, hwritten, h⟩ := bind_eq_ok.mp h
      obtain ⟨_, _, h⟩ := bind_eq_ok.mp h
      cases h
      have hordered := ordered_sorted written
      exact ⟨document, written, hdocument, (readCategories_eq_ok.mp hwritten).2,
        fun tried ↦ ⟨fun htried ↦ htried.eq hordered, fun heq ↦ heq ▸ hordered⟩⟩
  · cases h

end RuleBook

end Chronicle

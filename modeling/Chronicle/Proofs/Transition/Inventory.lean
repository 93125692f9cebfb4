import Chronicle.Transition.Builtin
import Mathlib.Data.Finset.Card
import Mathlib.Data.List.Induction

/-!
# Comparing inventories

An inventory is a list of stacks, and stacks can share an id. It is compared as if it had one stack
of each id, at the place of the first and with the count of the last: `Inventory.keys_counts` and
`Inventory.lookup_counts`. What is obtained and what is used is read off these counts, and an id in
neither list has the same count before and after: `Transition.items_compared`.
-/

namespace Chronicle

namespace Inventory

variable {inventory other : Inventory} {id : String}

/-- The ids of the stacks, in order. -/
def ids (inventory : Inventory) : List String := inventory.items.map (·.id)

/-- The count of the last stack with the id. -/
def lastCount? (inventory : Inventory) (id : String) : Option UInt32 :=
  (inventory.items.reverse.find? (·.id == id)).map (·.count)

/-- The id is in the inventory, and it is not in the other one or has a smaller count there. -/
def Exceeds (inventory other : Inventory) (id : String) : Prop :=
  ∃ n, inventory.lastCount? id = some n ∧ ∀ m, other.lastCount? id = some m → m < n

/-! ### Counts -/

/-- A further stack sets the count of its id. -/
theorem counts_concat (slots : UInt32) (items : List Item) (item : Item) :
    counts ⟨slots, items ++ [item]⟩ = Keyed.insert item.id item.count (counts ⟨slots, items⟩) :=
  List.foldl_concat ..

/-- Every id is counted once. -/
theorem nodup_keys_counts (inventory : Inventory) : (Keyed.keys inventory.counts).Nodup := by
  obtain ⟨slots, items⟩ := inventory
  induction items using List.reverseRecOn with
  | nil => exact .nil
  | append_singleton items item ih =>
      rw [counts_concat]
      exact Keyed.nodup_keys_insert ih item.id item.count

/-- An id is counted at the place of its first stack. -/
theorem keys_counts (inventory : Inventory) :
    Keyed.keys inventory.counts = inventory.ids.eraseDups := by
  obtain ⟨slots, items⟩ := inventory
  induction items using List.reverseRecOn with
  | nil => rfl
  | append_singleton items item ih =>
      have hids : ids ⟨slots, items ++ [item]⟩ = ids ⟨slots, items⟩ ++ [item.id] :=
        List.map_append
      rw [counts_concat, Keyed.keys_insert, ih, hids, List.eraseDups_append]
      by_cases hmem : item.id ∈ ids ⟨slots, items⟩
      · simp [List.removeAll, hmem]
      · simp [List.removeAll, hmem, List.eraseDups_cons]

/-- The last stack of an id has its count. -/
theorem lookup_counts (inventory : Inventory) (id : String) :
    inventory.counts.lookup id = inventory.lastCount? id := by
  obtain ⟨slots, items⟩ := inventory
  induction items using List.reverseRecOn with
  | nil => rfl
  | append_singleton items item ih =>
      rw [counts_concat, Keyed.lookup_insert, ih, lastCount?, lastCount?, List.reverse_concat,
        List.find?_cons]
      by_cases hid : id = item.id
      · rw [if_pos hid, hid, beq_self_eq_true, Option.map_some]
      · rw [if_neg hid, beq_false_of_ne (Ne.symm hid)]

example : counts ⟨20, [⟨"potion", 1, []⟩, ⟨"key", 0, []⟩, ⟨"potion", 3, []⟩]⟩ =
    [("potion", 3), ("key", 0)] := rfl

theorem length_counts (inventory : Inventory) :
    inventory.counts.length = inventory.ids.toFinset.card := by
  have hids : (Keyed.keys inventory.counts).toFinset = inventory.ids.toFinset := by
    ext id
    rw [keys_counts, List.mem_toFinset, List.mem_toFinset, List.mem_eraseDups]
  rw [← hids, List.toFinset_card_of_nodup inventory.nodup_keys_counts, Keyed.keys, List.length_map]

/-! ### Growth -/

/-- Where every id is counted once, no count is above itself. -/
theorem grown_self {counts : List (String × UInt32)} (h : (Keyed.keys counts).Nodup) :
    grown counts counts = [] := by
  refine List.map_eq_nil_iff.mpr (List.filter_eq_nil_iff.mpr fun (id, count) hmem ↦ ?_)
  simp only [Keyed.lookup_eq_some_of_mem h hmem, decide_eq_true_eq]
  exact UInt32.lt_irrefl count

theorem mem_grown : id ∈ grown inventory.counts other.counts ↔ inventory.Exceeds other id := by
  simp only [grown, List.mem_map, List.mem_filter, Exceeds, ← lookup_counts]
  constructor
  · rintro ⟨⟨id, n⟩, ⟨hmem, hgrown⟩, rfl⟩
    refine ⟨n, Keyed.lookup_eq_some_of_mem inventory.nodup_keys_counts hmem, fun m hm ↦ ?_⟩
    dsimp only at hgrown hm
    rw [hm] at hgrown
    exact of_decide_eq_true hgrown
  · rintro ⟨n, hn, hless⟩
    refine ⟨(id, n), ⟨(Keyed.lookup_eq_some_iff inventory.nodup_keys_counts).mp hn, ?_⟩, rfl⟩
    dsimp only
    cases hother : other.counts.lookup id with
    | none => rfl
    | some m => exact decide_eq_true (hless m hother)

theorem grown_sublist : (grown inventory.counts other.counts).Sublist inventory.ids.eraseDups := by
  rw [← keys_counts]
  exact List.filter_sublist.map _

theorem nodup_grown : (grown inventory.counts other.counts).Nodup :=
  (keys_counts inventory ▸ grown_sublist).nodup inventory.nodup_keys_counts

/-- No id is above its own count. -/
theorem Exceeds.not_exceeds (h : inventory.Exceeds other id) : ¬ other.Exceeds inventory id := by
  obtain ⟨n, hn, hless⟩ := h
  rintro ⟨m, hm, hless'⟩
  exact UInt32.lt_asymm (hless m hm) (hless' n hn)

/-- An id of which neither side has more has the same count on both sides or is on none. -/
theorem exceeds_or_lastCount?_eq (inventory other : Inventory) (id : String) :
    inventory.Exceeds other id ∨ other.Exceeds inventory id ∨
      other.lastCount? id = inventory.lastCount? id := by
  cases hn : inventory.lastCount? id with
  | none =>
      cases hm : other.lastCount? id with
      | none => exact .inr (.inr rfl)
      | some m => exact .inr (.inl ⟨m, hm, by simp [hn]⟩)
  | some n =>
      cases hm : other.lastCount? id with
      | none => exact .inl ⟨n, hn, by simp [hm]⟩
      | some m =>
          by_cases hless : m < n
          · exact .inl ⟨n, hn, by simpa [hm] using hless⟩
          by_cases hmore : n < m
          · exact .inr (.inl ⟨m, hm, by simpa [hn] using hmore⟩)
          · have heq := UInt32.le_antisymm (UInt32.not_lt.mp hmore) (UInt32.not_lt.mp hless)
            exact .inr (.inr (congrArg some heq))

end Inventory

namespace Transition

open Inventory

/-- The kinds of items grow by as many as are new, less those that are gone. -/
theorem itemKindsDelta_eq (t : Transition) :
    t.itemKindsDelta =
      ((t.curr.inventory.ids.toFinset \ t.prev.inventory.ids.toFinset).card : Int) -
        (t.prev.inventory.ids.toFinset \ t.curr.inventory.ids.toFinset).card := by
  rw [itemKindsDelta, length_counts, length_counts]
  generalize t.curr.inventory.ids.toFinset = after
  generalize t.prev.inventory.ids.toFinset = before
  have hnew := Finset.card_sdiff_add_card after before
  have hgone := Finset.card_sdiff_add_card before after
  rw [Finset.union_comm] at hgone
  omega

/-- Inventories are compared by the last count of each id. What is obtained are the ids of which
there are more than before, what is used those of which there were more, each once and in the order
of their first stacks, and of all other ids there are as many as before. -/
theorem items_compared (t : Transition) :
    let prev := t.prev.inventory
    let curr := t.curr.inventory
    (∀ inventory : Inventory, (Keyed.keys inventory.counts).Nodup ∧
      Keyed.keys inventory.counts = inventory.ids.eraseDups ∧
      ∀ id, inventory.counts.lookup id = inventory.lastCount? id) ∧
    (t.itemsObtained.Sublist curr.ids.eraseDups ∧
      ∀ id, id ∈ t.itemsObtained ↔ curr.Exceeds prev id) ∧
    (t.itemsUsed.Sublist prev.ids.eraseDups ∧ ∀ id, id ∈ t.itemsUsed ↔ prev.Exceeds curr id) ∧
    (t.itemsObtained.Nodup ∧ t.itemsUsed.Nodup ∧ t.itemsObtained.Disjoint t.itemsUsed) ∧
    (∀ id, id ∈ t.itemsObtained ∨ id ∈ t.itemsUsed ∨ prev.lastCount? id = curr.lastCount? id) ∧
    t.builtins.lookup "item_count_delta" =
      some (.int (((curr.ids.toFinset \ prev.ids.toFinset).card : Int) -
        (prev.ids.toFinset \ curr.ids.toFinset).card)) := by
  intro prev curr
  have hobtained : ∀ id, id ∈ t.itemsObtained ↔ curr.Exceeds prev id := fun id ↦ mem_grown
  have hused : ∀ id, id ∈ t.itemsUsed ↔ prev.Exceeds curr id := fun id ↦ mem_grown
  refine ⟨fun inventory ↦ ?_, ⟨grown_sublist, hobtained⟩, ⟨grown_sublist, hused⟩,
    ⟨nodup_grown, nodup_grown, fun id h h' ↦ ?_⟩, fun id ↦ ?_, ?_⟩
  · exact ⟨inventory.nodup_keys_counts, inventory.keys_counts, inventory.lookup_counts⟩
  · exact ((hobtained id).mp h).not_exceeds ((hused id).mp h')
  · rw [hobtained, hused]
    exact exceeds_or_lastCount?_eq curr prev id
  · rw [← itemKindsDelta_eq]
    rfl

end Transition

end Chronicle

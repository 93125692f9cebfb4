import Chronicle.State.Inventory

/-!
# Changes of an inventory

An inventory is compared by the counts of its ids. Where stacks share an id the last of them
counts, at the place of the first.
-/

namespace Chronicle.Inventory

/-- The count of each id. -/
def counts (inventory : Inventory) : List (String × UInt32) :=
  inventory.items.foldl (fun counts item ↦ Keyed.insert item.id item.count counts) []

/-- The ids with a count above the one in the other list, or absent there. -/
def grown (counts others : List (String × UInt32)) : List String :=
  (counts.filter fun (id, count) ↦
    match others.lookup id with
    | some other => other < count
    | none => true).map (·.1)

/-- The ids that are new or have more items than before. -/
def obtained (prev curr : Inventory) : List String := grown curr.counts prev.counts

/-- The ids that are gone or have fewer items than before. -/
def used (prev curr : Inventory) : List String := grown prev.counts curr.counts

end Chronicle.Inventory

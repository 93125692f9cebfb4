import Chronicle.Json.Record

/-!
# The inventory

A stack of items has an id and a count. Whatever else is known of it stands beside them in the same
object and is kept as it is.
-/

namespace Chronicle

/-- A stack of items. -/
structure Item where
  id : String
  count : UInt32
  attributes : Attributes
deriving DecidableEq

/-- The player's bag. -/
structure Inventory where
  slots : UInt32
  items : List Item
deriving DecidableEq

/-- An empty bag. -/
def Inventory.default : Inventory := ⟨20, []⟩

open Json Codec

namespace Item

/-- The parts of an item that are read so far. -/
structure Draft where
  id : Option String
  count : Option UInt32
  attributes : Attributes

/-- Adds the members of an object to a draft. -/
def readMembers (origin : Origin) (draft : Draft) :
    List (Option String × Node) → Except ReadError Draft
  | [] => .ok draft
  | (none, _) :: _ => .error (.text .malformed)
  | (some name, node) :: rest =>
    if name = "id" then
      if draft.id.isSome then .error (.shape (.duplicateField name))
      else do
        let id ← str.read origin node
        readMembers origin { draft with id := some id } rest
    else if name = "count" then
      if draft.count.isSome then .error (.shape (.duplicateField name))
      else do
        let count ← uint32.read origin node
        readMembers origin { draft with count := some count } rest
    else do
      let v ← value.read origin node
      readMembers origin { draft with attributes := Keyed.insert name v draft.attributes } rest

/-- An item stands in a document as one object; without a count there is one of it. No attribute of
an item that is read has the name `id` or `count`. Items that are made in memory with such an
attribute are out of scope: what is written of them has a member twice, of which a map would keep
the last. -/
def codec : Codec Item where
  read origin node := match node with
    | .object members stop => do
        let inner ← origin.enter
        let draft ← readMembers inner ⟨none, none, []⟩ members
        closing stop
        match draft.id with
        | some id => Except.ok ⟨id, draft.count.getD 1, draft.attributes⟩
        | none => .error (.shape (.missingField "id"))
    | _ => .error (node.unexpected "struct InventoryItem")
  write item := .object
    (("id", str.write item.id) :: ("count", uint32.write item.count) :: item.attributes)

end Item

def Inventory.fields : Fields Inventory Inventory :=
  (Fields.pure Inventory.mk)
    |>.required "slots" uint32 slots
    |>.optional "items" (list Item.codec) items []

def Inventory.codec : Codec Inventory := .record "InventoryState" fields

end Chronicle

import Chronicle.Sorting
import Chronicle.State.Basic

/-!
# What is known of a snapshot

The metadata of a snapshot is what a store knows of it without looking at the state.
-/

namespace Chronicle

/-- What is known of a snapshot. -/
structure SnapshotMetadata where
  id : SnapshotId
  tick : UInt64
  timestamp : Binary64
  kind : SnapshotKind
  parent : Option SnapshotId
  /-- The name of the file that holds the state. -/
  file : Option String
  /-- The moment when the snapshot was recorded. -/
  recorded : Nat
deriving DecidableEq

namespace SnapshotMetadata

/-- The metadata of a state. -/
def ofState (id : SnapshotId) (state : GameState) (file : Option String) (recorded : Nat) :
    SnapshotMetadata where
  id := id
  tick := state.tick
  timestamp := state.timestamp
  kind := state.kind
  parent := state.parent
  file := file
  recorded := recorded

/-- Snapshots are ordered by tick, then by timestamp, then by the moment when they were recorded.
The identifier decides where these are the same. -/
def order (a b : SnapshotMetadata) : Ordering :=
  (compare a.tick.toNat b.tick.toNat).then <| (a.timestamp.order b.timestamp).then <|
    (compare a.recorded b.recorded).then <| compare a.id.value b.id.value

/-- The snapshot may stand before the other in a list. -/
def precedes (a b : SnapshotMetadata) : Bool := a.order b != .gt

end SnapshotMetadata

end Chronicle

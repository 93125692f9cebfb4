import Chronicle.Rules.Differ
import Chronicle.Snapshot.Store

/-!
# Replays

A replay opens the directory of an earlier run and takes up every snapshot in it. Ranges are by
tick, with both ends included.
-/

namespace Chronicle

/-- An earlier run that is replayed. -/
structure Replayer where
  store : Store
  differ : Differ
deriving DecidableEq

namespace Replayer

/-- Opens a directory and takes up every snapshot in it. -/
def openAt (place : Place) (scan : Scan) (salt : Uuid) (clock : Nat) (differ : Differ) :
    Except StoreError Replayer := do
  let store ← Store.openAt place salt clock
  let (added, store) := store.index scan
  let _ ← added
  Except.ok ⟨store, differ⟩

/-- The state of a snapshot. -/
def restore (r : Replayer) (id : SnapshotId) : Option GameState × Replayer :=
  let (state, store) := r.store.restore id
  (state, { r with store })

/-- The states with a tick in the range, in order. -/
def range (r : Replayer) (first last : Nat) : List GameState × Replayer :=
  let ids := (r.store.list.filter fun m ↦ first ≤ m.tick.toNat ∧ m.tick.toNat ≤ last).map (·.id)
  let (states, store) := r.store.restoreAll ids
  (states, { r with store })

/-- The diffs between each state in the range and the next. -/
def diffs (r : Replayer) (first last : Nat) : List StateDiff × Replayer :=
  let (states, r) := r.range first last
  (r.differ.between states, r)

end Replayer

end Chronicle

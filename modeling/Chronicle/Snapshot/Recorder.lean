import Chronicle.Rules.Differ
import Chronicle.Snapshot.Store
import Chronicle.Snapshot.Strategy

/-!
# Recorders

A recorder takes one snapshot per tick. Its strategy decides the kind of each; one that is not full
gets the snapshot before it as its parent.
-/

namespace Chronicle

/-- A run as it is recorded. -/
structure Recorder where
  store : Store
  strategy : Strategy
  chain : Chain
  differ : Differ
  /-- What is known of the snapshots taken, in the order in which they were taken. -/
  history : List SnapshotMetadata
deriving DecidableEq

namespace Recorder

/-- A recorder that has taken no snapshot. -/
def fresh (store : Store) (strategy : Strategy) (differ : Differ) : Recorder :=
  ⟨store, strategy, .start, differ, []⟩

/-- The parent of a snapshot of the given kind. -/
def parentFor (r : Recorder) (kind : SnapshotKind) (state : GameState) : Option SnapshotId :=
  match kind, r.history.getLast? with
  | .incremental, some previous | .checkpoint, some previous => some previous.id
  | _, _ => state.parent

/-- Takes a snapshot of a state at a tick, after the given events. -/
def create (r : Recorder) (tick : Nat) (state : GameState) (events : List String) :
    SnapshotId × Recorder :=
  let kind := r.strategy.decide tick events r.chain
  let (id, store) := r.store.save { state with kind, parent := r.parentFor kind state }
  (id, { r with
    store
    chain := r.chain.record tick kind
    history := r.history ++ (store.metadata? id).toList })

/-- The diff of two states. -/
def diff (r : Recorder) (prev curr : GameState) : StateDiff := (r.differ.diff ⟨prev, curr⟩ none).diff

/-- The last snapshot taken at or before a tick. -/
def atTick (r : Recorder) (tick : Nat) : Option GameState × Recorder :=
  match r.history.reverse.find? fun m ↦ m.tick.toNat ≤ tick with
  | none => (none, r)
  | some m =>
    let (state, store) := r.store.restore m.id
    (state, { r with store })

/-- The last snapshots taken, at most as many as wanted, the oldest first. -/
def recent (r : Recorder) (count : Nat) : List GameState × Recorder :=
  let ids := (r.history.drop (r.history.length - count)).map (·.id)
  let (states, store) := r.store.restoreAll ids
  (states, { r with store })

/-- Takes a snapshot of the next state, with the events of its diff from the last snapshot. -/
def advance (r : Recorder) (state : GameState) : Option StateDiff × SnapshotId × Recorder :=
  let (last, r) := r.recent 1
  let diff := last.getLast?.map fun prev ↦ r.diff prev state
  let events := match diff with
    | some diff => diff.events
    | none => []
  (diff, r.create state.tick.toNat state events)

/-- Forgets every snapshot. -/
def clear (r : Recorder) : Recorder :=
  { r with store := r.store.clear, chain := .start, history := [] }

end Recorder

end Chronicle

import Chronicle.Snapshot.Kind

/-!
# Strategies

A strategy decides the kind of the next snapshot. Too many ticks since the last full snapshot or too
long a chain call for a full one; otherwise an event among the triggers calls for a checkpoint.
-/

namespace Chronicle

/-- The thresholds and triggers that decide the kind of a snapshot. -/
structure Strategy where
  /-- The number of ticks after which a full snapshot is due. -/
  interval : Nat
  /-- The greatest number of snapshots in a row that are not full. -/
  maxChain : Nat
  /-- The events that call for a checkpoint. -/
  triggers : List String
deriving DecidableEq, Repr

/-- How far the current chain has come. -/
structure Chain where
  /-- The tick of the last full snapshot. -/
  lastFull : Nat
  /-- The number of snapshots since then. -/
  length : Nat
deriving DecidableEq, Repr

namespace Strategy

def default : Strategy := ⟨100, 20, ["level_up", "floor_advance", "player_death"]⟩

/-- The event calls for a checkpoint. -/
def isTrigger (s : Strategy) (event : String) : Bool := s.triggers.contains event

/-- The kind of a snapshot at a tick, after the given events. A tick before the last full snapshot
counts as no ticks since then. -/
def decide (s : Strategy) (tick : Nat) (events : List String) (chain : Chain) : SnapshotKind :=
  if s.interval ≤ tick - chain.lastFull then .full
  else if s.maxChain ≤ chain.length then .full
  else if events.any s.isTrigger then .checkpoint
  else .incremental

end Strategy

namespace Chain

/-- The chain before any snapshot. -/
def start : Chain := ⟨0, 0⟩

/-- The chain after a snapshot. -/
def record (chain : Chain) (tick : Nat) (kind : SnapshotKind) : Chain :=
  match kind with
  | .full => ⟨tick, 0⟩
  | .incremental | .checkpoint => { chain with length := chain.length + 1 }

end Chain

end Chronicle

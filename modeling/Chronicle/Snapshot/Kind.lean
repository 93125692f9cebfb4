import Chronicle.Json.Codec

/-!
# Kinds of snapshots

A full snapshot starts a chain. The others continue the chain of the snapshot before them; one that
an event calls for is a checkpoint.
-/

namespace Chronicle

/-- The kind of a snapshot. -/
inductive SnapshotKind where
  | full
  | incremental
  | checkpoint
deriving DecidableEq, Repr

namespace SnapshotKind

def label : SnapshotKind → String
  | full => "full"
  | incremental => "incr"
  | checkpoint => "ckpt"

def codec : Json.Codec SnapshotKind :=
  .variant ([full, incremental, checkpoint].map fun kind ↦ (kind.label, kind)) label

end SnapshotKind

end Chronicle

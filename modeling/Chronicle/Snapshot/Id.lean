import Chronicle.Decimal
import Chronicle.Json.Codec
import Chronicle.Uuid

/-!
# Snapshot identifiers

The identifier of a snapshot is derived from the salt of its store, the tick and timestamp of the
state, and a sequence number, so that one store never gives out an identifier twice as long as
different names have different identifiers.
-/

namespace Chronicle

/-- The identifier of a snapshot. -/
abbrev SnapshotId := Uuid

namespace SnapshotId

/-- The name that an identifier is derived from. -/
def name (tick : Nat) (timestamp : Binary64) (sequence : Nat) : List Char :=
  Nat.toDigits 10 tick ++ '_' :: (timestamp.plainText ++ '_' :: Nat.toDigits 10 sequence)

/-- The identifier of the state that a store with the given salt saves at a place in its
sequence. -/
def derive (salt : Uuid) (tick : Nat) (timestamp : Binary64) (sequence : Nat) : SnapshotId :=
  Uuid.version5 salt (name tick timestamp sequence)

/-- An identifier stands in a document as its grouped digits. -/
def codec : Json.Codec SnapshotId where
  read _ node := match node with
    | .str s => match Uuid.parse? s.toList with
      | some id => .ok id
      | none => .error (.shape (.badFormat
          s!"UUID parsing failed: {(Uuid.explain s.toList).message}"))
    | _ => .error (node.unexpected "a formatted UUID string")
  write id := .str (String.ofList id.hyphenated)

end SnapshotId

end Chronicle

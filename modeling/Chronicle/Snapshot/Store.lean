import Chronicle.Snapshot.Metadata
import Chronicle.Storage.Folder

/-!
# Stores

A store keeps every saved state in memory, and with a folder behind it each state also goes into a
file of its own. The files let a later store find the states again. While a store is alive its
memory decides; a file is read only for a state that is not there. Taking up the files is not
atomic: where the listing of the folder fails, what it gave before stays taken up.
-/

namespace Chronicle

/-- What is behind a store: nothing, or a directory, which may be gone. -/
inductive Backing where
  | memory
  | directory (folder : Option Folder)
deriving DecidableEq

namespace Backing

/-- The folder behind a store. -/
def folder? : Backing → Option Folder
  | memory => none
  | directory folder => folder

/-- Writes a file if there is a folder for it; the flag says whether it was written. -/
def write (backing : Backing) (name : String) (cs : List Char) (now : Nat) : Backing × Bool :=
  match backing with
  | memory => (memory, false)
  | directory none => (directory none, false)
  | directory (some folder) =>
    match folder.write? name cs now with
    | some written => (directory (some written), true)
    | none => (directory (some folder), false)

end Backing

/-- Why a store cannot use its directory. The path and the cause are left out. -/
inductive StoreError where
  | noDirectory
  | unusable
deriving DecidableEq, Repr

def StoreError.message : StoreError → String
  | noDirectory => "snapshot store has no backing directory"
  | unusable => "snapshot directory is unusable"

/-- The states of one run. -/
structure Store where
  backing : Backing
  /-- What distinguishes the identifiers of this store from those of others. -/
  salt : Uuid
  /-- The number of states saved so far, as far as it can be counted. -/
  sequence : Nat
  /-- The current moment. -/
  clock : Nat
  states : List (SnapshotId × GameState)
  metadata : List (SnapshotId × SnapshotMetadata)
deriving DecidableEq

/-- The name of the file of a snapshot. -/
def SnapshotId.fileName (id : SnapshotId) : String :=
  String.ofList (id.simple ++ ".json".toList)

/-- The snapshot that a file name stands for. -/
def SnapshotId.ofFileName? (name : String) : Option SnapshotId :=
  let cs := name.toList
  let stem := cs.take (cs.length - 5)
  if cs.drop (cs.length - 5) = ".json".toList then Uuid.parse? stem else none

/-- The state in a text, if it is one. -/
def GameState.ofText? (cs : List Char) : Option GameState := (GameState.parse cs).toOption

namespace Store

/-- The number up to which a store counts what it saves. -/
def lastSequence : Nat := UInt64.size - 1

/-- A new store with nothing in it. -/
def fresh (backing : Backing) (salt : Uuid) (clock : Nat) : Store :=
  ⟨backing, salt, 0, clock, [], []⟩

/-- A new store on a directory, which is made where there is nothing. -/
def openAt (place : Place) (salt : Uuid) (clock : Nat) : Except StoreError Store :=
  match place with
  | .vacant => .ok (fresh (.directory (some [])) salt clock)
  | .folder folder => .ok (fresh (.directory (some folder)) salt clock)
  | .blocked => .error .unusable

/-- Saves a state under a new identifier. It is saved in memory even where its file cannot be
written. -/
def save (store : Store) (state : GameState) : SnapshotId × Store :=
  let id := SnapshotId.derive store.salt state.tick.toNat state.timestamp store.sequence
  let (backing, written) := store.backing.write id.fileName state.text store.clock
  let file := if written then some id.fileName else none
  (id, { store with
    backing
    sequence := min (store.sequence + 1) lastSequence
    clock := store.clock + 1
    states := Keyed.insert id state store.states
    metadata := Keyed.insert id (.ofState id state file store.clock) store.metadata })

/-- The state in the file of a snapshot. -/
def stored? (store : Store) (id : SnapshotId) : Option GameState :=
  (store.backing.folder?.bind fun folder ↦ folder.text? id.fileName).bind GameState.ofText?

/-- The state of a snapshot. One that is read from its file is kept from then on. -/
def restore (store : Store) (id : SnapshotId) : Option GameState × Store :=
  match store.states.lookup id with
  | some state => (some state, store)
  | none =>
    match store.stored? id with
    | some state => (some state, { store with states := Keyed.insert id state store.states })
    | none => (none, store)

/-- The states of several snapshots, without those that cannot be restored. -/
def restoreAll (store : Store) : List SnapshotId → List GameState × Store
  | [] => ([], store)
  | id :: rest =>
    let (state, store) := store.restore id
    let (states, store) := store.restoreAll rest
    (state.toList ++ states, store)

/-- What is known of a snapshot. -/
def metadata? (store : Store) (id : SnapshotId) : Option SnapshotMetadata :=
  store.metadata.lookup id

/-- What is known of every snapshot, in order. -/
def list (store : Store) : List SnapshotMetadata :=
  sorted SnapshotMetadata.precedes (store.metadata.map (·.2))

/-- The number of known snapshots. -/
def size (store : Store) : Nat := store.metadata.length

/-- Forgets every snapshot; the files stay. -/
def clear (store : Store) : Store := { store with states := [], metadata := [] }

/-- Takes up the state in one entry of the folder, unless it has no state or is known already. -/
def indexEntry (store : Store) (name : String) (stamped : Stamped) : Option Store :=
  match SnapshotId.ofFileName? name with
  | none => none
  | some id =>
    if (store.metadata? id).isSome then none
    else match stamped.entry.text?.bind GameState.ofText? with
      | none => none
      | some state => some { store with
          states := Keyed.insert id state store.states
          metadata := Keyed.insert id (.ofState id state name stamped.modified) store.metadata }

/-- Takes up what a listing gives and counts what was new. A failure of the listing ends it, with
what was taken up before. -/
def indexListed (store : Store) : List (Option (String × Stamped)) → Except StoreError Nat × Store
  | [] => (.ok 0, store)
  | none :: _ => (.error .unusable, store)
  | some (name, stamped) :: rest =>
    match store.indexEntry name stamped with
    | some store =>
      let (added, store) := store.indexListed rest
      (added.map (· + 1), store)
    | none => store.indexListed rest

/-- Takes up every snapshot in the folder and says how many were new. -/
def index (store : Store) (scan : Scan) : Except StoreError Nat × Store :=
  match store.backing with
  | .memory => (.error .noDirectory, store)
  | .directory none => (.error .unusable, store)
  | .directory (some folder) => store.indexListed (folder.listed scan)

/-- A change of the directory by others. -/
def disturb (store : Store) (change : Nat → Option Folder → Option Folder) : Store :=
  match store.backing with
  | .memory => store
  | .directory folder =>
    { store with backing := .directory (change store.clock folder), clock := store.clock + 1 }

end Store

end Chronicle

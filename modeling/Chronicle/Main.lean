import Chronicle.Session.Replay

/-!
# Command line

Replays the snapshots of an earlier run in the working directory and prints what the session shows.
-/

open Chronicle

namespace Chronicle.CommandLine

/-- What the file system holds at a path. The entry of a directory gives access to its path. -/
def entryAt (entry : IO.FS.DirEntry) : IO (Option Entry) := do
  if !(← entry.path.pathExists) then return none
  if ← entry.path.isDir then return some .folder
  try
    let bytes ← IO.FS.readBinFile entry.path
    match String.fromUTF8? bytes with
    | some s => return some (.text s.toList)
    | none => return some .binary
  catch _ => return some .binary

/-- The moment of the last change of an entry. -/
def modifiedAt (entry : IO.FS.DirEntry) : IO Nat := do
  try
    let time := (← entry.path.metadata).modified
    return (time.sec * 1000000000 + time.nsec.toNat).toNat
  catch _ => return 0

/-- A path as an entry of the working directory. -/
def locate (path : String) : IO.FS.DirEntry := { root := ".", fileName := path }

/-- The entries of the directory at a path, which is made if there is nothing. -/
def placeAt (path : String) : IO Place := do
  if path.isEmpty then return .blocked
  try
    let dir := locate path
    IO.FS.createDirAll dir.path
    let entries ← dir.path.readDir
    let folder ← entries.toList.filterMapM fun entry ↦ do
      match ← entryAt entry with
      | some content => return some (entry.fileName, ⟨content, ← modifiedAt entry⟩)
      | none => return none
    return .folder folder
  catch _ => return .blocked

/-- The disk of the machine. -/
def disk : Disk IO where
  entry path := if path.isEmpty then return none else entryAt (locate path)
  place := placeAt

end Chronicle.CommandLine

def main : IO UInt32 := do
  let env : Environment := {
    snapshotPath := ← IO.getEnv "PLAYTEST_SNAPSHOT_DIR"
    rulesPath := ← IO.getEnv "PLAYTEST_RULES_PATH"
    logFilter := ← IO.getEnv "RUST_LOG" }
  let salt : Uuid := ⟨Fin.ofNat _ (← IO.rand 0 0xFFFFFFFFFFFFFFFFFFFFFFFFFFFFFFFF)⟩
  let report ← Session.run CommandLine.disk env salt
  for line in report.lines do
    IO.println s!"INFO playtest_replay: {line.text}"
  match report.failure with
  | none => return 0
  | some failure =>
    IO.eprintln s!"Error: {failure.message}"
    return 1

import Chronicle.Rules.Document
import Chronicle.Session.Log
import Chronicle.Settings.Document
import Chronicle.Snapshot.Replayer

/-!
# Replay sessions

A session reads the settings and the rules, opens the directory of the snapshots, and logs every
snapshot and every diff between two of them. It ends at the first of these steps that fails.
-/

namespace Chronicle.Session

/-- Why a session ends early. -/
inductive Failure where
  | settings (cause : Settings.Error)
  | rules (cause : RuleError)
  | noSnapshotPath
  | store (cause : StoreError)
deriving DecidableEq, Repr

def Failure.message : Failure → String
  | settings .unreadable => "config error: failed to read config file"
  | settings .malformed => "config error: failed to parse config YAML"
  | rules cause => s!"rule error: {cause.message}"
  | noSnapshotPath =>
    "no snapshot directory: set snapshots.snapshot_dir or PLAYTEST_SNAPSHOT_DIR"
  | store cause => s!"replay error: {cause.message}"

/-- What a session shows and why it ended early, if it did. -/
structure Report where
  lines : List LogLine
  failure : Option Failure
deriving DecidableEq, Repr

def startLine : LogLine := ⟨"playtest-replay starting", []⟩

def rulesLine (book : RuleBook) (bypassRules : Bool) : LogLine where
  message := "Event rules ready"
  fields :=
    [("rules", toString book.rules.length), ("computed_values", toString book.definitions.length),
      ("force_legacy", toString bypassRules)]

def openLine (path : String) (count : Nat) : LogLine where
  message := "Snapshot directory opened"
  fields := [("dir", path), ("snapshots", toString count)]

def stateLine (s : GameState) : LogLine where
  message := "Snapshot"
  fields :=
    [("tick", toString s.tick), ("snapshot_type", s.kind.label), ("hp", toString s.player.hp),
      ("max_hp", toString s.player.maxHp), ("floor", toString s.world.floor),
      ("in_battle", toString s.world.inBattle)]

def diffLine (d : StateDiff) : LogLine where
  message := "Diff"
  fields :=
    [("tick_from", toString d.tickFrom), ("tick_to", toString d.tickTo),
      ("hp_delta", toString d.hpDelta), ("gold_delta", toString d.goldDelta),
      ("exp_delta", toString d.expDelta), ("events", Text.quotedList d.events)]

def endLine (states : List GameState) (diffs : List StateDiff) : LogLine where
  message := "Replay complete"
  fields :=
    [("snapshots", toString states.length), ("diffs", toString diffs.length),
      ("events", toString (diffs.flatMap (·.events)).length)]

/-- The greatest tick. -/
def lastTick : Nat := UInt64.size - 1

/-- The lines about every snapshot and every diff. -/
def replayLines (r : Replayer) : List LogLine :=
  let (states, r) := r.range 0 lastTick
  let (diffs, _) := r.diffs 0 lastTick
  states.map stateLine ++ diffs.map diffLine ++ [endLine states diffs]

/-- The path of the settings. -/
def settingsPath : String := "playtest-config.yaml"

/-- The settings at their path, or the default ones where there is nothing, with the paths of the
environment. -/
def settingsOf (entry : Option Entry) (env : Environment) : Except Settings.Error Settings := do
  let settings ← if entry.isNone then .ok .default else Settings.load entry
  Except.ok (settings.override env)

/-- The filter of the environment if it is well formed, and that of the settings otherwise. -/
def filterOf (settings : Settings) (env : Environment) : LogFilter :=
  match env.logFilter.bind fun text ↦ LogFilter.strict? text.toList with
  | some filter => filter
  | none => .lenient settings.logFilter.toList

/-- Opens the directory of the snapshots and replays them. -/
def replay {m : Type → Type} [Monad m] (disk : Disk m) (salt : Uuid) (settings : Settings)
    (book : RuleBook) : m Report :=
  match settings.snapshotPath with
  | none => pure ⟨[], some .noSnapshotPath⟩
  | some path => do
      let place ← disk.place path
      match Replayer.openAt place .whole salt 0 ⟨book, settings.bypassRules⟩ with
      | .error cause => pure ⟨[], some (.store cause)⟩
      | .ok r => pure ⟨openLine path r.store.size :: replayLines r, none⟩

/-- A session with settings: the lines that would be shown without a filter. -/
def runWith {m : Type → Type} [Monad m] (disk : Disk m) (salt : Uuid) (settings : Settings) :
    m Report := do
  match RuleBook.load (← disk.entry settings.rulesPath) with
  | .error cause => pure ⟨[startLine], some (.rules cause)⟩
  | .ok book =>
    let report ← replay disk salt settings book
    pure { report with
      lines := startLine :: rulesLine book settings.bypassRules :: report.lines }

/-- A session on a disk. -/
def run {m : Type → Type} [Monad m] (disk : Disk m) (env : Environment) (salt : Uuid) :
    m Report := do
  match settingsOf (← disk.entry settingsPath) env with
  | .error cause => pure ⟨[], some (.settings cause)⟩
  | .ok settings =>
    let report ← runWith disk salt settings
    pure { report with lines := report.lines.filter (filterOf settings env).shows }

end Chronicle.Session

import Chronicle.Snapshot.Strategy

/-!
# Settings

The settings of a run: when to take which snapshots, where to keep them, where the rules are, and
what to log. Every setting has a default. The environment overrides where snapshots and rules are.
-/

namespace Chronicle

/-- The settings of a run. -/
structure Settings where
  strategy : Strategy
  /-- The directory of the snapshots; without one they are kept in memory. -/
  snapshotPath : Option String
  /-- The path of the rule document. -/
  rulesPath : String
  /-- Rules are left aside and diffs are direct. -/
  bypassRules : Bool
  /-- The filter of log lines. -/
  logFilter : String
deriving DecidableEq, Repr

/-- What the environment sets. -/
structure Environment where
  snapshotPath : Option String
  rulesPath : Option String
  logFilter : Option String
deriving DecidableEq, Repr

namespace Settings

def default : Settings where
  strategy := .default
  snapshotPath := none
  rulesPath := "config/event_rules.json"
  bypassRules := false
  logFilter := "info"

/-- The settings with the paths of the environment, even if they are empty. -/
def override (s : Settings) (env : Environment) : Settings :=
  { s with
    snapshotPath := env.snapshotPath <|> s.snapshotPath
    rulesPath := env.rulesPath.getD s.rulesPath }

end Settings

end Chronicle

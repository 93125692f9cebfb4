import Chronicle.Transition.Builtin

/-!
# Diffs

A diff sums up a transition: what changed and which events that implies. `Transition.directDiff`
fills it from the two states. `StateDiff.ofComputed` fills it from values by name, each of which
must be of the kind that its place requires; a value that is null or not there leaves its place
neutral.
-/

namespace Chronicle

/-- What changed in a transition. -/
structure StateDiff where
  tickFrom : UInt64
  tickTo : UInt64
  /-- The values behind the diff, by name. -/
  changes : Attributes
  /-- The ids of the events, in the order in which they were found. -/
  events : List String
  hpDelta : Int64
  goldDelta : Int64
  expDelta : Int64
  floorChanged : Bool
  battleStarted : Bool
  battleEnded : Bool
  levelUp : Bool
  itemsObtained : List String
  itemsUsed : List String
  monsterKilled : Option String
  playerDied : Bool
  sceneChanged : Bool
  sceneFrom : Option String
  sceneTo : Option String
  dialogOpened : Bool
  dialogClosed : Bool
  tutorialAdvanced : Bool
  achievementsUnlocked : List String
  featuresUnlocked : List String
  storyProgressed : Bool
  playtimeDelta : Int64
deriving DecidableEq

namespace StateDiff

/-- The event is among those of the diff. -/
def hasEvent (diff : StateDiff) (event : String) : Bool := diff.events.contains event

/-- A value does not have the kind that its place in a diff requires. -/
structure Malformed where
  name : String
  expected : String
deriving DecidableEq, Repr

/-- The value of a name, unless it is null. -/
def given? (computed : Attributes) (name : String) : Option Value :=
  match computed.lookup name with
  | some .null => none
  | found => found

/-- An integer that fits in 64 bits; zero where none is given. -/
def int (computed : Attributes) (name : String) : Except Malformed Int64 :=
  match given? computed name with
  | none => .ok 0
  | some (.int n) =>
    if -0x8000000000000000 ≤ n ∧ n < 0x8000000000000000 then .ok (.ofInt n)
    else .error ⟨name, "an integer"⟩
  | some _ => .error ⟨name, "an integer"⟩

/-- A flag; unset where none is given. -/
def flag (computed : Attributes) (name : String) : Except Malformed Bool :=
  match given? computed name with
  | none => .ok false
  | some (.bool b) => .ok b
  | some _ => .error ⟨name, "a boolean"⟩

/-- A text, if one is given. -/
def text? (computed : Attributes) (name : String) : Except Malformed (Option String) :=
  match given? computed name with
  | none => .ok none
  | some (.str s) => .ok (some s)
  | some _ => .error ⟨name, "a string"⟩

/-- The texts in a list that holds nothing else. -/
def textsOf? : List Value → Option (List String)
  | [] => some []
  | .str s :: rest => (textsOf? rest).map (s :: ·)
  | _ :: _ => none

/-- A list of texts; empty where none is given. -/
def texts (computed : Attributes) (name : String) : Except Malformed (List String) :=
  match given? computed name with
  | none => .ok []
  | some (.list items) =>
    match textsOf? items with
    | some strings => .ok strings
    | none => .error ⟨name, "a list of strings"⟩
  | some _ => .error ⟨name, "a list of strings"⟩

/-- The diff that computed values and events amount to. -/
def ofComputed (tickFrom tickTo : UInt64) (events : List String) (computed : Attributes) :
    Except Malformed StateDiff := do
  let hpDelta ← int computed "hp_delta"
  let goldDelta ← int computed "gold_delta"
  let expDelta ← int computed "exp_delta"
  let floorChanged ← flag computed "floor_changed"
  let battleStarted ← flag computed "battle_started"
  let battleEnded ← flag computed "battle_ended"
  let levelUp ← flag computed "level_up"
  let itemsObtained ← texts computed "item_obtained"
  let itemsUsed ← texts computed "item_used"
  let monsterKilled ← text? computed "monster_killed"
  let playerDied ← flag computed "player_died"
  let sceneChanged ← flag computed "scene_changed"
  let sceneFrom ← text? computed "scene_from"
  let sceneTo ← text? computed "scene_to"
  let dialogOpened ← flag computed "dialog_opened"
  let dialogClosed ← flag computed "dialog_closed"
  let tutorialAdvanced ← flag computed "tutorial_advanced"
  let achievementsUnlocked ← texts computed "achievement_unlocked"
  let featuresUnlocked ← texts computed "feature_unlocked"
  let storyProgressed ← flag computed "story_progress_updated"
  let playtimeDelta ← int computed "playtime_delta_ms"
  Except.ok
    { tickFrom, tickTo, events, hpDelta, goldDelta, expDelta, floorChanged, battleStarted,
      battleEnded, levelUp, itemsObtained, itemsUsed, monsterKilled, playerDied, sceneChanged,
      sceneFrom, sceneTo, dialogOpened, dialogClosed, tutorialAdvanced, achievementsUnlocked,
      featuresUnlocked, storyProgressed, playtimeDelta
      changes := computed }

end StateDiff

namespace Transition

/-- The deltas that are not zero, and the change of the floor. -/
def directChanges (t : Transition) : Attributes :=
  ([("hp_delta", t.hpDelta), ("gold_delta", t.goldDelta), ("exp_delta", t.expDelta)].filterMap
    fun (name, delta) ↦ if delta = 0 then none else some (name, Value.ofInt64 delta)) ++
  if t.floorChanged then [("floor_changed", .bool true)] else []

/-- The ids of the events that are found without rules, each with whether it happened. -/
def signs (t : Transition) : List (String × Bool) :=
  [("floor_advance", t.floorChanged),
    ("battle_start", t.battleStarted),
    ("battle_end", t.battleEnded),
    ("monster_killed", t.monsterKilled.isSome),
    ("player_death", t.playerDied),
    ("level_up", t.levelUp),
    ("player_damaged", t.hpDelta < 0),
    ("player_healed", 0 < t.hpDelta && !t.levelUp),
    ("item_obtain", !t.itemsObtained.isEmpty),
    ("item_use", !t.itemsUsed.isEmpty),
    ("scene_change", t.sceneChanged),
    ("dialog_open", t.dialogOpened),
    ("dialog_close", t.dialogClosed),
    ("tutorial_advance", t.tutorialAdvanced),
    ("achievement_unlock", !t.achievementsUnlocked.isEmpty),
    ("feature_unlock", !t.featuresUnlocked.isEmpty),
    ("story_progress", t.storyProgressed)]

/-- The ids of the events that can be found without rules. -/
def directNames : List String :=
  ["floor_advance", "battle_start", "battle_end", "monster_killed", "player_death", "level_up",
    "player_damaged", "player_healed", "item_obtain", "item_use", "scene_change", "dialog_open",
    "dialog_close", "tutorial_advance", "achievement_unlock", "feature_unlock", "story_progress"]

theorem keys_signs (t : Transition) : Keyed.keys t.signs = directNames := rfl

/-- The events of a transition as they are found without rules. -/
def directEvents (t : Transition) : List String :=
  t.signs.filterMap fun (event, happened) ↦ if happened then some event else none

/-- The diff of a transition without rules. It does not look at the builtin values: a definition
that the two share stands for a formula that each of them spells out. -/
def directDiff (t : Transition) : StateDiff where
  tickFrom := t.prev.tick
  tickTo := t.curr.tick
  changes := t.directChanges
  events := t.directEvents
  hpDelta := t.hpDelta
  goldDelta := t.goldDelta
  expDelta := t.expDelta
  floorChanged := t.floorChanged
  battleStarted := t.battleStarted
  battleEnded := t.battleEnded
  levelUp := t.levelUp
  itemsObtained := t.itemsObtained
  itemsUsed := t.itemsUsed
  monsterKilled := t.monsterKilled
  playerDied := t.playerDied
  sceneChanged := t.sceneChanged
  sceneFrom := t.sceneFrom
  sceneTo := t.sceneTo
  dialogOpened := t.dialogOpened
  dialogClosed := t.dialogClosed
  tutorialAdvanced := t.tutorialAdvanced
  achievementsUnlocked := t.achievementsUnlocked
  featuresUnlocked := t.featuresUnlocked
  storyProgressed := t.storyProgressed
  playtimeDelta := t.playtimeDelta

end Transition

end Chronicle

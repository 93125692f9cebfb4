import Chronicle.Transition.Basic

/-!
# Builtin values

What is read off a transition is open to conditions under fixed names, which a rule document cannot
give to values of its own.
-/

namespace Chronicle

/-- A count as a value. -/
def Value.ofInt64 (n : Int64) : Value := .int n.toInt

/-- A text, or null where there is none. -/
def Value.ofText? : Option String → Value
  | some s => .str s
  | none => .null

/-- A list of texts. -/
def Value.ofTexts (texts : List String) : Value := .list (texts.map .str)

namespace Transition

/-- The builtin values by name. They do not look at the direct diff: a definition that the two share
stands for a formula that each of them spells out. -/
def builtins (t : Transition) : Attributes :=
  [("hp_delta", .ofInt64 t.hpDelta),
    ("mp_delta", .ofInt64 t.mpDelta),
    ("gold_delta", .ofInt64 t.goldDelta),
    ("exp_delta", .ofInt64 t.expDelta),
    ("hp_ratio", ratio t.curr.player.hp t.curr.player.maxHp),
    ("mp_ratio", ratio t.curr.player.mp t.curr.player.maxMp),
    ("item_obtained", .ofTexts t.itemsObtained),
    ("item_used", .ofTexts t.itemsUsed),
    ("item_count_delta", .int t.itemKindsDelta),
    ("floor_changed", .bool t.floorChanged),
    ("battle_started", .bool t.battleStarted),
    ("battle_ended", .bool t.battleEnded),
    ("level_up", .bool t.levelUp),
    ("player_died", .bool t.playerDied),
    ("monster_killed", .ofText? t.monsterKilled),
    ("scene_changed", .bool t.sceneChanged),
    ("scene_from", .ofText? t.sceneFrom),
    ("scene_to", .ofText? t.sceneTo),
    ("dialog_opened", .bool t.dialogOpened),
    ("dialog_closed", .bool t.dialogClosed),
    ("tutorial_advanced", .bool t.tutorialAdvanced),
    ("achievement_unlocked", .ofTexts t.achievementsUnlocked),
    ("feature_unlocked", .ofTexts t.featuresUnlocked),
    ("story_progress_updated", .bool t.storyProgressed),
    ("playtime_delta_ms", .ofInt64 t.playtimeDelta)]

/-- The names of the builtin values. -/
def builtinNames : List String :=
  ["hp_delta", "mp_delta", "gold_delta", "exp_delta", "hp_ratio", "mp_ratio", "item_obtained",
    "item_used", "item_count_delta", "floor_changed", "battle_started", "battle_ended", "level_up",
    "player_died", "monster_killed", "scene_changed", "scene_from", "scene_to", "dialog_opened",
    "dialog_closed", "tutorial_advanced", "achievement_unlocked", "feature_unlocked",
    "story_progress_updated", "playtime_delta_ms"]

theorem keys_builtins (t : Transition) : Keyed.keys t.builtins = builtinNames := rfl

end Transition

end Chronicle

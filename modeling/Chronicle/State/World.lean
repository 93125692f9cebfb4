import Chronicle.Json.Record
import Chronicle.State.Tally

/-!
# The world around the player

The dungeon and its calendar, what the player has achieved, what it looks at, and what it has
bought, accepted, and claimed.
-/

namespace Chronicle

/-- The dungeon and the calendar. -/
structure World where
  floor : UInt32
  killedOnFloor : UInt32
  monstersToAdvance : UInt32
  canAdvance : Bool
  inBattle : Bool
  areaId : String
  areaName : String
  gameDay : UInt32
  timePeriod : String
  weekNumber : UInt32
  monthNumber : UInt32
  activeEvents : List Attributes
deriving DecidableEq

/-- The progress that outlives the player character. -/
structure Character where
  skillTree : Tally
  achievements : List String
  unlockedFeatures : List String
  storyProgress : Attributes
  playtimeMs : Int64
  totalBattles : UInt32
  totalKills : UInt32
  highestFloor : UInt32
  deaths : UInt32
  loginStreak : UInt32
  lastLoginDate : Option String
deriving DecidableEq

/-- The screen that the player looks at. -/
structure Screen where
  currentScene : String
  activeDialog : Option String
  dialogOptions : List String
  selectedOptions : List String
  tutorialStep : Option Int64
  notifications : List Attributes
  hoveredElement : Option String
  focusedPanel : Option String
  sceneEnterTime : Binary64
  lastActionTime : Binary64
deriving DecidableEq

/-- The quests. -/
structure Quests where
  activeQuests : List Attributes
  completedQuests : List String
  dailyResetCount : UInt32
  unlockedChains : List String
deriving DecidableEq

/-- What the player has bought. -/
structure Economy where
  premiumCurrency : Int64
  vipLevel : UInt32
  vipExp : Int64
  totalSpent : Int64
  shopLastAction : Option String
  shopLastItem : Option String
deriving DecidableEq

/-- The progress through events that end. -/
structure EventProgress where
  rewardsClaimed : List String
  progress : Tally
deriving DecidableEq

/-- The first floor, on the first day. -/
def World.default : World where
  floor := 1
  killedOnFloor := 0
  monstersToAdvance := 3
  canAdvance := false
  inBattle := false
  areaId := "default"
  areaName := "Starting Area"
  gameDay := 1
  timePeriod := "day"
  weekNumber := 1
  monthNumber := 1
  activeEvents := []

open Json Codec

def World.fields : Fields World World :=
  (Fields.pure World.mk)
    |>.required "floor" uint32 floor
    |>.optional "killed_on_floor" uint32 killedOnFloor 0 ["killed"]
    |>.optional "monsters_to_advance" uint32 monstersToAdvance 3
    |>.optional "can_advance" bool canAdvance false ["canAdvanceFloor"]
    |>.required "in_battle" bool inBattle
    |>.optional "area_id" str areaId "default"
    |>.optional "area_name" str areaName "Starting Area"
    |>.optional "game_day" uint32 gameDay 1
    |>.optional "time_period" str timePeriod "day"
    |>.optional "week_number" uint32 weekNumber 1
    |>.optional "month_number" uint32 monthNumber 1
    |>.optional "active_events" (list attributes) activeEvents []

def World.codec : Codec World := .record "WorldState" fields

namespace Character

def default : Character where
  skillTree := .empty
  achievements := []
  unlockedFeatures := []
  storyProgress := []
  playtimeMs := 0
  totalBattles := 0
  totalKills := 0
  highestFloor := 1
  deaths := 0
  loginStreak := 0
  lastLoginDate := none

def fields : Fields Character Character :=
  (Fields.pure Character.mk)
    |>.optional "skill_tree" Tally.codec skillTree default.skillTree
    |>.optional "achievements" (list str) achievements default.achievements
    |>.optional "unlocked_features" (list str) unlockedFeatures default.unlockedFeatures
    |>.optional "story_progress" attributes storyProgress default.storyProgress
    |>.optional "playtime_ms" int64 playtimeMs default.playtimeMs
    |>.optional "total_battles" uint32 totalBattles default.totalBattles
    |>.optional "total_kills" uint32 totalKills default.totalKills
    |>.optional "highest_floor" uint32 highestFloor default.highestFloor
    |>.optional "deaths" uint32 deaths default.deaths
    |>.optional "login_streak" uint32 loginStreak default.loginStreak
    |>.optional "last_login_date" (option str) lastLoginDate default.lastLoginDate

def codec : Codec Character := .record "CharacterState" fields

end Character

namespace Screen

def default : Screen where
  currentScene := "explore"
  activeDialog := none
  dialogOptions := []
  selectedOptions := []
  tutorialStep := none
  notifications := []
  hoveredElement := none
  focusedPanel := none
  sceneEnterTime := .zero false
  lastActionTime := .zero false

def fields : Fields Screen Screen :=
  (Fields.pure Screen.mk)
    |>.optional "current_scene" str currentScene default.currentScene
    |>.optional "active_dialog" (option str) activeDialog default.activeDialog
    |>.optional "dialog_options" (list str) dialogOptions default.dialogOptions
    |>.optional "selected_options" (list str) selectedOptions default.selectedOptions
    |>.optional "tutorial_step" (option int64) tutorialStep default.tutorialStep
    |>.optional "notifications" (list attributes) notifications default.notifications
    |>.optional "hovered_element" (option str) hoveredElement default.hoveredElement
    |>.optional "focused_panel" (option str) focusedPanel default.focusedPanel
    |>.optional "scene_enter_time" float sceneEnterTime default.sceneEnterTime
    |>.optional "last_action_time" float lastActionTime default.lastActionTime

def codec : Codec Screen := .record "UiState" fields

end Screen

namespace Quests

def default : Quests := ⟨[], [], 0, []⟩

def fields : Fields Quests Quests :=
  (Fields.pure Quests.mk)
    |>.optional "active_quests" (list attributes) activeQuests default.activeQuests
    |>.optional "completed_quests" (list str) completedQuests default.completedQuests
    |>.optional "daily_reset_count" uint32 dailyResetCount default.dailyResetCount
    |>.optional "unlocked_chains" (list str) unlockedChains default.unlockedChains

def codec : Codec Quests := .record "QuestState" fields

end Quests

namespace Economy

def default : Economy := ⟨0, 0, 0, 0, none, none⟩

def fields : Fields Economy Economy :=
  (Fields.pure Economy.mk)
    |>.optional "premium_currency" int64 premiumCurrency default.premiumCurrency
    |>.optional "vip_level" uint32 vipLevel default.vipLevel
    |>.optional "vip_exp" int64 vipExp default.vipExp
    |>.optional "total_spent" int64 totalSpent default.totalSpent
    |>.optional "shop_last_action" (option str) shopLastAction default.shopLastAction
    |>.optional "shop_last_item" (option str) shopLastItem default.shopLastItem

def codec : Codec Economy := .record "EconomyState" fields

end Economy

namespace EventProgress

def default : EventProgress := ⟨[], .empty⟩

def fields : Fields EventProgress EventProgress :=
  (Fields.pure EventProgress.mk)
    |>.optional "rewards_claimed" (list str) rewardsClaimed default.rewardsClaimed
    |>.optional "event_progress" Tally.codec progress default.progress

def codec : Codec EventProgress := .record "EventState" fields

end EventProgress

end Chronicle

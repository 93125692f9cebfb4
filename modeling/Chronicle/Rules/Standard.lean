import Chronicle.Rules.Document

/-!
# The standard rule document

The rules that a run is recorded with unless it brings its own.
-/

namespace Chronicle.RuleBook

/-- The standard rule document. -/
def standardText : String :=
  "\x7b
  \"_comment\": \"Event rules evaluated for every tick transition. Lower priority fires first; later rules may reference earlier events by id.\",
  \"state_change_events\": \x7b
    \"combat\": \x7b
      \"player_death\": \x7b
        \"condition\": \"player_died\",
        \"description\": \"Player hit points dropped to zero\",
        \"priority\": 0,
        \"data_extract\": [\"curr.world.floor\", \"prev.monster.id\"]
      \x7d,
      \"battle_start\": \x7b
        \"condition\": \"battle_started\",
        \"description\": \"A battle began\",
        \"priority\": 1,
        \"data_extract\": [\"curr.monster.id\", \"curr.monster.is_boss\"]
      \x7d,
      \"battle_end\": \x7b
        \"condition\": \"battle_ended\",
        \"description\": \"A battle finished\",
        \"priority\": 2
      \x7d,
      \"monster_killed\": \x7b
        \"condition\": \"monster_killed != null\",
        \"description\": \"The monster being fought was defeated\",
        \"priority\": 3,
        \"data_extract\": [\"monster_killed\"]
      \x7d,
      \"boss_defeated\": \x7b
        \"condition\": \"monster_killed && prev.monster.is_boss == true\",
        \"description\": \"A boss monster was defeated\",
        \"priority\": 4,
        \"data_extract\": [\"prev.monster.name\"]
      \x7d,
      \"player_damaged\": \x7b
        \"condition\": \"hp_delta < 0\",
        \"description\": \"Player lost hit points\",
        \"priority\": 5,
        \"data_extract\": [\"hp_delta\", \"hp_ratio\"]
      \x7d,
      \"low_hp_warning\": \x7b
        \"condition\": \"is_low_hp && player_damaged && !player_death\",
        \"description\": \"Player took damage while below 30% hit points\",
        \"priority\": 6,
        \"data_extract\": [\"hp_ratio\"]
      \x7d,
      \"player_healed\": \x7b
        \"condition\": \"hp_delta > 0 && !level_up\",
        \"description\": \"Player recovered hit points\",
        \"priority\": 7,
        \"data_extract\": [\"hp_delta\"]
      \x7d,
      \"critical_hit\": \x7b
        \"condition\": \"action_result.critical == true\",
        \"description\": \"The last action landed a critical hit\",
        \"priority\": 8,
        \"data_extract\": [\"action_result.damage\"]
      \x7d
    \x7d,
    \"progress\": \x7b
      \"level_up\": \x7b
        \"condition\": \"level_up\",
        \"description\": \"Player gained a level\",
        \"priority\": 1,
        \"data_extract\": [\"curr.player.level\"]
      \x7d,
      \"floor_advance\": \x7b
        \"condition\": \"floor_changed\",
        \"description\": \"Player moved to another floor\",
        \"priority\": 1,
        \"data_extract\": [\"curr.world.floor\"]
      \x7d,
      \"exp_gain\": \x7b
        \"condition\": \"exp_delta > 0\",
        \"description\": \"Player gained experience\",
        \"priority\": 9,
        \"data_extract\": [\"exp_delta\"]
      \x7d,
      \"gold_gain\": \x7b
        \"condition\": \"gold_delta > 0\",
        \"description\": \"Player gained gold\",
        \"priority\": 9,
        \"data_extract\": [\"gold_delta\"]
      \x7d,
      \"gold_spent\": \x7b
        \"condition\": \"gold_delta < 0\",
        \"description\": \"Player spent gold\",
        \"priority\": 9,
        \"data_extract\": [\"gold_delta\"]
      \x7d
    \x7d,
    \"items\": \x7b
      \"item_obtain\": \x7b
        \"condition\": \"len(item_obtained) > 0\",
        \"description\": \"New items entered the inventory\",
        \"priority\": 10,
        \"data_extract\": [\"item_obtained\"]
      \x7d,
      \"item_use\": \x7b
        \"condition\": \"len(item_used) > 0\",
        \"description\": \"Items left the inventory\",
        \"priority\": 10,
        \"data_extract\": [\"item_used\"]
      \x7d
    \x7d,
    \"ui\": \x7b
      \"_note\": \"Scene and dialog transitions\",
      \"scene_change\": \x7b
        \"condition\": \"scene_changed\",
        \"description\": \"The active scene changed\",
        \"priority\": 11,
        \"data_extract\": [\"scene_from\", \"scene_to\"]
      \x7d,
      \"dialog_open\": \x7b
        \"condition\": \"dialog_opened\",
        \"description\": \"A dialog opened\",
        \"priority\": 12,
        \"data_extract\": [\"curr.ui.active_dialog\"]
      \x7d,
      \"dialog_close\": \x7b
        \"condition\": \"dialog_closed\",
        \"description\": \"A dialog closed\",
        \"priority\": 12
      \x7d,
      \"tutorial_advance\": \x7b
        \"condition\": \"tutorial_advanced\",
        \"description\": \"The tutorial moved to a later step\",
        \"priority\": 13,
        \"data_extract\": [\"curr.ui.tutorial_step\"]
      \x7d
    \x7d,
    \"meta\": \x7b
      \"achievement_unlock\": \x7b
        \"condition\": \"len(achievement_unlocked) > 0\",
        \"description\": \"Achievements were unlocked\",
        \"priority\": 14,
        \"data_extract\": [\"achievement_unlocked\"]
      \x7d,
      \"feature_unlock\": \x7b
        \"condition\": \"len(feature_unlocked) > 0\",
        \"description\": \"Game features were unlocked\",
        \"priority\": 14,
        \"data_extract\": [\"feature_unlocked\"]
      \x7d,
      \"story_progress\": \x7b
        \"condition\": \"story_progress_updated\",
        \"description\": \"Story progress changed\",
        \"priority\": 15
      \x7d
    \x7d
  \x7d,
  \"computed_values\": \x7b
    \"is_low_hp\": \"hp_ratio < 0.3\",
    \"kills_gained\": \x7b
      \"expression\": \"curr.character.total_kills - prev.character.total_kills\"
    \x7d
  \x7d
\x7d
"

end Chronicle.RuleBook

import Chronicle.Proofs.Transition.Inventory
import Chronicle.Proofs.Value.Sameness
import Chronicle.Transition.Diff

/-!
# Transitions without a change

A state that is followed by itself has the neutral diff: `Transition.directDiff_self`. Each part of
a diff compares two things that are one here. For most of them that is an equality of texts or
numbers; free-form records are compared as trees, and inventories by the counts of their ids.
-/

namespace Chronicle

/-- The diff of a state that nothing has happened to. -/
def StateDiff.unchanged (tick : UInt64) : StateDiff where
  tickFrom := tick
  tickTo := tick
  changes := []
  events := []
  hpDelta := 0
  goldDelta := 0
  expDelta := 0
  floorChanged := false
  battleStarted := false
  battleEnded := false
  levelUp := false
  itemsObtained := []
  itemsUsed := []
  monsterKilled := none
  playerDied := false
  sceneChanged := false
  sceneFrom := none
  sceneTo := none
  dialogOpened := false
  dialogClosed := false
  tutorialAdvanced := false
  achievementsUnlocked := []
  featuresUnlocked := []
  storyProgressed := false
  playtimeDelta := 0

/-! ### A state and itself -/

theorem difference_self (n : Int64) : difference n n = 0 := by
  rw [difference, Int.sub_self]
  rfl

theorem added_self (entries : List String) : added entries entries = [] := by
  refine List.filter_eq_nil_iff.mpr fun entry hentry ↦ ?_
  rw [List.contains_iff_mem.mpr hentry]
  exact Bool.false_ne_true

namespace Transition

variable (s : GameState)

theorem itemsObtained_self : itemsObtained ⟨s, s⟩ = [] :=
  Inventory.grown_self s.inventory.nodup_keys_counts

theorem itemsUsed_self : itemsUsed ⟨s, s⟩ = [] :=
  Inventory.grown_self s.inventory.nodup_keys_counts

theorem monsterKilled_self : monsterKilled ⟨s, s⟩ = none := by
  rw [monsterKilled]
  cases s.monster <;> rfl

theorem sceneChanged_self : sceneChanged ⟨s, s⟩ = false := bne_self_eq_false _

/-- The player is alive or is not. -/
theorem playerDied_self : playerDied ⟨s, s⟩ = false := by
  refine Bool.eq_false_iff.mpr fun h ↦ ?_
  rw [playerDied, Bool.and_eq_true, decide_eq_true_eq, decide_eq_true_eq] at h
  exact Int64.not_lt.mpr h.1 h.2

theorem tutorialAdvanced_self : tutorialAdvanced ⟨s, s⟩ = false := by
  rw [tutorialAdvanced]
  cases s.screen.tutorialStep with
  | none => rfl
  | some step => exact decide_eq_false Int64.lt_irrefl

theorem storyProgressed_self : storyProgressed ⟨s, s⟩ = false := by
  rw [storyProgressed, Attributes.sameAs, Value.sameAs_self]
  rfl

/-- The direct diff of a state and itself is neutral. -/
theorem directDiff_self : directDiff ⟨s, s⟩ = .unchanged s.tick := by
  simp [directDiff, StateDiff.unchanged, directChanges, directEvents, signs, hpDelta, goldDelta,
    expDelta, playtimeDelta, floorChanged, battleStarted, battleEnded, levelUp, sceneFrom, sceneTo,
    dialogOpened, dialogClosed, achievementsUnlocked, featuresUnlocked, difference_self,
    added_self, itemsObtained_self, itemsUsed_self, monsterKilled_self, sceneChanged_self,
    playerDied_self, tutorialAdvanced_self, storyProgressed_self]

/-- The builtin values of a state and itself say nothing, apart from the ratios. -/
theorem truthy_builtins_self : ∀ entry ∈ builtins ⟨s, s⟩, entry.1 ≠ "hp_ratio" →
    entry.1 ≠ "mp_ratio" → entry.2.truthy = false := by
  have h := directDiff_self s
  simp only [directDiff, StateDiff.unchanged, StateDiff.mk.injEq] at h
  obtain ⟨-, -, -, -, hp, gold, exp, floor, started, ended, level, obtained, used, killed, died,
    scene, sceneFrom, sceneTo, opened, closed, tutorial, achievements, features, story,
    playtime⟩ := h
  have mp : mpDelta ⟨s, s⟩ = 0 := difference_self _
  have kinds : itemKindsDelta ⟨s, s⟩ = 0 := Int.sub_self _
  simp [builtins, Value.ofInt64, Value.ofTexts, Value.ofText?, Value.truthy, hp, mp, gold, exp,
    obtained, used, kinds, floor, started, ended, level, died, killed, scene, sceneFrom, sceneTo,
    opened, closed, tutorial, achievements, features, story, playtime]

end Transition

end Chronicle

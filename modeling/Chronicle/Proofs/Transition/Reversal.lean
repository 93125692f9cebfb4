import Chronicle.Proofs.Transition.Diff
import Chronicle.Proofs.Value.Sameness

/-!
# Transitions backwards

The direct diff of a transition backwards mirrors the one forwards:
`Transition.directDiff_reversed`. What began has ended, what was obtained is used, and what was
gained is lost where that fits in 64 bits. Whether two parts differ does not depend on the
direction, which for free-form records takes distinct names, and what goes up in one direction does
not go up in the other.
-/

namespace Chronicle

/-- The events of which each stands for the other one backwards. -/
def pairedEvents : List (String × String) :=
  [("battle_start", "battle_end"), ("dialog_open", "dialog_close"), ("item_obtain", "item_use")]

/-- One diff says backwards what the other one says. -/
structure StateDiff.Mirrors (diff back : StateDiff) : Prop where
  tickFrom : back.tickFrom = diff.tickTo
  tickTo : back.tickTo = diff.tickFrom
  deltas : ∀ gauge ∈ gauges, (gauge.delta back).toInt = -(gauge.delta diff).toInt
  battleStarted : back.battleStarted = diff.battleEnded
  battleEnded : back.battleEnded = diff.battleStarted
  dialogOpened : back.dialogOpened = diff.dialogClosed
  dialogClosed : back.dialogClosed = diff.dialogOpened
  itemsObtained : back.itemsObtained = diff.itemsUsed
  itemsUsed : back.itemsUsed = diff.itemsObtained
  sceneFrom : back.sceneFrom = diff.sceneTo
  sceneTo : back.sceneTo = diff.sceneFrom
  floorChanged : back.floorChanged = diff.floorChanged
  sceneChanged : back.sceneChanged = diff.sceneChanged
  storyProgressed : back.storyProgressed = diff.storyProgressed
  levelUp : ¬ (diff.levelUp = true ∧ back.levelUp = true)
  playerDied : ¬ (diff.playerDied = true ∧ back.playerDied = true)
  tutorialAdvanced : ¬ (diff.tutorialAdvanced = true ∧ back.tutorialAdvanced = true)
  events : ∀ pair ∈ pairedEvents,
    back.hasEvent pair.1 = diff.hasEvent pair.2 ∧ back.hasEvent pair.2 = diff.hasEvent pair.1

/-- A difference within 64 bits is turned around with its sides unless it is the least number. -/
theorem toInt_difference_swap {a b : Int64} (hlow : -2 ^ 63 < a.toInt - b.toInt)
    (hhigh : a.toInt - b.toInt < 2 ^ 63) :
    (difference b a).toInt = -(difference a b).toInt := by
  rw [Gauge.toInt_difference (by omega) (by omega), Gauge.toInt_difference (by omega) hhigh,
    Int.neg_sub]

namespace Transition

/-- The transition that leads back. -/
def reversed (t : Transition) : Transition := ⟨t.curr, t.prev⟩

variable (t : Transition)

theorem sceneChanged_reversed : t.reversed.sceneChanged = t.sceneChanged := bne_comm

theorem floorChanged_reversed : t.reversed.floorChanged = t.floorChanged := bne_comm

theorem sceneFrom_reversed : t.reversed.sceneFrom = t.sceneTo := by
  rw [sceneFrom, sceneChanged_reversed]
  rfl

theorem sceneTo_reversed : t.reversed.sceneTo = t.sceneFrom := by
  rw [sceneTo, sceneChanged_reversed]
  rfl

theorem storyProgressed_reversed {t : Transition}
    (hprev : (Value.object t.prev.character.storyProgress).Distinct)
    (hcurr : (Value.object t.curr.character.storyProgress).Distinct) :
    t.reversed.storyProgressed = t.storyProgressed :=
  congrArg (!·) (Value.sameAs_comm hprev hcurr)

theorem not_levelUp_reversed : ¬ (t.levelUp = true ∧ t.reversed.levelUp = true) := by
  intro ⟨h, hback⟩
  exact UInt32.lt_asymm (of_decide_eq_true h) (of_decide_eq_true hback)

/-- Whoever is dead at the end was not so at the beginning. -/
theorem not_playerDied_reversed : ¬ (t.playerDied = true ∧ t.reversed.playerDied = true) := by
  intro ⟨h, hback⟩
  rw [playerDied, Bool.and_eq_true, decide_eq_true_eq, decide_eq_true_eq] at h hback
  exact Int64.not_lt.mpr h.1 hback.2

theorem not_tutorialAdvanced_reversed :
    ¬ (t.tutorialAdvanced = true ∧ t.reversed.tutorialAdvanced = true) := by
  intro ⟨h, hback⟩
  rw [tutorialAdvanced] at h hback
  cases hbefore : t.prev.screen.tutorialStep with
  | none => simp [hbefore] at h
  | some before =>
      cases hafter : t.curr.screen.tutorialStep with
      | none => simp [hafter] at h
      | some after =>
          simp only [reversed, hbefore, hafter, decide_eq_true_eq] at h hback
          exact Int64.lt_asymm h hback

/-- The events of a pair have the same sign in opposite directions. -/
theorem hasEvent_reversed : ∀ pair ∈ pairedEvents,
    t.reversed.directDiff.hasEvent pair.1 = t.directDiff.hasEvent pair.2 ∧
      t.reversed.directDiff.hasEvent pair.2 = t.directDiff.hasEvent pair.1 := by
  have h := t.contains_directEvents
  have hback := t.reversed.contains_directEvents
  simp only [signs, List.forall_mem_cons] at h hback
  obtain ⟨-, hstart, hend, -, -, -, -, -, hobtain, huse, -, hopen, hclose, -⟩ := h
  obtain ⟨-, hstart', hend', -, -, -, -, -, hobtain', huse', -, hopen', hclose', -⟩ := hback
  intro pair hpair
  simp only [pairedEvents, List.mem_cons, List.not_mem_nil, or_false] at hpair
  obtain rfl | rfl | rfl := hpair
  · exact ⟨hstart'.trans hend.symm, hend'.trans hstart.symm⟩
  · exact ⟨hopen'.trans hclose.symm, hclose'.trans hopen.symm⟩
  · exact ⟨hobtain'.trans huse.symm, huse'.trans hobtain.symm⟩

/-- The direct diff of a transition backwards mirrors the one forwards, if each difference fits in
64 bits in both directions. The free-form records are maps, in which no name stands twice. -/
theorem directDiff_reversed {t : Transition}
    (hfits : ∀ gauge ∈ gauges,
      -2 ^ 63 < (gauge.read t.curr).toInt - (gauge.read t.prev).toInt ∧
        (gauge.read t.curr).toInt - (gauge.read t.prev).toInt < 2 ^ 63)
    (hprev : (Value.object t.prev.character.storyProgress).Distinct)
    (hcurr : (Value.object t.curr.character.storyProgress).Distinct) :
    t.directDiff.Mirrors t.reversed.directDiff where
  tickFrom := rfl
  tickTo := rfl
  deltas := by
    intro gauge hgauge
    have hdelta (t : Transition) :
        gauge.delta t.directDiff = difference (gauge.read t.curr) (gauge.read t.prev) :=
      Gauge.delta_direct hgauge t t.directChanges t.directEvents
    obtain ⟨hlow, hhigh⟩ := hfits gauge hgauge
    rw [hdelta, hdelta]
    exact toInt_difference_swap hlow hhigh
  battleStarted := rfl
  battleEnded := rfl
  dialogOpened := rfl
  dialogClosed := rfl
  itemsObtained := rfl
  itemsUsed := rfl
  sceneFrom := t.sceneFrom_reversed
  sceneTo := t.sceneTo_reversed
  floorChanged := t.floorChanged_reversed
  sceneChanged := t.sceneChanged_reversed
  storyProgressed := storyProgressed_reversed hprev hcurr
  levelUp := t.not_levelUp_reversed
  playerDied := t.not_playerDied_reversed
  tutorialAdvanced := t.not_tutorialAdvanced_reversed
  events := t.hasEvent_reversed

/-- The player finds a potion, and in the battle that begins a blow takes off hit points. -/
theorem directDiff_reversed_ambush :
    let calm := GameState.initial 1 (.zero false)
    let ambush := { calm with
      tick := 2
      player := { calm.player with hp := 80 }
      world := { calm.world with inBattle := true }
      inventory := ⟨20, [⟨"potion", 1, []⟩]⟩
      character := { calm.character with storyProgress := [("act", .int 1), ("route", .null)] } }
    let t : Transition := ⟨calm, ambush⟩
    t.directDiff.Mirrors t.reversed.directDiff ∧
      t.directDiff.events = ["battle_start", "player_damaged", "item_obtain", "story_progress"] ∧
      t.reversed.directDiff.events =
        ["battle_end", "player_healed", "item_use", "story_progress"] := by
  intro calm ambush t
  have hfits : ∀ gauge ∈ gauges,
      -2 ^ 63 < (gauge.read t.curr).toInt - (gauge.read t.prev).toInt ∧
        (gauge.read t.curr).toInt - (gauge.read t.prev).toInt < 2 ^ 63 := by
    decide
  have hprev : (Value.object t.prev.character.storyProgress).Distinct :=
    Value.distinct_object.mpr ⟨.nil, nofun⟩
  have hcurr : (Value.object t.curr.character.storyProgress).Distinct := by
    simp [t, ambush, Value.Distinct, Value.DistinctMembers, Keyed.keys]
  exact ⟨directDiff_reversed hfits hprev hcurr, by decide, by decide⟩

end Transition

end Chronicle

import Chronicle.State.Basic
import Chronicle.Transition.Inventory

/-!
# Transitions

A transition leads from one state to a later one. Nothing in a state says what happened on the way;
it is read off the two states here.

Two algorithms do so, the builtin values with the diff that they amount to, and the direct diff that
is the fallback. Each spells out a formula of its own for every delta and every sign. Where both
have one, the two formulas are the same, and it stands here once for both.
-/

namespace Chronicle

/-- Two states, the earlier and the later one. -/
structure Transition where
  prev : GameState
  curr : GameState

/-- The difference of two integers, kept within 64 bits. -/
def difference (a b : Int64) : Int64 :=
  .ofInt (max (-0x8000000000000000) (min 0x7FFFFFFFFFFFFFFF (a.toInt - b.toInt)))

/-- The entries that the earlier list does not have, in the order of the later one. -/
def added (prev curr : List String) : List String :=
  curr.filter fun entry ↦ !prev.contains entry

/-- A dialog is open unless its place is empty. -/
def isOpen (dialog : Option String) : Bool :=
  match dialog with
  | some name => name != ""
  | none => false

/-- The part that a value is of a maximum, or zero where the maximum is not positive. -/
def ratio (value maximum : Int64) : Value :=
  if 0 < maximum then .ofFloat? ((Binary64.ofInt value.toInt).div (.ofInt maximum.toInt))
  else .int 0

namespace Transition

def hpDelta (t : Transition) : Int64 := difference t.curr.player.hp t.prev.player.hp

def mpDelta (t : Transition) : Int64 := difference t.curr.player.mp t.prev.player.mp

def goldDelta (t : Transition) : Int64 := difference t.curr.player.gold t.prev.player.gold

def expDelta (t : Transition) : Int64 := difference t.curr.player.exp t.prev.player.exp

def playtimeDelta (t : Transition) : Int64 :=
  difference t.curr.character.playtimeMs t.prev.character.playtimeMs

def floorChanged (t : Transition) : Bool := t.curr.world.floor != t.prev.world.floor

def battleStarted (t : Transition) : Bool := t.curr.world.inBattle && !t.prev.world.inBattle

def battleEnded (t : Transition) : Bool := t.prev.world.inBattle && !t.curr.world.inBattle

def levelUp (t : Transition) : Bool := t.prev.player.level < t.curr.player.level

def playerDied (t : Transition) : Bool := t.curr.player.hp ≤ 0 && 0 < t.prev.player.hp

/-- The id of the monster that was there until the battle ended. -/
def monsterKilled (t : Transition) : Option String :=
  match t.prev.monster, t.curr.monster with
  | some monster, none => if t.battleEnded then some monster.id else none
  | _, _ => none

def itemsObtained (t : Transition) : List String :=
  Inventory.obtained t.prev.inventory t.curr.inventory

def itemsUsed (t : Transition) : List String := Inventory.used t.prev.inventory t.curr.inventory

/-- By how much the number of different ids in the inventory grew. -/
def itemKindsDelta (t : Transition) : Int :=
  (t.curr.inventory.counts.length : Int) - t.prev.inventory.counts.length

def sceneChanged (t : Transition) : Bool := t.curr.screen.currentScene != t.prev.screen.currentScene

/-- The scene that was left. -/
def sceneFrom (t : Transition) : Option String :=
  if t.sceneChanged then some t.prev.screen.currentScene else none

/-- The scene that was entered. -/
def sceneTo (t : Transition) : Option String :=
  if t.sceneChanged then some t.curr.screen.currentScene else none

def dialogOpened (t : Transition) : Bool :=
  isOpen t.curr.screen.activeDialog && !isOpen t.prev.screen.activeDialog

def dialogClosed (t : Transition) : Bool :=
  isOpen t.prev.screen.activeDialog && !isOpen t.curr.screen.activeDialog

/-- The tutorial runs in both states and is at a later step. -/
def tutorialAdvanced (t : Transition) : Bool :=
  match t.prev.screen.tutorialStep, t.curr.screen.tutorialStep with
  | some before, some after => before < after
  | _, _ => false

def achievementsUnlocked (t : Transition) : List String :=
  added t.prev.character.achievements t.curr.character.achievements

def featuresUnlocked (t : Transition) : List String :=
  added t.prev.character.unlockedFeatures t.curr.character.unlockedFeatures

def storyProgressed (t : Transition) : Bool :=
  !t.curr.character.storyProgress.sameAs t.prev.character.storyProgress

end Transition

end Chronicle

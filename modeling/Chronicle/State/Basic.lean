import Chronicle.Json.Printer
import Chronicle.Snapshot.Id
import Chronicle.Snapshot.Kind
import Chronicle.State.Combatant
import Chronicle.State.Inventory
import Chronicle.State.World

/-!
# Game states

A game state is the whole simulated world at one tick. It also says as what kind of snapshot it was
saved and which snapshot comes before it in its chain. Conditions see a state as its tree.
-/

namespace Chronicle

/-- The world at one tick. -/
structure GameState where
  tick : UInt64
  timestamp : Binary64
  player : Player
  /-- The monster, during a battle. -/
  monster : Option Monster
  inventory : Inventory
  world : World
  character : Character
  screen : Screen
  quests : Quests
  economy : Economy
  events : EventProgress
  kind : SnapshotKind
  parent : Option SnapshotId
deriving DecidableEq

namespace GameState

/-- The world before anything has happened in it. -/
def initial (tick : UInt64) (timestamp : Binary64) : GameState where
  tick := tick
  timestamp := timestamp
  player := .default
  monster := none
  inventory := .default
  world := .default
  character := .default
  screen := .default
  quests := .default
  economy := .default
  events := .default
  kind := .full
  parent := none

open Json Codec

def fields : Fields GameState GameState :=
  (Fields.pure GameState.mk)
    |>.required "tick" uint64 tick
    |>.required "timestamp" float timestamp
    |>.required "player" Player.codec player
    |>.optional "monster" (option Monster.codec) monster none
    |>.required "inventory" Inventory.codec inventory
    |>.required "world" World.codec world
    |>.optional "character" Character.codec character .default
    |>.optional "ui" Screen.codec screen .default
    |>.optional "quest" Quests.codec quests .default
    |>.optional "economy" Economy.codec economy .default
    |>.optional "event" EventProgress.codec events .default
    |>.optional "snapshot_type" SnapshotKind.codec kind .full
    |>.optional "parent_id" (option SnapshotId.codec) parent none

def codec : Codec GameState := .record "GameState" fields

/-- The state as a value. -/
def tree (s : GameState) : Value := codec.write s

/-- The text in which a state is stored. -/
def text (s : GameState) : List Char := s.tree.pretty

/-- The state in a text. -/
def parse (cs : List Char) : Except ReadError GameState := codec.readText cs

end GameState

end Chronicle

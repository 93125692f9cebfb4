import Chronicle.Json.Record
import Chronicle.State.Tally

/-!
# The player and the monster

What the player character and the monster it fights bring to a battle.
-/

namespace Chronicle

/-- The chance that an attack is critical, where none is given: one in ten. -/
def defaultCritRate : Binary64 := (Decimal.toBinary64 false ⟨1, -1⟩).getD (.zero false)

/-- The chance to dodge an attack, where none is given: one in twenty. -/
def defaultDodgeRate : Binary64 := (Decimal.toBinary64 false ⟨5, -2⟩).getD (.zero false)

/-- The player character. -/
structure Player where
  hp : Int64
  maxHp : Int64
  mp : Int64
  maxMp : Int64
  level : UInt32
  exp : Int64
  /-- The experience that the next level takes. -/
  maxExp : Int64
  attack : Int64
  defense : Int64
  gold : Int64
  critRate : Binary64
  dodgeRate : Binary64
  weapon : Option String
  armor : Option String
  learnedSkills : List String
  equippedSkills : List String
  skillCooldowns : Tally
  stamina : Int64
  maxStamina : Int64
  buffs : List Attributes
  debuffs : List Attributes
deriving DecidableEq

/-- The monster in a battle. -/
structure Monster where
  id : String
  name : String
  hp : Int64
  maxHp : Int64
  attack : Int64
  defense : Int64
  critRate : Binary64
  dodgeRate : Binary64
  isBoss : Bool
deriving DecidableEq

/-- The player character as it starts out. -/
def Player.default : Player where
  hp := 100
  maxHp := 100
  mp := 50
  maxMp := 50
  level := 1
  exp := 0
  maxExp := 100
  attack := 10
  defense := 5
  gold := 0
  critRate := defaultCritRate
  dodgeRate := defaultDodgeRate
  weapon := none
  armor := none
  learnedSkills := []
  equippedSkills := []
  skillCooldowns := .empty
  stamina := 100
  maxStamina := 100
  buffs := []
  debuffs := []

open Json Codec

def Player.fields : Fields Player Player :=
  (Fields.pure Player.mk)
    |>.required "hp" int64 hp
    |>.required "max_hp" int64 maxHp
    |>.optional "mp" int64 mp 0
    |>.optional "max_mp" int64 maxMp 0
    |>.required "level" uint32 level
    |>.required "exp" int64 exp
    |>.required "max_exp" int64 maxExp
    |>.required "atk" int64 attack
    |>.optional "defense" int64 defense 0 ["def"]
    |>.required "gold" int64 gold
    |>.optional "crit_rate" float critRate defaultCritRate
    |>.optional "dodge_rate" float dodgeRate defaultDodgeRate
    |>.optional "weapon" (option str) weapon none
    |>.optional "armor" (option str) armor none
    |>.optional "learned_skills" (list str) learnedSkills []
    |>.optional "equipped_skills" (list str) equippedSkills []
    |>.optional "skill_cooldowns" Tally.codec skillCooldowns .empty
    |>.optional "stamina" int64 stamina 100
    |>.optional "max_stamina" int64 maxStamina 100
    |>.optional "buffs" (list attributes) buffs []
    |>.optional "debuffs" (list attributes) debuffs []

def Player.codec : Codec Player := .record "PlayerState" fields

def Monster.fields : Fields Monster Monster :=
  (Fields.pure Monster.mk)
    |>.required "id" str id
    |>.required "name" str name
    |>.required "hp" int64 hp
    |>.required "max_hp" int64 maxHp ["maxHP"]
    |>.required "atk" int64 attack
    |>.optional "defense" int64 defense 0 ["def"]
    |>.optional "crit_rate" float critRate defaultCritRate
    |>.optional "dodge_rate" float dodgeRate defaultDodgeRate
    |>.optional "is_boss" bool isBoss false

def Monster.codec : Codec Monster := .record "MonsterState" fields

end Chronicle

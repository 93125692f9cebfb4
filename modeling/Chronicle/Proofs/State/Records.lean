import Chronicle.Proofs.Json.Record
import Chronicle.Proofs.State.Items
import Chronicle.Proofs.State.Parts

/-!
# States in documents

Decoding undoes encoding: `GameState.parse_text` says that the text of a state is read as that
state, in every field, if the state was itself read from a text. The records that make up a state
are stable one by one. A record that stands in for a missing one is what an empty object is read as,
so that it needs no argument of its own. The kind and the parent of a state come last, and a state
that was read comes through with any others in their place: `GameState.restores_stamped`.
-/

namespace Chronicle

open Json Codec Fields

variable {origin : Origin}

/-- A text that may be missing. -/
theorem faithful_text? : (option str).Faithful origin := faithful_str.option nofun

/-- A list of texts. -/
theorem faithful_texts (hallows : origin.Allows 1) : (list str).Faithful origin :=
  .list hallows fun _ _ ↦ faithful_str

/-- A list without items. -/
theorem restores_nil {α : Type} (codec : Codec α) (hallows : origin.Allows 1) :
    (list codec).Restores origin [] := by
  obtain ⟨inner, henter, _⟩ := hallows.enter
  exact restores_list henter (by simp)

/-- A free-form record without members. -/
theorem restores_no_attributes (hallows : origin.Allows 1) : attributes.Restores origin [] := by
  obtain ⟨inner, henter, _⟩ := hallows.enter
  exact settled_nil.restores_attributes henter

/-- Lists of free-form records. -/
theorem stable_attributes_list : (list attributes).Stable origin :=
  .list fun _ _ ↦ stable_attributes

/-- A record that has a default for every field is read as these from an empty object. -/
theorem restores_of_empty {α : Type} {name : String} {f : Fields α α} {a : α}
    (hstable : (record name f).Stable origin) (hallows : origin.Allows 1)
    (hbuild : ∀ inner missing, f.build ⟨inner, [], missing⟩ = .ok a) :
    (record name f).Restores origin a := by
  obtain ⟨inner, henter, _⟩ := hallows.enter
  refine hstable (.object [] none) a trivial ?_
  show (origin.enter >>= fun inner ↦ f.build ⟨inner, [], _⟩) = _
  rw [henter, ok_bind]
  exact hbuild inner _

theorem Player.stable_codec (hallows : origin.Allows 2) : Player.codec.Stable origin := by
  refine stable_record _ (by decide) fun inner henter ↦ ?_
  have hlevel : inner.Allows 1 := hallows.of_enter henter
  exact .optional stable_attributes_list (restores_nil _ hlevel) <|
    .optional stable_attributes_list (restores_nil _ hlevel) <|
    .faithful faithful_int64 <| .faithful faithful_int64 <|
    .faithful (Tally.faithful_codec hlevel) <|
    .faithful (faithful_texts hlevel) <| .faithful (faithful_texts hlevel) <|
    .faithful faithful_text? <| .faithful faithful_text? <|
    .faithful faithful_float <| .faithful faithful_float <|
    .faithful faithful_int64 <| .faithful faithful_int64 <| .faithful faithful_int64 <|
    .faithful faithful_int64 <| .faithful faithful_int64 <| .faithful faithful_uint32 <|
    .faithful faithful_int64 <| .faithful faithful_int64 <| .faithful faithful_int64 <|
    .faithful faithful_int64 <| recovers_pure (by simp)

theorem Monster.stable_codec : Monster.codec.Stable origin := by
  refine stable_record _ (by decide) fun inner henter ↦ ?_
  exact .faithful faithful_bool <| .faithful faithful_float <| .faithful faithful_float <|
    .faithful faithful_int64 <| .faithful faithful_int64 <| .faithful faithful_int64 <|
    .faithful faithful_int64 <| .faithful faithful_str <| .faithful faithful_str <|
    recovers_pure (by simp)

theorem Inventory.stable_codec (hallows : origin.Allows 2) : Inventory.codec.Stable origin := by
  refine stable_record _ (by decide) fun inner henter ↦ ?_
  have hlevel : inner.Allows 1 := hallows.of_enter henter
  exact .optional (.list fun _ _ ↦ Item.stable_codec) (restores_nil _ hlevel) <|
    .faithful faithful_uint32 <| recovers_pure (by simp)

theorem World.stable_codec (hallows : origin.Allows 2) : World.codec.Stable origin := by
  refine stable_record _ (by decide) fun inner henter ↦ ?_
  have hlevel : inner.Allows 1 := hallows.of_enter henter
  exact .optional stable_attributes_list (restores_nil _ hlevel) <|
    .faithful faithful_uint32 <| .faithful faithful_uint32 <| .faithful faithful_str <|
    .faithful faithful_uint32 <| .faithful faithful_str <| .faithful faithful_str <|
    .faithful faithful_bool <| .faithful faithful_bool <| .faithful faithful_uint32 <|
    .faithful faithful_uint32 <| .faithful faithful_uint32 <| recovers_pure (by simp)

theorem Character.stable_codec (hallows : origin.Allows 2) : Character.codec.Stable origin := by
  refine stable_record _ (by decide) fun inner henter ↦ ?_
  have hlevel : inner.Allows 1 := hallows.of_enter henter
  exact .faithful faithful_text? <|
    .faithful faithful_uint32 <| .faithful faithful_uint32 <| .faithful faithful_uint32 <|
    .faithful faithful_uint32 <| .faithful faithful_uint32 <| .faithful faithful_int64 <|
    .optional stable_attributes (restores_no_attributes hlevel) <|
    .faithful (faithful_texts hlevel) <| .faithful (faithful_texts hlevel) <|
    .faithful (Tally.faithful_codec hlevel) <| recovers_pure (by simp)

theorem Screen.stable_codec (hallows : origin.Allows 2) : Screen.codec.Stable origin := by
  refine stable_record _ (by decide) fun inner henter ↦ ?_
  have hlevel : inner.Allows 1 := hallows.of_enter henter
  exact .faithful faithful_float <| .faithful faithful_float <| .faithful faithful_text? <|
    .faithful faithful_text? <|
    .optional stable_attributes_list (restores_nil _ hlevel) <|
    .faithful (faithful_int64.option nofun) <|
    .faithful (faithful_texts hlevel) <| .faithful (faithful_texts hlevel) <|
    .faithful faithful_text? <| .faithful faithful_str <| recovers_pure (by simp)

theorem Quests.stable_codec (hallows : origin.Allows 2) : Quests.codec.Stable origin := by
  refine stable_record _ (by decide) fun inner henter ↦ ?_
  have hlevel : inner.Allows 1 := hallows.of_enter henter
  exact .faithful (faithful_texts hlevel) <| .faithful faithful_uint32 <|
    .faithful (faithful_texts hlevel) <|
    .optional stable_attributes_list (restores_nil _ hlevel) <| recovers_pure (by simp)

theorem Economy.stable_codec : Economy.codec.Stable origin := by
  refine stable_record _ (by decide) fun inner henter ↦ ?_
  exact .faithful faithful_text? <| .faithful faithful_text? <| .faithful faithful_int64 <|
    .faithful faithful_int64 <| .faithful faithful_uint32 <| .faithful faithful_int64 <|
    recovers_pure (by simp)

theorem EventProgress.stable_codec (hallows : origin.Allows 2) :
    EventProgress.codec.Stable origin := by
  refine stable_record _ (by decide) fun inner henter ↦ ?_
  have hlevel : inner.Allows 1 := hallows.of_enter henter
  exact .faithful (Tally.faithful_codec hlevel) <| .faithful (faithful_texts hlevel) <|
    recovers_pure (by simp)

namespace GameState

/-- The state as a snapshot of the given kind and with the given parent. -/
def stamped (s : GameState) (kind : SnapshotKind) (parent : Option SnapshotId) : GameState :=
  { s with kind, parent }

/-- The fields in front of the kind and the parent recover the state whatever these two are. -/
theorem exists_front {inner : Origin} (hlevels : inner.Allows 2) :
    ∃ front : Fields GameState (SnapshotKind → Option SnapshotId → GameState),
      fields = (front.optional "snapshot_type" SnapshotKind.codec kind .full).optional "parent_id"
        (option SnapshotId.codec) parent none ∧
      front.Recovers inner fun g C ↦ ∀ k p,
        C (g k p) ∧ ∀ kind parent, (g k p).stamped kind parent = g kind parent := by
  have hlevel : inner.Allows 1 := hlevels.mono (by decide)
  have hcharacter := Character.stable_codec hlevels
  have hscreen := Screen.stable_codec hlevels
  have hquests := Quests.stable_codec hlevels
  have heconomy : Economy.codec.Stable inner := Economy.stable_codec
  have hevents := EventProgress.stable_codec hlevels
  refine ⟨_, rfl, ?_⟩
  exact .optional hevents (restores_of_empty hevents hlevel fun _ _ ↦ rfl) <|
    .optional heconomy (restores_of_empty heconomy hlevel fun _ _ ↦ rfl) <|
    .optional hquests (restores_of_empty hquests hlevel fun _ _ ↦ rfl) <|
    .optional hscreen (restores_of_empty hscreen hlevel fun _ _ ↦ rfl) <|
    .optional hcharacter (restores_of_empty hcharacter hlevel fun _ _ ↦ rfl) <|
    .required (World.stable_codec hlevels) <| .required (Inventory.stable_codec hlevels) <|
    .optional (Monster.stable_codec.option nofun) restores_none <|
    .required (Player.stable_codec hlevels) <| .faithful faithful_float <|
    .faithful faithful_uint64 <| recovers_pure (by simp [stamped])

/-- A state that is read can be written with any kind and any parent. -/
theorem restores_stamped (hallows : origin.Allows 3) {node : Node} {s : GameState}
    (hfit : node.IntsFit) (hread : codec.read origin node = .ok s) (kind : SnapshotKind)
    (parent : Option SnapshotId) : codec.Restores origin (s.stamped kind parent) := by
  obtain ⟨inner, found, henter, horigin, hpresent, hbuild⟩ := exists_build hfit hread
  obtain ⟨front, hfields, hfront⟩ := exists_front (hallows.of_enter henter)
  rw [hfields] at hbuild
  obtain ⟨_, hpart, hbuild⟩ := bind_eq_ok.mp hbuild
  obtain ⟨g, hg, hpart⟩ := bind_eq_ok.mp hpart
  obtain ⟨k, -, heq⟩ := bind_eq_ok.mp hpart
  cases heq
  obtain ⟨p, -, heq⟩ := bind_eq_ok.mp hbuild
  cases heq
  -- The kind and the parent that were read are dropped here; the front builds with others as well.
  obtain ⟨C, hC, hrebuilds⟩ := hfront found g horigin hpresent hg
  obtain ⟨hmeets, hstamp⟩ := hC kind parent
  have hkind : kind = (g kind parent).kind := congrArg GameState.kind (hstamp kind parent)
  have hparent : parent = (g kind parent).parent := congrArg GameState.parent (hstamp kind parent)
  have hrebuilt : fields.RebuildsAt inner (g kind parent)
      (g (g kind parent).kind (g kind parent).parent) := by
    rw [hfields]
    exact ((hrebuilds _ hmeets).and_field (SnapshotKind.faithful_codec _)).and_field
      (SnapshotId.faithful_codec.option nofun _)
  rw [← hkind, ← hparent] at hrebuilt
  rw [(hC k p).2 kind parent]
  exact restores_record _ (by decide) henter hrebuilt

theorem stable_codec (hallows : origin.Allows 3) : codec.Stable origin :=
  fun _ s hfit hread ↦ restores_stamped hallows hfit hread s.kind s.parent

/-- A state that is read from a text is restored from one. -/
theorem restores_of_parse {cs : List Char} {s : GameState} (h : parse cs = .ok s) :
    codec.Restores (.text maxLevels) s := by
  have hlevels : (Origin.text maxLevels).Allows 3 := show 3 ≤ 127 by decide
  exact restores_of_readText (stable_codec hlevels) h

theorem restores_stamped_of_parse {cs : List Char} {s : GameState} (h : parse cs = .ok s)
    (kind : SnapshotKind) (parent : Option SnapshotId) :
    codec.Restores (.text maxLevels) (s.stamped kind parent) := by
  obtain ⟨node, hfits, hread⟩ := exists_node h
  have hlevels : (Origin.text maxLevels).Allows 3 := show 3 ≤ 127 by decide
  exact restores_stamped hlevels hfits hread kind parent

/-- Decoding undoes encoding: a state that is read from a text comes through its own text unchanged,
so that a text that a state has been written to is written again as it is. -/
theorem parse_text {cs : List Char} {s : GameState} (h : parse cs = .ok s) :
    parse s.text = .ok s ∧ (parse s.text).map text = .ok s.text := by
  have hparse : parse s.text = .ok s := (restores_of_parse h).readText
  refine ⟨hparse, ?_⟩
  rw [hparse]
  rfl

/-- A checkpoint with fields under their other names, attributes beside an id, an integer beyond the
signed ones, a negative zero, and a free-form record whose names are not sorted. -/
def checkpointText : String :=
  "\x7b
  \"tick\": 18446744073709551615, \"timestamp\": -0.0,
  \"snapshot_type\": \"ckpt\", \"parent_id\": \"6ba7b810-9dad-11d1-80b4-00c04fd430c8\",
  \"player\": \x7b
    \"hp\": 1, \"max_hp\": 2, \"level\": 3, \"exp\": 4, \"max_exp\": 5, \"atk\": 6, \"def\": 7, \"gold\": 8,
    \"skill_cooldowns\": \x7b\"slash\": 2, \"bash\": 1\x7d
  \x7d,
  \"inventory\": \x7b
    \"slots\": 9,
    \"items\": [\x7b\"power\": 18446744073709551615, \"id\": \"sword\", \"edge\": 2.0, \"age\": 2\x7d]
  \x7d,
  \"world\": \x7b\"floor\": 1, \"killed\": 2, \"in_battle\": false\x7d,
  \"character\": \x7b\"story_progress\": \x7b\"met\": true, \"act\": -0.0\x7d\x7d
\x7d"

/-- The state in the text. -/
def checkpoint : GameState where
  tick := 18446744073709551615
  timestamp := .zero true
  player := { Player.default with
    hp := 1, maxHp := 2, mp := 0, maxMp := 0, level := 3, exp := 4, maxExp := 5, attack := 6
    defense := 7, gold := 8
    skillCooldowns := (Tally.empty.insert "slash" 2).insert "bash" 1 }
  monster := none
  inventory := ⟨9, [⟨"sword", 1, [("power", .int 18446744073709551615), ("edge", .float (.ofInt 2)),
    ("age", .int 2)]⟩]⟩
  world := { World.default with killedOnFloor := 2 }
  character := { Character.default with
    storyProgress := [("met", .bool true), ("act", .float (.zero true))] }
  screen := .default
  quests := .default
  economy := .default
  events := .default
  kind := .checkpoint
  parent := some ⟨143098242404177361603877621312831893704⟩

set_option maxRecDepth 100000 in
theorem parse_checkpointText : parse checkpointText.toList = .ok checkpoint :=
  eq_ok_of_ofList ⟨_, rfl, by decide +kernel⟩

theorem parse_text_checkpoint : parse checkpoint.text = .ok checkpoint ∧
    (parse checkpoint.text).map text = .ok checkpoint.text :=
  parse_text parse_checkpointText

end GameState

end Chronicle

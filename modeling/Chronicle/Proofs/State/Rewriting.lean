import Chronicle.Proofs.Json.Rewriting
import Chronicle.Proofs.State.Items

/-!
# States written down in other ways

A document for a state can be rewritten in ways that do not touch what it says: `Rewritten` lists
them, for the records of a state and for the stacks of items in it. What is rewritten is read as
before, `Rewritten.read`, since each way of rewriting is harmless on its own. For records this was
shown from their descriptions. A stack keeps whatever it does not know, in order, so that only its
id and its count may move: each adds to what is read so far in a place of its own
(`Item.Adds.swap`). `GameState.decode_rewritten` brings this together for whole states and says
which records and names there are.
-/

namespace Chronicle

open Json Codec

/-! ### Stacks of items -/

namespace Item

variable {origin inner : Origin} {draft mid result : Draft} {m m' : Option String × Node}
  {key : String} {node : Node} {item : Item}
  {before after before' after' members : List (Option String × Node)}

/-- A member is the id or the count. -/
def Known (m : Option String × Node) : Prop := m.1 = some "id" ∨ m.1 = some "count"

/-- Two members add the same in both orders, unless both are attributes. -/
theorem Adds.swap (hknown : Known m ∨ Known m') (h : Adds origin m draft mid)
    (h' : Adds origin m' mid result) :
    ∃ mid', Adds origin m' draft mid' ∧ Adds origin m mid' result := by
  cases h with
  | id hid hread =>
      cases h' with
      | id hid' => cases hid'
      | count hcount hread' => exact ⟨_, .count hcount hread', .id hid hread⟩
      | other hid' hcount hread' => exact ⟨_, .other hid' hcount hread', .id hid hread⟩
  | count hcount hread =>
      cases h' with
      | id hid hread' => exact ⟨_, .id hid hread', .count hcount hread⟩
      | count hcount' => cases hcount'
      | other hid hcount' hread' => exact ⟨_, .other hid hcount' hread', .count hcount hread⟩
  | other hid hcount hread =>
      cases h' with
      | id hid' hread' => exact ⟨_, .id hid' hread', .other hid hcount hread⟩
      | count hcount' hread' => exact ⟨_, .count hcount' hread', .other hid hcount hread⟩
      | other hid' hcount' => simp [Known, hid, hcount, hid', hcount'] at hknown

/-- The id and the count may as well stand first. -/
theorem readMembers_first (hknown : Known m) :
    readMembers origin draft (before ++ m :: after) = .ok result ↔
      readMembers origin draft (m :: (before ++ after)) = .ok result := by
  induction before generalizing draft with
  | nil => rfl
  | cons first rest ih =>
      constructor
      · intro h
        obtain ⟨mid, hfirst, h⟩ := readMembers_cons_eq_ok.mp h
        obtain ⟨last, hm, h⟩ := readMembers_cons_eq_ok.mp (ih.mp h)
        obtain ⟨mid', hm, hfirst⟩ := hfirst.swap (.inr hknown) hm
        exact readMembers_cons_eq_ok.mpr ⟨mid', hm, readMembers_cons_eq_ok.mpr ⟨last, hfirst, h⟩⟩
      · intro h
        obtain ⟨mid, hm, h⟩ := readMembers_cons_eq_ok.mp h
        obtain ⟨last, hfirst, h⟩ := readMembers_cons_eq_ok.mp h
        obtain ⟨mid', hfirst, hm⟩ := hm.swap (.inl hknown) hfirst
        have hrest := ih.mpr (readMembers_cons_eq_ok.mpr ⟨last, hm, h⟩)
        exact readMembers_cons_eq_ok.mpr ⟨mid', hfirst, hrest⟩

/-- A count that is read already stays, and without it the other parts are read as before. -/
theorem readMembers_uncounted {id : Option String} {count : UInt32} {attributes : Attributes}
    (h : readMembers origin ⟨id, some count, attributes⟩ members = .ok result) :
    result.count = some count ∧ readMembers origin ⟨id, none, attributes⟩ members =
      .ok ⟨result.id, none, result.attributes⟩ := by
  induction members generalizing id attributes with
  | nil =>
      cases h
      exact ⟨rfl, rfl⟩
  | cons m rest ih =>
      obtain ⟨mid, hadds, h⟩ := readMembers_cons_eq_ok.mp h
      cases hadds with
      | id hid hread =>
          obtain ⟨hcount, h⟩ := ih h
          exact ⟨hcount, readMembers_cons_eq_ok.mpr ⟨_, .id hid hread, h⟩⟩
      | count hcount => cases hcount
      | other hid hcount hread =>
          obtain ⟨hcount', h⟩ := ih h
          exact ⟨hcount', readMembers_cons_eq_ok.mpr ⟨_, .other hid hcount hread, h⟩⟩

/-- A stack is what its members add to nothing, with an id. -/
theorem read_object_eq_ok : codec.read origin (.object members none) = .ok item ↔
    ∃ inner draft, origin.enter = .ok inner ∧
      readMembers inner ⟨none, none, []⟩ members = .ok draft ∧
        ∃ id, draft.id = some id ∧ item = ⟨id, draft.count.getD 1, draft.attributes⟩ := by
  constructor
  · intro h
    obtain ⟨inner, draft, henter, hdraft, h⟩ := enclosed_eq_ok h
    split at h
    · next id hid =>
        cases h
        exact ⟨inner, draft, henter, hdraft, id, hid, rfl⟩
    · cases h
  · rintro ⟨inner, draft, henter, hdraft, id, hid, rfl⟩
    show (origin.enter >>= fun inner ↦ readMembers inner ⟨none, none, []⟩ members >>= fun draft ↦
      closing none >>= fun _ ↦ _) = _
    rw [henter, ok_bind, hdraft, ok_bind, hid]
    rfl

/-- The id and the count of a stack may stand anywhere. -/
theorem read_move (hknown : Known m) (hrest : before ++ after = before' ++ after')
    (h : codec.read origin (.object (before ++ m :: after) none) = .ok item) :
    codec.read origin (.object (before' ++ m :: after') none) = .ok item := by
  obtain ⟨inner, draft, henter, hdraft, hitem⟩ := read_object_eq_ok.mp h
  refine read_object_eq_ok.mpr ⟨inner, draft, henter, ?_, hitem⟩
  rw [readMembers_first hknown, hrest] at hdraft
  exact (readMembers_first hknown).mpr hdraft

/-- A count of one may be left out. -/
theorem read_leaveOut (henter : origin.enter = .ok inner) (hread : uint32.read inner node = .ok 1)
    (h : codec.read origin (.object (before ++ (some "count", node) :: after) none) = .ok item) :
    codec.read origin (.object (before ++ after) none) = .ok item := by
  obtain ⟨inner', draft, henter', hdraft, id, hid, hitem⟩ := read_object_eq_ok.mp h
  cases henter.symm.trans henter'
  obtain ⟨mid, hadds, hdraft⟩ :=
    readMembers_cons_eq_ok.mp ((readMembers_first (.inr rfl)).mp hdraft)
  generalize hname : "count" = name at hadds
  cases hadds with
  | id => exact absurd hname (by decide)
  | count _ hread' =>
      cases hread.symm.trans hread'
      obtain ⟨hone, hdraft⟩ := readMembers_uncounted hdraft
      rw [hone] at hitem
      exact read_object_eq_ok.mpr ⟨inner, _, henter, hdraft, id, hid, hitem⟩
  | other _ hne => exact absurd hname.symm hne

end Item

/-! ### Rewriting -/

/-- `Rewritten codec origin node node'` says that `node'` is `node` written down in another way, by
changes that leave alone what it says to the codec. A record may have its members in another order,
a field under another of its names, one more member that it does not know, or a field less that has
its default. A stack of items may have its id and its count elsewhere, or no count if that is one.
All this may be done to parts of parts, and time and again. -/
inductive Rewritten : {α : Type} → Codec α → Origin → Node → Node → Prop
  | refl {α : Type} {codec : Codec α} {origin : Origin} {node : Node} :
      Rewritten codec origin node node
  | trans {α : Type} {codec : Codec α} {origin : Origin} {node node' node'' : Node} :
      Rewritten codec origin node node' → Rewritten codec origin node' node'' →
      Rewritten codec origin node node''
  | order {α : Type} {name : String} {f : Fields α α} {slots : List Slot} {origin : Origin}
      {members members' : List (Option String × Node)} :
      f.Lists slots → members.Perm members' →
      Rewritten (record name f) origin (.object members none) (.object members' none)
  | rename {α : Type} {name key key' : String} {f : Fields α α} {slot : Slot} {origin : Origin}
      {node : Node} {before after : List (Option String × Node)} :
      f.Has slot → key ∈ slot.names → key' ∈ slot.names →
      Rewritten (record name f) origin (.object (before ++ (some key, node) :: after) none)
        (.object (before ++ (some key', node) :: after) none)
  | add {α : Type} {name key : String} {f : Fields α α} {origin : Origin} {node : Node}
      {before after : List (Option String × Node)} :
      f.find? key = none → node.stop? = none →
      Rewritten (record name f) origin (.object (before ++ after) none)
        (.object (before ++ (some key, node) :: after) none)
  | leaveOut {α : Type} {name key : String} {f : Fields α α} {slot : Slot} {default : slot.Carrier}
      {origin inner : Origin} {node : Node} {before after : List (Option String × Node)} :
      f.Has slot → key ∈ slot.names → slot.default? = some default →
      origin.enter = .ok inner → slot.codec.read inner node = .ok default →
      Rewritten (record name f) origin (.object (before ++ (some key, node) :: after) none)
        (.object (before ++ after) none)
  | part {α : Type} {name key : String} {f : Fields α α} {slot : Slot} {origin inner : Origin}
      {node node' : Node} {before after : List (Option String × Node)} :
      f.Has slot → key ∈ slot.names → origin.enter = .ok inner →
      Rewritten slot.codec inner node node' →
      Rewritten (record name f) origin (.object (before ++ (some key, node) :: after) none)
        (.object (before ++ (some key, node') :: after) none)
  | given {α : Type} {codec : Codec α} {origin : Origin} {node node' : Node} :
      node ≠ .null → Rewritten codec origin node node' →
      Rewritten (option codec) origin node node'
  | item {α : Type} {codec : Codec α} {origin inner : Origin} {node node' : Node}
      {before after : List Node} :
      origin.enter = .ok inner → Rewritten codec inner node node' →
      Rewritten (list codec) origin (.list (before ++ node :: after) none)
        (.list (before ++ node' :: after) none)
  | move {origin : Origin} {m : Option String × Node}
      {before after before' after' : List (Option String × Node)} :
      Item.Known m → before ++ after = before' ++ after' →
      Rewritten Item.codec origin (.object (before ++ m :: after) none)
        (.object (before' ++ m :: after') none)
  | single {origin inner : Origin} {node : Node} {before after : List (Option String × Node)} :
      origin.enter = .ok inner → uint32.read inner node = .ok 1 →
      Rewritten Item.codec origin (.object (before ++ (some "count", node) :: after) none)
        (.object (before ++ after) none)

namespace Rewritten

variable {α : Type} {codec : Codec α} {origin : Origin} {node node' : Node} {a : α}

/-- Nothing is written down as null. -/
theorem ne_null (h : Rewritten codec origin node node') (hnode : node ≠ .null) :
    node' ≠ .null := by
  induction h with
  | refl => exact hnode
  | trans _ _ ih ih' => exact ih' (ih hnode)
  | given _ _ ih => exact ih hnode
  | order | rename | add | leaveOut | part | item | move | single => exact nofun

/-- What is written down in another way is read as before. -/
theorem read (h : Rewritten codec origin node node') (hread : codec.read origin node = .ok a) :
    codec.read origin node' = .ok a := by
  induction h with
  | refl => exact hread
  | trans _ _ ih ih' => exact ih' (ih hread)
  | order hlists hperm => exact read_record_perm hlists hperm hread
  | rename hslot hkey hkey' => exact read_record_rename hslot hkey hkey' hread
  | add hkey hnode => exact read_record_add hkey hnode hread
  | leaveOut hslot hkey hdefault henter hd =>
      exact read_record_leaveOut hslot hkey henter hdefault hd hread
  | part hslot hkey henter _ ih =>
      exact read_record_part hslot hkey henter (fun _ ↦ ih) hread
  | given hnode h ih =>
      rw [read_option hnode] at hread
      obtain ⟨x, hx, heq⟩ := map_eq_ok.mp hread
      rw [read_option (h.ne_null hnode)]
      exact map_eq_ok.mpr ⟨x, ih hx, heq⟩
  | item henter _ ih => exact read_list_item henter (fun _ ↦ ih) hread
  | move hknown hrest => exact Item.read_move hknown hrest hread
  | single henter hone => exact Item.read_leaveOut henter hone hread

end Rewritten

/-! ### The records of a state -/

theorem Player.describes : Player.fields.Describes [⟨"defense", ["def"], int64, some 0⟩] :=
  ⟨by decide, _, .optional <| .optional <| .optional <| .optional <| .optional <| .optional <|
    .optional <| .optional <| .optional <| .optional <| .optional <| .required <| .optional <|
    .required <| .required <| .required <| .required <| .optional <| .optional <| .required <|
    .required <| .pure _, by simp⟩

theorem Monster.describes : Monster.fields.Describes
    [⟨"max_hp", ["maxHP"], int64, none⟩, ⟨"defense", ["def"], int64, some 0⟩] :=
  ⟨by decide, _, .optional <| .optional <| .optional <| .optional <| .required <| .required <|
    .required <| .required <| .required <| .pure _, by simp⟩

theorem Inventory.describes :
    Inventory.fields.Describes [⟨"items", [], list Item.codec, some []⟩] :=
  ⟨by decide, _, .optional <| .required <| .pure _, by simp⟩

theorem World.describes : World.fields.Describes
    [⟨"killed_on_floor", ["killed"], uint32, some 0⟩,
      ⟨"can_advance", ["canAdvanceFloor"], bool, some false⟩] :=
  ⟨by decide, _, .optional <| .optional <| .optional <| .optional <| .optional <| .optional <|
    .optional <| .required <| .optional <| .optional <| .optional <| .required <| .pure _, by simp⟩

theorem Character.describes : Character.fields.Describes [] :=
  ⟨by decide, _, .optional <| .optional <| .optional <| .optional <| .optional <| .optional <|
    .optional <| .optional <| .optional <| .optional <| .optional <| .pure _, by simp⟩

theorem Screen.describes : Screen.fields.Describes [] :=
  ⟨by decide, _, .optional <| .optional <| .optional <| .optional <| .optional <| .optional <|
    .optional <| .optional <| .optional <| .optional <| .pure _, by simp⟩

theorem Quests.describes : Quests.fields.Describes [] :=
  ⟨by decide, _, .optional <| .optional <| .optional <| .optional <| .pure _, by simp⟩

theorem Economy.describes : Economy.fields.Describes [] :=
  ⟨by decide, _, .optional <| .optional <| .optional <| .optional <| .optional <| .optional <|
    .pure _, by simp⟩

theorem EventProgress.describes : EventProgress.fields.Describes [] :=
  ⟨by decide, _, .optional <| .optional <| .pure _, by simp⟩

namespace GameState

/-- The parts of a state that are records. -/
def parts : List Slot :=
  [⟨"player", [], Player.codec, none⟩, ⟨"monster", [], option Monster.codec, some none⟩,
    ⟨"inventory", [], Inventory.codec, none⟩, ⟨"world", [], World.codec, none⟩,
    ⟨"character", [], Character.codec, some .default⟩, ⟨"ui", [], Screen.codec, some .default⟩,
    ⟨"quest", [], Quests.codec, some .default⟩, ⟨"economy", [], Economy.codec, some .default⟩,
    ⟨"event", [], EventProgress.codec, some .default⟩]

theorem describes : fields.Describes parts :=
  ⟨by decide, _, .optional <| .optional <| .optional <| .optional <| .optional <| .optional <|
    .optional <| .required <| .required <| .optional <| .required <| .required <| .required <|
    .pure _, by simp [parts]⟩

/-- Decoding does not depend on how a state is written down: a document that is rewritten is read as
the same state, be it a value or a text, and a stack of items as the same stack. Each record of a
state can be rewritten in its place, and the fields with two names are those of the player, the
monster, and the world. -/
theorem decode_rewritten :
    (∀ {origin : Origin} {node node' : Node} {s : GameState},
      Rewritten codec origin node node' → codec.read origin node = .ok s →
        codec.read origin node' = .ok s) ∧
    (∀ {cs cs' rest rest' : List Char} {node node' : Node} {s : GameState},
      Node.parse cs = (node, rest) → Node.parse cs' = (node', rest') → skipSpace rest' = [] →
        Rewritten codec (.text maxLevels) node node' → parse cs = .ok s → parse cs' = .ok s) ∧
    (∀ {origin : Origin} {node node' : Node} {item : Item},
      Rewritten Item.codec origin node node' → Item.codec.read origin node = .ok item →
        Item.codec.read origin node' = .ok item) ∧
    fields.Describes parts ∧
    Player.fields.Describes [⟨"defense", ["def"], int64, some 0⟩] ∧
    Monster.fields.Describes
      [⟨"max_hp", ["maxHP"], int64, none⟩, ⟨"defense", ["def"], int64, some 0⟩] ∧
    Inventory.fields.Describes [⟨"items", [], list Item.codec, some []⟩] ∧
    World.fields.Describes [⟨"killed_on_floor", ["killed"], uint32, some 0⟩,
      ⟨"can_advance", ["canAdvanceFloor"], bool, some false⟩] ∧
    Character.fields.Describes [] ∧ Screen.fields.Describes [] ∧ Quests.fields.Describes [] ∧
    Economy.fields.Describes [] ∧ EventProgress.fields.Describes [] := by
  refine ⟨fun h ↦ h.read, fun hparse hparse' hblank h hread ↦ ?_, fun h ↦ h.read, describes,
    Player.describes, Monster.describes, Inventory.describes, World.describes, Character.describes,
    Screen.describes, Quests.describes, Economy.describes, EventProgress.describes⟩
  have hnode := ((readText_eq_ok hparse).mp hread).1
  exact (readText_eq_ok hparse').mpr ⟨h.read hnode, hblank⟩

/-! ### Two texts of one state -/

/-- A player, with the given further members. -/
def samplePlayer (more : Attributes) : Value :=
  .object (more ++ [("hp", .int 30), ("max_hp", .int 50), ("level", .int 2), ("exp", .int 5),
    ("max_exp", .int 100), ("atk", .int 9), ("gold", .int 12)])

/-- A world, with the number of monsters that were killed under the given name. -/
def sampleWorld (killed : String) : Value :=
  .object [(killed, .int 2), ("floor", .int 3), ("in_battle", .bool false)]

/-- A bag with one stack. -/
def sampleInventory (stack : Attributes) : Value :=
  .object [("items", .list [.object stack]), ("slots", .int 20)]

/-- A state, with everything spelled out. -/
def sample : Value :=
  .object [("player", samplePlayer [("defense", .int 0)]), ("world", sampleWorld "killed_on_floor"),
    ("inventory", sampleInventory [("grade", .str "rare"), ("id", .str "sword"), ("count", .int 1),
      ("bound", .bool true)]), ("tick", .int 7), ("timestamp", .int 90)]

/-- The same state, in another order, with a field that is not known and others left out. -/
def sampleRewritten : Value :=
  .object [("comment", .list []), ("tick", .int 7), ("timestamp", .int 90),
    ("player", samplePlayer []), ("world", sampleWorld "killed"),
    ("inventory", sampleInventory [("id", .str "sword"), ("grade", .str "rare"),
      ("bound", .bool true)])]

theorem rewritten_samplePlayer {origin : Origin} (hallows : origin.Allows 1) :
    Rewritten Player.codec origin (.ofValue (samplePlayer [("defense", .int 0)]))
      (.ofValue (samplePlayer [])) := by
  obtain ⟨inner, henter, -⟩ := hallows.enter
  have hdefense := Player.describes.has List.mem_cons_self
  exact @Rewritten.leaveOut _ _ "defense" _ _ _ _ _ _ [] _ hdefense List.mem_cons_self rfl henter rfl

theorem rewritten_sampleWorld {origin : Origin} :
    Rewritten World.codec origin (.ofValue (sampleWorld "killed_on_floor"))
      (.ofValue (sampleWorld "killed")) :=
  @Rewritten.rename _ _ _ _ _ _ _ _ [] _ (World.describes.has List.mem_cons_self)
    List.mem_cons_self (List.mem_cons_of_mem _ List.mem_cons_self)

theorem rewritten_sampleInventory {origin : Origin} (hallows : origin.Allows 3) :
    Rewritten Inventory.codec origin
      (.ofValue (sampleInventory [("grade", .str "rare"), ("id", .str "sword"), ("count", .int 1),
        ("bound", .bool true)]))
      (.ofValue (sampleInventory [("id", .str "sword"), ("grade", .str "rare"),
        ("bound", .bool true)])) := by
  obtain ⟨inner, henter, hallows⟩ := hallows.enter
  obtain ⟨within, henter', hallows⟩ := hallows.enter
  obtain ⟨deepest, henter'', -⟩ := hallows.enter
  have hitems := Inventory.describes.has List.mem_cons_self
  refine @Rewritten.part _ _ _ _ _ _ _ _ _ [] _ hitems List.mem_cons_self henter ?_
  have hmoved : Rewritten Item.codec within
      (.ofValue (.object [("grade", .str "rare"), ("id", .str "sword"), ("count", .int 1),
        ("bound", .bool true)]))
      (.ofValue (.object [("id", .str "sword"), ("grade", .str "rare"), ("count", .int 1),
        ("bound", .bool true)])) := @Rewritten.move _ _ [_] _ [] _ (.inl rfl) rfl
  exact @Rewritten.item _ _ _ _ _ _ [] [] henter'
    (hmoved.trans (@Rewritten.single _ _ _ [_, _] _ henter'' rfl))

theorem rewritten_sample {origin : Origin} (hallows : origin.Allows 4) :
    Rewritten codec origin (.ofValue sample) (.ofValue sampleRewritten) := by
  obtain ⟨inner, henter, hallows⟩ := hallows.enter
  have hplayer : fields.Has ⟨"player", [], Player.codec, none⟩ := describes.has (by simp [parts])
  have hworld : fields.Has ⟨"world", [], World.codec, none⟩ := describes.has (by simp [parts])
  have hinventory : fields.Has ⟨"inventory", [], Inventory.codec, none⟩ :=
    describes.has (by simp [parts])
  -- First the parts, from the first to the third, then the new field, and last the order.
  refine .trans (@Rewritten.part _ _ _ _ _ _ _ _ _ [] _ hplayer List.mem_cons_self henter
    (rewritten_samplePlayer (hallows.mono (by decide)))) ?_
  refine .trans (@Rewritten.part _ _ _ _ _ _ _ _ _ [_] _ hworld List.mem_cons_self henter
    rewritten_sampleWorld) ?_
  refine .trans (@Rewritten.part _ _ _ _ _ _ _ _ _ [_, _] _ hinventory List.mem_cons_self henter
    (rewritten_sampleInventory hallows)) ?_
  refine .trans (@Rewritten.add _ _ "comment" _ _ (.list [] none) [] _ (by decide +kernel) rfl) ?_
  obtain ⟨-, slots, hlists, -⟩ := describes
  exact .order hlists (.cons _ (@List.perm_append_comm _ [_, _, _] [_, _]))

theorem intsFit_sample : (Node.ofValue sample).IntsFit := by
  simp [sample, samplePlayer, sampleWorld, sampleInventory, Node.ofValue, Node.ofItems,
    Node.ofMembers, Node.IntsFit, ItemsFit, MembersFit]

theorem intsFit_sampleRewritten : (Node.ofValue sampleRewritten).IntsFit := by
  simp [sampleRewritten, samplePlayer, sampleWorld, sampleInventory, Node.ofValue, Node.ofItems,
    Node.ofMembers, Node.IntsFit, ItemsFit, MembersFit]

/-- A state is read from both values and from both texts, and each time it is the same one. -/
theorem decode_rewritten_sample :
    (∃ s, codec.readValue sample = .ok s ∧ codec.readValue sampleRewritten = .ok s) ∧
    (∃ s, parse sample.pretty = .ok s ∧ parse sampleRewritten.pretty = .ok s) ∧
    ∃ item, item.attributes = [("grade", .str "rare")] ∧
      Item.codec.readValue (.object [("grade", .str "rare"), ("count", .int 1),
        ("id", .str "sword")]) = .ok item ∧
      Item.codec.readValue (.object [("id", .str "sword"), ("grade", .str "rare")]) = .ok item := by
  refine ⟨?_, ?_, ⟨"sword", 1, [("grade", .str "rare")]⟩, rfl, ?_, ?_⟩
  · obtain ⟨s, hs⟩ := Option.isSome_iff_exists.mp
      (by decide +kernel : (codec.readValue sample).toOption.isSome = true)
    have hread := toOption_eq_some.mp hs
    exact ⟨s, hread, decode_rewritten.1 (rewritten_sample trivial) hread⟩
  · have hlevels : (Origin.text maxLevels).Allows 4 := (by decide : 4 ≤ maxLevels)
    have hparse := Node.parse_pretty intsFit_sample
    have hparse' := Node.parse_pretty intsFit_sampleRewritten
    obtain ⟨s, hs⟩ := Option.isSome_iff_exists.mp
      (by decide +kernel : (codec.read (.text maxLevels) (.ofValue sample)).toOption.isSome = true)
    have hread := (readText_eq_ok hparse).mpr ⟨toOption_eq_some.mp hs, rfl⟩
    exact ⟨s, hread, decode_rewritten.2.1 hparse hparse' rfl (rewritten_sample hlevels) hread⟩
  · exact toOption_eq_some.mp (by decide +kernel)
  · have hsingle := @Rewritten.single .memory .memory (.int 1) [(some "grade", .str "rare")]
      [(some "id", .str "sword")] rfl rfl
    have hmove := @Rewritten.move .memory (some "id", .str "sword") [(some "grade", .str "rare")] []
      [] [(some "grade", .str "rare")] (.inl rfl) rfl
    refine decode_rewritten.2.2.1 (hsingle.trans hmove) (toOption_eq_some.mp ?_)
    decide +kernel

end GameState

end Chronicle

import Chronicle.Proofs.Json.Found

/-!
# Records written down in other ways

What a record is read as does not depend on how its object is written down. A description lists its
slots, one for each field; what is built depends on what is found in each slot, and on nothing else,
`Fields.Lists.build_mono`. So members may change places (`Codec.read_record_perm`), go by an older
name (`Codec.read_record_rename`), or come in although the record does not know them
(`Codec.read_record_add`). A field may be left out where it has its default
(`Codec.read_record_leaveOut`), and may be read from another node that holds the same
(`Codec.read_record_part`).
-/

namespace Chronicle.Json

/-- The names under which a field is found. -/
def Field.names {σ : Type} (field : Field σ) : List String := field.name :: field.aliases

theorem Field.mem_names {σ : Type} {field : Field σ} {key : String} :
    key ∈ field.names ↔ (field.name == key || field.aliases.contains key) = true := by
  rw [names, List.mem_cons, Bool.or_eq_true, beq_iff_eq, List.contains_iff_mem, eq_comm]

/-- What a description says of a field: its name and its older names, how it is read, and what it is
where it is left out. A field without a default has to be there. -/
structure Slot where
  name : String
  aliases : List String
  {Carrier : Type}
  codec : Codec Carrier
  default? : Option Carrier

namespace Slot

/-- The names under which the field is found. -/
def names (slot : Slot) : List String := slot.name :: slot.aliases

/-- The field in what is found of a record. -/
def read (slot : Slot) (found : Found.Fields) : Except ReadError slot.Carrier :=
  match found.present.lookup slot.name with
  | some node => slot.codec.read found.origin node
  | none => match slot.default? with
    | some default => .ok default
    | none => .error (found.missing slot.name)

end Slot

namespace Fields

variable {σ α β : Type} {f : Fields σ α} {slots : List Slot} {slot : Slot} {origin inner : Origin}
  {key : String} {node : Node} {before after members : List (Option String × Node)}

/-- The slots of a description, in order. -/
inductive Lists {σ : Type} : {α : Type} → Fields σ α → List Slot → Prop
  | pure {α : Type} (a : α) : Lists (Fields.pure a) []
  | required {α β : Type} {f : Fields σ (α → β)} {slots : List Slot} {name : String}
      {codec : Codec α} {get : σ → α} {aliases : List String} (h : Lists f slots) :
      Lists (f.required name codec get aliases) (slots ++ [⟨name, aliases, codec, none⟩])
  | optional {α β : Type} {f : Fields σ (α → β)} {slots : List Slot} {name : String}
      {codec : Codec α} {get : σ → α} {default : α} {aliases : List String} (h : Lists f slots) :
      Lists (f.optional name codec get default aliases)
        (slots ++ [⟨name, aliases, codec, some default⟩])

/-- No name stands for two fields. -/
def Separate (f : Fields σ α) : Prop :=
  f.fields.Pairwise fun a b ↦ ∀ name ∈ b.names, name ∉ a.names

instance (f : Fields σ α) : Decidable f.Separate :=
  inferInstanceAs (Decidable (f.fields.Pairwise fun a b ↦ ∀ name ∈ b.names, name ∉ a.names))

/-- Every field of the record has a slot, the given ones among them, and the fields can be told
apart. -/
def Describes (f : Fields σ α) (given : List Slot) : Prop :=
  f.Separate ∧ ∃ slots, f.Lists slots ∧ ∀ slot ∈ given, slot ∈ slots

/-- The record has a field as the slot says. -/
def Has (f : Fields σ α) (slot : Slot) : Prop := f.Describes [slot]

theorem Describes.has {given : List Slot} (h : f.Describes given) (hslot : slot ∈ given) :
    f.Has slot := by
  obtain ⟨hseparate, slots, hlists, hgiven⟩ := h
  exact ⟨hseparate, slots, hlists, fun _ hmem ↦ List.mem_singleton.mp hmem ▸ hgiven slot hslot⟩

/-! ### What is built -/

/-- What is built from fields is built again where each slot holds the same. -/
theorem Lists.build_mono (h : f.Lists slots) {found found' : Found.Fields}
    (hread : ∀ slot ∈ slots, ∀ x, slot.read found = .ok x → slot.read found' = .ok x) {a : α}
    (hbuild : f.build found = .ok a) : f.build found' = .ok a := by
  induction h with
  | pure => exact hbuild
  | required h ih | optional h ih =>
      obtain ⟨hbefore, hlast⟩ := List.forall_mem_append.mp hread
      obtain ⟨g, hg, hbuild⟩ := bind_eq_ok.mp hbuild
      obtain ⟨x, hx, heq⟩ := bind_eq_ok.mp hbuild
      have hx' := hlast _ List.mem_cons_self x hx
      exact bind_eq_ok.mpr ⟨g, ih hbefore hg, bind_eq_ok.mpr ⟨x, hx', heq⟩⟩

/-- The slots are those of the fields. -/
theorem Lists.fields_eq (h : f.Lists slots) :
    f.fields.map (fun field ↦ (field.name, field.aliases, field.check)) =
      slots.map fun slot ↦ (slot.name, slot.aliases, fun origin node ↦
        discard (slot.codec.read origin node)) := by
  induction h with
  | pure => rfl
  | required h ih | optional h ih =>
      rw [List.map_append, ← ih]
      exact List.map_append

theorem Lists.map_name (h : f.Lists slots) : slots.map (·.name) = f.fields.map (·.name) := by
  have hnames := congrArg (List.map Prod.fst) h.fields_eq
  rw [List.map_map, List.map_map] at hnames
  exact hnames.symm

/-- A node passes the check of a field if it is read. -/
theorem discard_eq_ok {x : Except ReadError α} : discard x = .ok () ↔ ∃ a, x = .ok a := by
  cases x with
  | error cause => exact ⟨(nomatch ·), fun ⟨_, h⟩ ↦ nomatch h⟩
  | ok a => exact ⟨fun _ ↦ ⟨a, rfl⟩, fun _ ↦ rfl⟩

theorem Separate.find?_eq (h : f.Separate) {field : Field σ} (hfield : field ∈ f.fields)
    (hkey : key ∈ field.names) : f.find? key = some field := by
  obtain ⟨before, after, hsplit⟩ := List.append_of_mem hfield
  rw [Separate, hsplit, List.pairwise_append] at h
  have hbefore : ∀ other ∈ before,
      ¬ (other.name == key || other.aliases.contains key) = true := fun other hother hother' ↦
    h.2.2 other hother field List.mem_cons_self key hkey (Field.mem_names.mpr hother')
  rw [find?, hsplit, List.find?_append, List.find?_eq_none.mpr hbefore, Option.none_or,
    List.find?_cons, Field.mem_names.mp hkey]

/-- The field of a slot is found under each of its names. -/
theorem Has.find?_eq (h : f.Has slot) : ∃ field, field.name = slot.name ∧
    (∀ origin node, field.check origin node = .ok () ↔ ∃ x, slot.codec.read origin node = .ok x) ∧
      ∀ key ∈ slot.names, f.find? key = some field := by
  obtain ⟨hseparate, slots, hlists, hslot⟩ := h
  replace hslot := hslot slot List.mem_cons_self
  have hmem := List.mem_map_of_mem (f := fun slot : Slot ↦ (slot.name, slot.aliases,
    fun origin node ↦ discard (slot.codec.read origin node))) hslot
  rw [← hlists.fields_eq] at hmem
  obtain ⟨field, hfield, heq⟩ := List.mem_map.mp hmem
  obtain ⟨hname, haliases, hcheck⟩ := by simpa only [Prod.mk.injEq] using heq
  refine ⟨field, hname, fun origin node ↦ ?_, fun key hkey ↦ hseparate.find?_eq hfield ?_⟩
  · rw [hcheck]
    exact discard_eq_ok
  · rw [Field.names, hname, haliases]
    exact hkey

/-- No two slots have one name. -/
theorem Separate.nodup_names (h : f.Separate) (hlists : f.Lists slots) :
    (slots.map (·.name)).Nodup := by
  rw [hlists.map_name]
  refine List.pairwise_map.mpr (h.imp fun hnames heq ↦ ?_)
  exact hnames _ List.mem_cons_self (heq ▸ List.mem_cons_self)

/-- What is built is built again where one slot holds the same and nothing else is touched. -/
theorem Has.build_mono (h : f.Has slot) {found found' : Found.Fields} {a : α}
    (hbuild : f.build found = .ok a) (horigin : found'.origin = found.origin)
    (hmissing : found'.missing = found.missing)
    (hother : ∀ key, key ≠ slot.name → found'.present.lookup key = found.present.lookup key)
    (hread : ∀ x, slot.read found = .ok x → slot.read found' = .ok x) :
    f.build found' = .ok a := by
  obtain ⟨hseparate, slots, hlists, hslot⟩ := h
  refine hlists.build_mono (fun other hmem x hx ↦ ?_) hbuild
  by_cases hname : other.name = slot.name
  · cases List.inj_on_of_nodup_map (hseparate.nodup_names hlists) hmem
      (hslot slot List.mem_cons_self) hname
    exact hread x hx
  · rwa [Slot.read, hother other.name hname, horigin, hmissing]

/-! ### What is found -/

/-- A member with a name of the field stands for the field. -/
theorem Has.held_cons (h : f.Has slot) (hkey : key ∈ slot.names) :
    f.held ((some key, node) :: members) = (slot.name, node) :: f.held members := by
  obtain ⟨field, hname, -, hfind⟩ := h.find?_eq
  rw [Fields.held_cons (hfind key hkey), hname]

/-- A member with a name of the field passes if it is read. -/
theorem Has.passes_iff (h : f.Has slot) (hkey : key ∈ slot.names) :
    f.Passes origin (some key, node) ↔ ∃ x, slot.codec.read origin node = .ok x := by
  obtain ⟨field, -, hcheck, hfind⟩ := h.find?_eq
  rw [← hcheck]
  simp [Passes, hfind key hkey]

end Fields

/-! ### Records -/

namespace Codec

variable {α : Type} {name key key' : String} {f : Fields α α} {slots : List Slot} {slot : Slot}
  {origin inner : Origin} {node node' : Node} {a : α}
  {before after members members' : List (Option String × Node)}

/-- A record is built from the members that stand for its fields. -/
theorem read_object_eq_ok : (record name f).read origin (.object members none) = .ok a ↔
    ∃ inner, origin.enter = .ok inner ∧ (∀ m ∈ members, f.Passes inner m) ∧
      (Keyed.keys (f.held members)).Nodup ∧
        f.build ⟨inner, f.held members, fun field ↦ .shape (.missingField field)⟩ = .ok a := by
  show (origin.enter >>= fun inner ↦ f.scanMembers inner [] members >>= fun present ↦
    closing none >>= fun _ ↦ f.build ⟨inner, present, _⟩) = _ ↔ _
  have hscan (inner : Origin) (found : List (String × Node)) :
      f.scanMembers inner [] members = .ok found ↔ (∀ m ∈ members, f.Passes inner m) ∧
        (Keyed.keys (f.held members)).Nodup ∧ found = f.held members :=
    Fields.scanMembers_eq_ok List.nodup_nil
  constructor
  · intro h
    obtain ⟨inner, henter, h⟩ := bind_eq_ok.mp h
    obtain ⟨present, hpresent, hbuild⟩ := bind_eq_ok.mp h
    obtain ⟨hpasses, hnodup, rfl⟩ := (hscan inner present).mp hpresent
    exact ⟨inner, henter, hpasses, hnodup, hbuild⟩
  · rintro ⟨inner, henter, hpasses, hnodup, hbuild⟩
    rw [henter, ok_bind, (hscan inner _).mpr ⟨hpasses, hnodup, rfl⟩]
    exact hbuild

/-- The members may stand in any order. -/
theorem read_record_perm (hlists : f.Lists slots) (hperm : members.Perm members')
    (h : (record name f).read origin (.object members none) = .ok a) :
    (record name f).read origin (.object members' none) = .ok a := by
  obtain ⟨inner, henter, hpasses, hnodup, hbuild⟩ := read_object_eq_ok.mp h
  have hheld : (f.held members).Perm (f.held members') := hperm.filterMap _
  refine read_object_eq_ok.mpr ⟨inner, henter, fun m hm ↦ hpasses m (hperm.mem_iff.mpr hm),
    (hheld.map Prod.fst).nodup_iff.mp hnodup, hlists.build_mono (fun slot _ x hx ↦ ?_) hbuild⟩
  rw [← hx, Slot.read, Slot.read, Keyed.lookup_perm hnodup hheld]

/-- A record with a field that is there is built from this field and from those around it. -/
theorem read_object_cons_eq_ok (hslot : f.Has slot) (hkey : key ∈ slot.names) :
    (record name f).read origin (.object (before ++ (some key, node) :: after) none) = .ok a ↔
      ∃ inner, origin.enter = .ok inner ∧ (∀ m ∈ before ++ after, f.Passes inner m) ∧
        (∃ x, slot.codec.read inner node = .ok x) ∧
          (Keyed.keys (f.held before ++ (slot.name, node) :: f.held after)).Nodup ∧
            f.build ⟨inner, f.held before ++ (slot.name, node) :: f.held after,
              fun field ↦ .shape (.missingField field)⟩ = .ok a := by
  have hpasses (inner : Origin) : (∀ m ∈ before ++ (some key, node) :: after, f.Passes inner m) ↔
      (∀ m ∈ before ++ after, f.Passes inner m) ∧ ∃ x, slot.codec.read inner node = .ok x := by
    rw [List.forall_mem_append, List.forall_mem_append, List.forall_mem_cons,
      hslot.passes_iff hkey, and_assoc, and_comm (b := ∀ m ∈ after, _)]
  rw [read_object_eq_ok, Fields.held_append, hslot.held_cons hkey]
  simp only [hpasses, and_assoc]

/-- A field may go by any of its names. -/
theorem read_record_rename (hslot : f.Has slot) (hkey : key ∈ slot.names)
    (hkey' : key' ∈ slot.names)
    (h : (record name f).read origin (.object (before ++ (some key, node) :: after) none) = .ok a) :
    (record name f).read origin (.object (before ++ (some key', node) :: after) none) = .ok a :=
  (read_object_cons_eq_ok hslot hkey').mpr ((read_object_cons_eq_ok hslot hkey).mp h)

/-- A member that the record does not know may come in. -/
theorem read_record_add (hkey : f.find? key = none) (hnode : node.stop? = none)
    (h : (record name f).read origin (.object (before ++ after) none) = .ok a) :
    (record name f).read origin (.object (before ++ (some key, node) :: after) none) = .ok a := by
  obtain ⟨inner, henter, hpasses, hnodup, hbuild⟩ := read_object_eq_ok.mp h
  have hheld : f.held (before ++ (some key, node) :: after) = f.held (before ++ after) := by
    rw [Fields.held_append, Fields.held_append, Fields.held_cons_none hkey]
  have hpass : f.Passes inner (some key, node) := ⟨key, rfl, by simp [hkey, Node.skip, hnode]⟩
  obtain ⟨hbefore, hafter⟩ := List.forall_mem_append.mp hpasses
  refine read_object_eq_ok.mpr ⟨inner, henter, ?_, hheld ▸ hnodup, hheld ▸ hbuild⟩
  exact List.forall_mem_append.mpr ⟨hbefore, List.forall_mem_cons.mpr ⟨hpass, hafter⟩⟩

/-- A field that is read as its default may be left out. -/
theorem read_record_leaveOut (hslot : f.Has slot) (hkey : key ∈ slot.names)
    (henter : origin.enter = .ok inner) {d : slot.Carrier} (hdefault : slot.default? = some d)
    (hd : slot.codec.read inner node = .ok d)
    (h : (record name f).read origin (.object (before ++ (some key, node) :: after) none) = .ok a) :
    (record name f).read origin (.object (before ++ after) none) = .ok a := by
  obtain ⟨inner', henter', hpasses, -, hnodup, hbuild⟩ := (read_object_cons_eq_ok hslot hkey).mp h
  cases henter.symm.trans henter'
  refine read_object_eq_ok.mpr ⟨inner, henter, hpasses, ?_⟩
  rw [Fields.held_append]
  refine ⟨hnodup.sublist (((List.sublist_cons_self _ _).append_left _).map _),
    hslot.build_mono hbuild rfl rfl (fun other hother ↦ ?_) fun x hx ↦ ?_⟩
  · exact (Keyed.lookup_append_cons_of_ne hother _ _ _).symm
  · simp only [Slot.read, Keyed.lookup_append_cons hnodup] at hx
    simp only [Slot.read, Keyed.lookup_append_eq_none hnodup, hdefault]
    exact hd.symm.trans hx

/-- A field may be read from another node that holds the same. -/
theorem read_record_part (hslot : f.Has slot) (hkey : key ∈ slot.names)
    (henter : origin.enter = .ok inner)
    (hnode : ∀ x, slot.codec.read inner node = .ok x → slot.codec.read inner node' = .ok x)
    (h : (record name f).read origin (.object (before ++ (some key, node) :: after) none) = .ok a) :
    (record name f).read origin (.object (before ++ (some key, node') :: after) none) = .ok a := by
  obtain ⟨inner', henter', hpasses, ⟨x, hx⟩, hnodup, hbuild⟩ :=
    (read_object_cons_eq_ok hslot hkey).mp h
  cases henter.symm.trans henter'
  have hkeys (n : Node) : Keyed.keys (f.held before ++ (slot.name, n) :: f.held after) =
      Keyed.keys (f.held before) ++ slot.name :: Keyed.keys (f.held after) := List.map_append
  have hnodup' : (Keyed.keys (f.held before ++ (slot.name, node') :: f.held after)).Nodup := by
    rwa [hkeys] at hnodup ⊢
  refine (read_object_cons_eq_ok hslot hkey).mpr ⟨inner, henter, hpasses, ⟨x, hnode x hx⟩, hnodup',
    hslot.build_mono hbuild rfl rfl (fun other hother ↦ ?_) fun x hx ↦ ?_⟩
  · simp only [Keyed.lookup_append_cons_of_ne hother]
  · simp only [Slot.read, Keyed.lookup_append_cons hnodup] at hx
    simp only [Slot.read, Keyed.lookup_append_cons hnodup']
    exact hnode x hx

/-- A text is read as its document is, if nothing comes after this. -/
theorem readText_eq_ok {codec : Codec α} {cs rest : List Char}
    (hparse : Node.parse cs = (node, rest)) :
    codec.readText cs = .ok a ↔
      codec.read (.text maxLevels) node = .ok a ∧ skipSpace rest = [] := by
  have hread : codec.readText cs = codec.read (.text maxLevels) node >>= fun a ↦
      if (skipSpace rest).isEmpty then .ok a else .error (.text .malformed) := by
    rw [Codec.readText, hparse]
    rfl
  rw [hread, bind_eq_ok]
  constructor
  · rintro ⟨b, hb, h⟩
    split at h
    · next hempty =>
        cases h
        exact ⟨hb, List.isEmpty_iff.mp hempty⟩
    · cases h
  · rintro ⟨ha, hblank⟩
    exact ⟨a, ha, by rw [hblank]; rfl⟩

/-! ### Lists -/

theorem readItems_part {codec : Codec α} {before after : List Node} {items : List α}
    (hnode : ∀ x, codec.read inner node = .ok x → codec.read inner node' = .ok x)
    (h : codec.readItems inner (before ++ node :: after) = .ok items) :
    codec.readItems inner (before ++ node' :: after) = .ok items := by
  induction before generalizing items with
  | nil =>
      obtain ⟨x, hx, h⟩ := bind_eq_ok.mp h
      exact bind_eq_ok.mpr ⟨x, hnode x hx, h⟩
  | cons first rest ih =>
      obtain ⟨x, hx, h⟩ := bind_eq_ok.mp h
      obtain ⟨more, hmore, h⟩ := bind_eq_ok.mp h
      exact bind_eq_ok.mpr ⟨x, hx, bind_eq_ok.mpr ⟨more, ih hmore, h⟩⟩

/-- An item may be read from another node that holds the same. -/
theorem read_list_item {codec : Codec α} {before after : List Node} {items : List α}
    (henter : origin.enter = .ok inner)
    (hnode : ∀ x, codec.read inner node = .ok x → codec.read inner node' = .ok x)
    (h : (list codec).read origin (.list (before ++ node :: after) none) = .ok items) :
    (list codec).read origin (.list (before ++ node' :: after) none) = .ok items := by
  obtain ⟨inner', items', henter', hitems, heq⟩ := enclosed_eq_ok h
  cases henter.symm.trans henter'
  cases heq
  show (origin.enter >>= fun inner ↦ codec.readItems inner (before ++ node' :: after) >>= _) = _
  rw [henter, ok_bind, readItems_part hnode hitems]
  rfl

end Codec

end Chronicle.Json

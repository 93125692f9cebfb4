import Chronicle.Proofs.Json.Found

/-!
# Where a record finds its fields

A record that has no older names for its fields takes each of them from one part of a document: the
member of an object that has its name, or the item of a list that has its place.
`Codec.exists_parts` says so of every such record. So a record in memory can be told part by part,
`Codec.Exact.part_eq`, and a change in one part can be followed, `Codec.read_record_change`.
-/

namespace Chronicle

/-- The part of a value that holds the field of the given name and place. -/
def Value.part? : Value → String → Nat → Option Value
  | .object members, name, _ => members.lookup name
  | .list items, _, place => items[place]?
  | _, _, _ => none

namespace Json

/-- The part of a document that holds the field of the given name and place. -/
def Node.part? (node : Node) (name : String) (place : Nat) : Option Node :=
  match node with
  | .object members _ => members.lookup (some name)
  | .list items _ => items[place]?
  | _ => none

theorem Node.lookup_ofMembers (members : Attributes) (name : String) :
    (Node.ofMembers members).lookup (some name) = (members.lookup name).map .ofValue := by
  induction members with
  | nil => rfl
  | cons member rest ih =>
      obtain ⟨other, v⟩ := member
      rw [Node.ofMembers, List.lookup_cons, List.lookup_cons, ih, Option.some_beq_some]
      cases name == other <;> rfl

theorem Node.part?_ofValue (v : Value) (name : String) (place : Nat) :
    (Node.ofValue v).part? name place = (v.part? name place).map .ofValue := by
  cases v with
  | object members => exact Node.lookup_ofMembers members name
  | list items =>
      show (Node.ofItems items)[place]? = items[place]?.map .ofValue
      rw [Node.ofItems_eq_map, List.getElem?_map]
  | _ => rfl

/-- The parts of a document that a reader may take for the field. -/
def Node.parts (node : Node) (name : String) (place : Nat) : List Node :=
  match node with
  | .object members _ => members.filterMap fun m ↦ if m.1 = some name then some m.2 else none
  | .list items _ => items[place]?.toList
  | _ => []

theorem Node.mem_parts_object {members : List (Option String × Node)} {stop : Option Break}
    {m : Option String × Node} {name : String} {place : Nat} (hm : m ∈ members)
    (hname : m.1 = some name) : m.2 ∈ (Node.object members stop).parts name place :=
  List.mem_filterMap.mpr ⟨m, hm, if_pos hname⟩

/-- The members with the node of each one of the given name changed. -/
def Node.changeMembers {κ : Type} [DecidableEq κ] (name : κ) (g : Node → Node)
    (members : List (κ × Node)) : List (κ × Node) :=
  members.map fun m ↦ (m.1, if m.1 = name then g m.2 else m.2)

/-- The document with the parts of a field changed. -/
def Node.change (node : Node) (name : String) (place : Nat) (g : Node → Node) : Node :=
  match node with
  | .object members stop => .object (changeMembers (some name) g members) stop
  | .list items stop => .list (items.modify place g) stop
  | node => node

theorem Node.changeMembers_cons {κ : Type} [DecidableEq κ] (name : κ) (g : Node → Node)
    (m : κ × Node) (rest : List (κ × Node)) :
    changeMembers name g (m :: rest) =
      (m.1, if m.1 = name then g m.2 else m.2) :: changeMembers name g rest := rfl

theorem Node.changeMembers_concat {κ : Type} [DecidableEq κ] (name : κ) (g : Node → Node)
    (members : List (κ × Node)) (m : κ × Node) :
    changeMembers name g (members ++ [m]) =
      changeMembers name g members ++ [(m.1, if m.1 = name then g m.2 else m.2)] := List.map_append

theorem Node.changeMembers_eq_self {κ : Type} [DecidableEq κ] {name : κ} {g : Node → Node}
    {members : List (κ × Node)} (h : name ∉ Keyed.keys members) :
    changeMembers name g members = members := by
  refine (List.map_congr_left fun m hm ↦ ?_).trans (List.map_id members)
  have hne : m.1 ≠ name := fun heq ↦ h (heq ▸ List.mem_map_of_mem hm)
  rw [if_neg hne]
  rfl

theorem Node.lookup_changeMembers {κ : Type} [DecidableEq κ] (name other : κ) (g : Node → Node)
    (members : List (κ × Node)) :
    (changeMembers name g members).lookup other =
      (members.lookup other).map fun node ↦ if other = name then g node else node := by
  induction members with
  | nil => rfl
  | cons m rest ih =>
      rw [changeMembers_cons, List.lookup_cons, List.lookup_cons]
      by_cases h : other = m.1
      · subst h
        simp
      · rw [beq_false_of_ne h, ih]

/-- What is found of a field that may be left out. -/
def Found.Fields.readOr {α : Type} (found : Found.Fields) (name : String) (codec : Codec α)
    (default : α) : Except ReadError α :=
  match found.present.lookup name with
  | some node => codec.read found.origin node
  | none => .ok default

namespace Found.Fields

variable {α : Type} {codec : Codec α} {default : α} {origin : Origin} {name other : String}
  {present : List (String × Node)} {g : Node → Node} {missing : String → ReadError}

/-- A change in one field is not seen where another is read. -/
theorem readOr_change_ne (h : name ≠ other) :
    readOr ⟨origin, Node.changeMembers other g present, missing⟩ name codec default =
      readOr ⟨origin, present, missing⟩ name codec default := by
  simp only [readOr, Node.lookup_changeMembers, if_neg h]
  cases present.lookup name <;> rfl

/-- A change in a field changes what is read from it, and not its default. -/
theorem readOr_change {change : α → α} (hdefault : change default = default)
    (hread : ∀ part ∈ present.lookup name,
      codec.read origin (g part) = (codec.read origin part).map change) :
    readOr ⟨origin, Node.changeMembers name g present, missing⟩ name codec default =
      (readOr ⟨origin, present, missing⟩ name codec default).map change := by
  simp only [readOr, Node.lookup_changeMembers, if_true]
  cases hpart : present.lookup name with
  | none => exact congrArg Except.ok hdefault.symm
  | some part => exact hread part hpart

end Found.Fields

namespace Fields

variable {σ α : Type} {f : Fields σ α} {origin : Origin}

theorem build_optional {β : Type} (f : Fields σ (α → β)) (name : String) (codec : Codec α)
    (get : σ → α) (default : α) (found : Found.Fields) :
    (f.optional name codec get default).build found =
      (f.build found >>= fun g ↦ found.readOr name codec default >>= fun a ↦ .ok (g a)) := rfl

/-- Every field has one name, which no other has. -/
structure Plain (f : Fields σ α) : Prop where
  nodup : (f.fields.map (·.name)).Nodup
  aliases : ∀ field ∈ f.fields, field.aliases = []

theorem Plain.name_eq (h : f.Plain) {name : String} {field : Field σ}
    (hfind : f.find? name = some field) : field.name = name := by
  have hmem := List.mem_of_find?_eq_some hfind
  have hname := List.find?_some hfind
  rw [h.aliases field hmem] at hname
  simpa using hname

theorem find?_ne_none {field : Field σ} (hfield : field ∈ f.fields) :
    f.find? field.name ≠ none := by
  refine Option.isSome_iff_ne_none.mp (List.find?_isSome.mpr ⟨field, hfield, ?_⟩)
  simp

theorem Plain.find?_eq (h : f.Plain) {field : Field σ} (hfield : field ∈ f.fields) :
    f.find? field.name = some field := by
  obtain ⟨found, hfound⟩ := Option.ne_none_iff_exists'.mp (find?_ne_none hfield)
  rw [hfound, List.inj_on_of_nodup_map h.nodup (List.mem_of_find?_eq_some hfound) hfield
    (h.name_eq hfound)]

/-- A field is found under its name where it stands first. -/
theorem Plain.lookup_held (h : f.Plain) {field : Field σ} (hfield : field ∈ f.fields)
    (members : List (Option String × Node)) :
    (f.held members).lookup field.name = members.lookup (some field.name) := by
  induction members with
  | nil => rfl
  | cons member rest ih =>
      obtain ⟨name, node⟩ := member
      cases name with
      | none => exact ih
      | some name =>
          cases hfind : f.find? name with
          | some other =>
              rw [held_cons hfind, h.name_eq hfind, List.lookup_cons, List.lookup_cons, ih]
              rfl
          | none =>
              have hne : some field.name ≠ some name := by
                rintro ⟨⟩
                exact find?_ne_none hfield hfind
              rw [held_cons_none hfind, List.lookup_cons, beq_false_of_ne hne, ih]

/-- Under a name of several stands what has its place. -/
theorem lookup_zip {names : List String} (hnames : names.Nodup) {place : Nat} {name : String}
    (hname : names[place]? = some name) (items : List Node) :
    (names.zip items).lookup name = items[place]? := by
  induction names generalizing items place with
  | nil => cases hname
  | cons first names ih =>
      obtain ⟨hfirst, hnames⟩ := List.nodup_cons.mp hnames
      cases items with
      | nil => rfl
      | cons node rest =>
          rw [List.zip_cons_cons, List.lookup_cons]
          cases place with
          | zero =>
              cases hname
              rw [beq_self_eq_true]
              rfl
          | succ place =>
              have hmem : name ∈ names := List.mem_of_getElem? hname
              have hne : name ≠ first := fun heq ↦ hfirst (heq ▸ hmem)
              rw [beq_false_of_ne hne]
              exact ih hnames hname rest

/-- The field that a member stands for does not see a change in another field, nor one that the
changed field itself does not see. -/
theorem Plain.check_change (h : f.Plain) {field other : Field σ} (hfield : field ∈ f.fields)
    {name : String} (hfind : f.find? name = some other) {g : Node → Node} {node : Node}
    (hcheck : some name = some field.name →
      field.check origin (g node) = field.check origin node) :
    other.check origin (if some name = some field.name then g node else node) =
      other.check origin node := by
  split
  · next heq =>
      obtain rfl := Option.some.inj heq
      obtain rfl := Option.some.inj ((h.find?_eq hfield).symm.trans hfind)
      exact hcheck rfl
  · rfl

/-- A change that the check of a field does not see is carried over to what is found. -/
theorem Plain.scanMembers_change (h : f.Plain) {field : Field σ} (hfield : field ∈ f.fields)
    {g : Node → Node} {members : List (Option String × Node)}
    (hcheck : ∀ m ∈ members, m.1 = some field.name →
      field.check origin (g m.2) = field.check origin m.2) (present : List (String × Node)) :
    f.scanMembers origin (Node.changeMembers field.name g present)
        (Node.changeMembers (some field.name) g members) =
      (f.scanMembers origin present members).map (Node.changeMembers field.name g) := by
  induction members generalizing present with
  | nil => rfl
  | cons member rest ih =>
      obtain ⟨hfirst, hrest⟩ := List.forall_mem_cons.mp hcheck
      obtain ⟨name, node⟩ := member
      cases name with
      | none => rfl
      | some name =>
          rw [Node.changeMembers_cons, scanMembers, scanMembers]
          cases hfind : f.find? name with
          | some other =>
              have hfound : Node.changeMembers field.name g present ++
                  [(other.name, if some name = some field.name then g node else node)] =
                    Node.changeMembers field.name g (present ++ [(other.name, node)]) := by
                rw [Node.changeMembers_concat, h.name_eq hfind]
                simp only [Option.some.injEq]
              simp only [hfound, h.check_change hfield hfind hfirst, ih hrest]
              rw [Node.lookup_changeMembers, Option.isSome_map]
              split
              · rfl
              · exact (map_bind _ _ _).symm
          | none =>
              have hne : some name ≠ some field.name := by
                intro heq
                cases heq
                exact find?_ne_none hfield hfind
              simp only [if_neg hne, ih hrest]
              exact (map_bind _ _ _).symm

theorem scanItems_change {fields : List (Field σ)} (hnames : (fields.map (·.name)).Nodup)
    {place : Nat} {field : Field σ} (hfield : fields[place]? = some field) {g : Node → Node}
    {items : List Node} (hcheck : ∀ part ∈ items[place]?,
      field.check origin (g part) = field.check origin part) :
    scanItems origin fields (items.modify place g) =
      (scanItems origin fields items).map (Node.changeMembers field.name g) := by
  induction fields generalizing place items with
  | nil => cases hfield
  | cons first fields ih =>
      rw [List.map_cons] at hnames
      obtain ⟨hfirst, hnames⟩ := List.nodup_cons.mp hnames
      cases items with
      | nil =>
          rw [List.modify_nil]
          rfl
      | cons node rest =>
          cases place with
          | zero =>
              obtain rfl : first = field := Option.some.inj hfield
              have hsame : first.check origin (g node) = first.check origin node := hcheck _ rfl
              rw [List.modify_zero_cons, scanItems, scanItems, hsame, map_bind]
              refine bind_congr_ok fun _ _ ↦ ?_
              rw [map_bind]
              refine bind_congr_ok fun more hmore ↦ ?_
              -- No other field has the name of the first one.
              have hkeys : first.name ∉ Keyed.keys more := by
                rw [scanItems_eq_zip hmore]
                intro hmem
                obtain ⟨⟨name, part⟩, hpart, rfl⟩ := List.mem_map.mp hmem
                exact hfirst (List.of_mem_zip hpart).1
              show _ = Except.ok (Node.changeMembers first.name g ((first.name, node) :: more))
              rw [Node.changeMembers_cons, if_pos rfl, Node.changeMembers_eq_self hkeys]
          | succ place =>
              have hne : first.name ≠ field.name := by
                intro heq
                rw [heq] at hfirst
                exact hfirst (List.mem_map_of_mem (List.mem_of_getElem? hfield))
              rw [List.modify_succ_cons, scanItems, scanItems, map_bind]
              refine bind_congr_ok fun _ _ ↦ ?_
              rw [ih hnames hfield hcheck, bind_map, map_bind]
              refine bind_congr_ok fun more _ ↦ ?_
              show _ = Except.ok (Node.changeMembers field.name g ((first.name, node) :: more))
              rw [Node.changeMembers_cons, if_neg hne]

end Fields

namespace Codec

variable {α : Type} {f : Fields α α} {origin : Origin}

/-- A record is built from its fields, each found where it has its part of the document. -/
theorem exists_parts {name : String} {node : Node} {a : α} (h : f.Plain)
    (hread : (record name f).read origin node = .ok a) :
    ∃ inner found, origin.enter = .ok inner ∧ found.origin = inner ∧
      (∀ (place : Nat) field, f.fields[place]? = some field →
        found.present.lookup field.name = node.part? field.name place) ∧
      f.build found = .ok a := by
  obtain ⟨inner, found, henter, horigin, hholds, hbuild⟩ := exists_found hread
  refine ⟨inner, found, henter, horigin, fun place field hfield ↦ ?_, hbuild⟩
  generalize found.present = present at hholds
  cases hholds with
  | object members stop => exact h.lookup_held (List.mem_of_getElem? hfield) members
  | list items stop =>
      exact Fields.lookup_zip h.nodup (by rw [List.getElem?_map, hfield]; rfl) items

/-- A change in the parts of one field is read as a change of the record, if neither the check of
the field nor the building of the record sees more of it. -/
theorem read_record_change (h : f.Plain) (name : String) {place : Nat} {field : Field α}
    (hfield : f.fields[place]? = some field) {g : Node → Node} {change : α → α} {node : Node}
    (hcheck : ∀ inner, origin.enter = .ok inner → ∀ part ∈ node.parts field.name place,
      field.check inner (g part) = field.check inner part)
    (hbuild : ∀ inner present missing, origin.enter = .ok inner →
      (∀ part ∈ present.lookup field.name, part ∈ node.parts field.name place) →
      f.build ⟨inner, Node.changeMembers field.name g present, missing⟩ =
        (f.build ⟨inner, present, missing⟩).map change) :
    (record name f).read origin (node.change field.name place g) =
      ((record name f).read origin node).map change := by
  cases node with
  | object members stop =>
      show (origin.enter >>= fun inner ↦ _) = (origin.enter >>= fun inner ↦ _).map change
      rw [map_bind]
      refine bind_congr_ok fun inner hinner ↦ ?_
      have hscan : f.scanMembers inner [] (Node.changeMembers (some field.name) g members) =
          (f.scanMembers inner [] members).map (Node.changeMembers field.name g) :=
        h.scanMembers_change (List.mem_of_getElem? hfield)
          (fun m hm hname ↦ hcheck inner hinner m.2 (Node.mem_parts_object hm hname)) []
      rw [hscan, bind_map, map_bind]
      refine bind_congr_ok fun present hpresent ↦ ?_
      rw [map_bind]
      refine bind_congr_ok fun _ _ ↦ hbuild inner present _ hinner fun part hpart ↦ ?_
      rw [Fields.eq_held_of_scanMembers hpresent,
        h.lookup_held (List.mem_of_getElem? hfield)] at hpart
      obtain ⟨before, after, hmembers, -⟩ := List.lookup_eq_some_iff.mp hpart
      exact Node.mem_parts_object (m := (some field.name, part)) (by simp [hmembers]) rfl
  | list items stop =>
      have hlength : (items.modify place g).length = items.length := List.length_modify ..
      show (origin.enter >>= fun inner ↦ _) = (origin.enter >>= fun inner ↦ _).map change
      rw [map_bind]
      refine bind_congr_ok fun inner hinner ↦ ?_
      rw [Fields.scanItems_change h.nodup hfield fun part hpart ↦
        hcheck inner hinner part (Option.mem_toList.mpr hpart), bind_map, map_bind]
      refine bind_congr_ok fun present hpresent ↦ ?_
      have hparts : ∀ part ∈ present.lookup field.name,
          part ∈ (Node.list items stop).parts field.name place := by
        intro part hpart
        rw [Fields.scanItems_eq_zip hpresent, Fields.lookup_zip h.nodup
          (by rw [List.getElem?_map, hfield]; rfl)] at hpart
        exact Option.mem_toList.mpr hpart
      rw [map_bind, hlength]
      refine bind_congr_ok fun _ _ ↦ ?_
      simp only [hbuild inner present _ hinner hparts, bind_map, map_bind, closingItems, hlength]
      rfl
  | _ => rfl

/-! ### Fields that stand for themselves -/

/-- A value that is read is the one that is written. -/
def Exact (codec : Codec α) (origin : Origin) : Prop :=
  ∀ v a, codec.read origin (.ofValue v) = .ok a → codec.write a = v

theorem exact_str : str.Exact origin := by
  intro v s hread
  cases v with
  | str s => cases hread; rfl
  | _ => cases hread

theorem exact_integer (low high : Int) (expected : String) :
    (integer low high expected).Exact origin := by
  intro v n hread
  cases v with
  | int k =>
      simp only [integer, Node.ofValue] at hread
      split at hread
      · cases hread
        rfl
      · cases hread
  | _ => cases hread

theorem Exact.via {β : Type} {codec : Codec α} (h : codec.Exact origin) {decode : α → β}
    {encode : β → α} (hencode : ∀ a, encode (decode a) = a) :
    (codec.via decode encode).Exact origin := by
  intro v b hread
  obtain ⟨a, ha, rfl⟩ := map_eq_ok.mp hread
  show codec.write (encode (decode a)) = v
  rw [hencode, h v a ha]

theorem exact_int64 : int64.Exact origin :=
  (exact_integer _ _ _).via fun n ↦
    Subtype.ext (Int64.toInt_ofInt_of_le n.2.1 (Int.lt_of_le_sub_one n.2.2))

theorem Exact.readItems {codec : Codec α} (h : codec.Exact origin) {values : List Value}
    {items : List α} (hread : codec.readItems origin (Node.ofItems values) = .ok items) :
    items.map codec.write = values := by
  induction values generalizing items with
  | nil =>
      cases hread
      rfl
  | cons v rest ih =>
      obtain ⟨a, ha, hread⟩ := bind_eq_ok.mp hread
      obtain ⟨more, hmore, heq⟩ := bind_eq_ok.mp hread
      cases heq
      rw [List.map_cons, h v a ha, ih hmore]

theorem Exact.list {codec : Codec α} (h : ∀ inner, origin.enter = .ok inner → codec.Exact inner) :
    (list codec).Exact origin := by
  intro v items hread
  cases v with
  | list values =>
      obtain ⟨inner, read, henter, hread, heq⟩ := enclosed_eq_ok hread
      cases heq
      exact congrArg Value.list ((h inner henter).readItems hread)
  | _ => cases hread

/-- A part is what is written for the field that is read from it, or for the default. -/
theorem Exact.part_eq {codec : Codec α} {found : Found.Fields} (h : codec.Exact found.origin)
    {v : Value} {name : String} {place : Nat} {default a : α}
    (hfound : found.present.lookup name = (Node.ofValue v).part? name place)
    (hread : found.readOr name codec default = .ok a) :
    (v.part? name place).getD (codec.write default) = codec.write a := by
  rw [Found.Fields.readOr, hfound, Node.part?_ofValue] at hread
  cases hpart : v.part? name place with
  | none =>
      rw [hpart] at hread
      cases hread
      rfl
  | some w =>
      rw [hpart] at hread
      exact (h w a hread).symm

end Codec

end Json

end Chronicle

import Chronicle.Json.Record
import Chronicle.Proofs.Json.Codec
import Mathlib.Data.List.Nodup

/-!
# What a document holds of a record

Reading a record begins with a scan for its fields. If the scan of an object ends, it has found what
its members stand for, `Fields.scanMembers_eq_ok`; the scan of a list pairs the names of the fields
with the items in their places, `Fields.scanItems_eq_zip`. The record is built from what was found
and from nothing else, `Codec.exists_found`, so that properties of records that are read follow from
these lists without another look at the scans.
-/

namespace Chronicle.Json

namespace Fields

variable {σ α : Type} {f : Fields σ α} {field : Field σ} {origin : Origin} {key : String}
  {node : Node} {members : List (Option String × Node)}

/-- The members that stand for fields, by the names of these. -/
def held (f : Fields σ α) (members : List (Option String × Node)) : List (String × Node) :=
  members.filterMap fun m ↦ (m.1.bind f.find?).map fun field ↦ (field.name, m.2)

/-- A member that stands for a field is held by its name. -/
theorem held_cons (hfield : f.find? key = some field) :
    f.held ((some key, node) :: members) = (field.name, node) :: f.held members :=
  List.filterMap_cons_some (by simp [hfield])

/-- A member that stands for no field is not held. -/
theorem held_cons_none (hnone : f.find? key = none) :
    f.held ((some key, node) :: members) = f.held members :=
  List.filterMap_cons_none (by simp [hnone])

theorem held_append (f : Fields σ α) (before after : List (Option String × Node)) :
    f.held (before ++ after) = f.held before ++ f.held after := List.filterMap_append

/-- What is held stands in a member. -/
theorem mem_of_mem_held {entry : String × Node} (h : entry ∈ f.held members) :
    ∃ m ∈ members, entry.2 = m.2 := by
  obtain ⟨m, hm, hfield⟩ := List.mem_filterMap.mp h
  obtain ⟨field, -, rfl⟩ := Option.map_eq_some_iff.mp hfield
  exact ⟨m, hm, rfl⟩

/-- A member can be read as the field that it stands for, or passed over. -/
def Passes (f : Fields σ α) (origin : Origin) (m : Option String × Node) : Prop :=
  ∃ key, m.1 = some key ∧ match f.find? key with
    | some field => field.check origin m.2 = .ok ()
    | none => m.2.skip = .ok ()

/-- A member that stands for a field has to be the first one that does. -/
theorem scanMembers_cons_eq_ok {present found : List (String × Node)}
    (hfield : f.find? key = some field) :
    f.scanMembers origin present ((some key, node) :: members) = .ok found ↔
      field.name ∉ Keyed.keys present ∧ field.check origin node = .ok () ∧
        f.scanMembers origin (present ++ [(field.name, node)]) members = .ok found := by
  simp only [scanMembers, hfield]
  by_cases hmem : field.name ∈ Keyed.keys present
  · rw [if_pos (Option.isSome_iff_ne_none.mpr (Keyed.lookup_ne_none hmem))]
    exact ⟨(nomatch ·), fun h ↦ absurd hmem h.1⟩
  · rw [if_neg (by rw [Keyed.lookup_eq_none hmem]; simp)]
    refine bind_eq_ok.trans ⟨fun ⟨_, hcheck, h⟩ ↦ ⟨hmem, hcheck, h⟩, ?_⟩
    exact fun ⟨_, hcheck, h⟩ ↦ ⟨(), hcheck, h⟩

/-- Members are read if each of them passes and no field is found twice. -/
theorem scanMembers_eq_ok {present found : List (String × Node)}
    (hpresent : (Keyed.keys present).Nodup) :
    f.scanMembers origin present members = .ok found ↔
      (∀ m ∈ members, f.Passes origin m) ∧ (Keyed.keys (present ++ f.held members)).Nodup ∧
        found = present ++ f.held members := by
  induction members generalizing present with
  | nil =>
      rw [held, List.filterMap_nil, List.append_nil]
      exact ⟨fun h ↦ ⟨fun _ hm ↦ absurd hm List.not_mem_nil, hpresent, by cases h; rfl⟩,
        fun ⟨_, _, h⟩ ↦ congrArg Except.ok h.symm⟩
  | cons m rest ih =>
      obtain ⟨name, node⟩ := m
      rw [List.forall_mem_cons, and_assoc]
      cases name with
      | none => exact ⟨(nomatch ·), fun ⟨⟨_, hkey, _⟩, _⟩ ↦ nomatch hkey⟩
      | some key =>
          cases hfind : f.find? key with
          | none =>
              have hpasses : f.Passes origin (some key, node) ↔ node.skip = .ok () := by
                simp [Passes, hfind]
              rw [held_cons_none hfind, hpasses, scanMembers, hfind, ← ih hpresent]
              refine bind_eq_ok.trans ⟨fun ⟨_, hskip, h⟩ ↦ ⟨hskip, h⟩, ?_⟩
              exact fun ⟨hskip, h⟩ ↦ ⟨(), hskip, h⟩
          | some field =>
              have hpasses : f.Passes origin (some key, node) ↔
                  field.check origin node = .ok () := by
                simp [Passes, hfind]
              rw [scanMembers_cons_eq_ok hfind, held_cons hfind, hpasses,
                List.append_cons present _ (f.held rest)]
              constructor
              · rintro ⟨hnew, hcheck, h⟩
                have hnodup := Keyed.nodup_keys_insert hpresent field.name node
                rw [Keyed.insert_eq_append hnew] at hnodup
                exact ⟨hcheck, (ih hnodup).mp h⟩
              · rintro ⟨hcheck, hrest, hnodup, rfl⟩
                have hbefore := hnodup.sublist ((List.sublist_append_left _ _).map _)
                have hnew : field.name ∉ Keyed.keys present := Keyed.not_mem_keys_of_nodup hbefore
                exact ⟨hnew, hcheck, (ih hbefore).mpr ⟨hrest, hnodup, rfl⟩⟩

/-- An object is found to hold what its members stand for. -/
theorem eq_held_of_scanMembers {found : List (String × Node)}
    (h : f.scanMembers origin [] members = .ok found) : found = f.held members := by
  have hpresent : (Keyed.keys ([] : List (String × Node))).Nodup := List.nodup_nil
  exact ((scanMembers_eq_ok hpresent).mp h).2.2

/-- A list is found to hold the fields in the order of their names. -/
theorem scanItems_eq_zip {fields : List (Field σ)} {items : List Node}
    {found : List (String × Node)} (hscan : scanItems origin fields items = .ok found) :
    found = (fields.map (·.name)).zip items := by
  induction fields generalizing items found with
  | nil =>
      cases hscan
      rfl
  | cons field fields ih =>
      cases items with
      | nil =>
          cases hscan
          rfl
      | cons node rest =>
          obtain ⟨_, -, hscan⟩ := bind_eq_ok.mp hscan
          obtain ⟨more, hmore, heq⟩ := bind_eq_ok.mp hscan
          cases heq
          rw [List.map_cons, List.zip_cons_cons, ih hmore]

/-- What is found of the fields in a document: the members of an object that stand for fields, or
the items of a list in their places. -/
inductive Holds (f : Fields σ α) : Node → List (String × Node) → Prop
  | object (members : List (Option String × Node)) (stop : Option Break) :
      Holds f (.object members stop) (f.held members)
  | list (items : List Node) (stop : Option Break) :
      Holds f (.list items stop) ((f.fields.map (·.name)).zip items)

end Fields

/-- A record that is read is built from what its document holds of it. -/
theorem Codec.exists_found {α : Type} {f : Fields α α} {origin : Origin} {name : String}
    {node : Node} {a : α} (hread : (record name f).read origin node = .ok a) :
    ∃ inner found, origin.enter = .ok inner ∧ found.origin = inner ∧
      f.Holds node found.present ∧ f.build found = .ok a := by
  cases node with
  | object members stop =>
      obtain ⟨inner, henter, hread⟩ := bind_eq_ok.mp hread
      obtain ⟨present, hpresent, hread⟩ := bind_eq_ok.mp hread
      obtain ⟨_, -, hbuild⟩ := bind_eq_ok.mp hread
      cases Fields.eq_held_of_scanMembers hpresent
      exact ⟨inner, _, henter, rfl, .object members stop, hbuild⟩
  | list items stop =>
      obtain ⟨inner, henter, hread⟩ := bind_eq_ok.mp hread
      obtain ⟨present, hpresent, hread⟩ := bind_eq_ok.mp hread
      obtain ⟨_, -, hread⟩ := bind_eq_ok.mp hread
      obtain ⟨value, hbuild, hread⟩ := bind_eq_ok.mp hread
      obtain ⟨_, -, heq⟩ := bind_eq_ok.mp hread
      cases heq
      cases Fields.scanItems_eq_zip hpresent
      exact ⟨inner, _, henter, rfl, .list items stop, hbuild⟩
  | _ => cases hread

end Chronicle.Json

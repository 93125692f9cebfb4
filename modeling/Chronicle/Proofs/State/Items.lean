import Chronicle.Proofs.Json.Attributes
import Chronicle.State.Basic

/-!
# Stacks of items in documents

A stack is read member by member, and `Item.Adds` says what each of them adds to what is read so
far; `Item.readMembers_cons_eq_ok` says that nothing else happens. So the other attributes of a stack
that is read have names of their own, which is why such a stack is restored: `Item.stable_codec`.
-/

namespace Chronicle

open Json Codec

namespace Item

variable {origin inner : Origin} {draft result : Draft} {m : Option String × Node}
  {members : List (Option String × Node)}

/-- What a member adds to what is read so far of a stack. -/
inductive Adds (origin : Origin) : Option String × Node → Draft → Draft → Prop
  | id {draft : Draft} {node : Node} {id : String} :
      draft.id = none → str.read origin node = .ok id →
      Adds origin (some "id", node) draft { draft with id := some id }
  | count {draft : Draft} {node : Node} {count : UInt32} :
      draft.count = none → uint32.read origin node = .ok count →
      Adds origin (some "count", node) draft { draft with count := some count }
  | other {draft : Draft} {name : String} {node : Node} {v : Value} :
      name ≠ "id" → name ≠ "count" → value.read origin node = .ok v →
      Adds origin (some name, node) draft
        { draft with attributes := Keyed.insert name v draft.attributes }

/-- Members are read one after another. -/
theorem readMembers_cons_eq_ok : readMembers origin draft (m :: members) = .ok result ↔
    ∃ mid, Adds origin m draft mid ∧ readMembers origin mid members = .ok result := by
  obtain ⟨name, node⟩ := m
  cases name with
  | none =>
      exact ⟨(nomatch ·), fun ⟨_, h, _⟩ ↦ nomatch h⟩
  | some name =>
      rw [readMembers]
      constructor
      · intro h
        split at h
        · next hid =>
            subst hid
            split at h
            · cases h
            · next hnone =>
                obtain ⟨id, hread, h⟩ := bind_eq_ok.mp h
                exact ⟨_, .id (by simpa using hnone) hread, h⟩
        · next hid =>
            split at h
            · next hcount =>
                subst hcount
                split at h
                · cases h
                · next hnone =>
                    obtain ⟨count, hread, h⟩ := bind_eq_ok.mp h
                    exact ⟨_, .count (by simpa using hnone) hread, h⟩
            · next hcount =>
                obtain ⟨v, hread, h⟩ := bind_eq_ok.mp h
                exact ⟨_, .other hid hcount hread, h⟩
      · rintro ⟨mid, hadds, h⟩
        cases hadds with
        | id hnone hread =>
            rw [if_pos rfl, hnone, hread]
            exact h
        | count hnone hread =>
            rw [if_neg (by decide), if_pos rfl, hnone, hread]
            exact h
        | other hid hcount hread =>
            rw [if_neg hid, if_neg hcount, hread]
            exact h

/-- The other attributes of a stack that is read have names of their own. -/
structure Sound (origin : Origin) (attributes : Attributes) : Prop extends
    Settled origin attributes where
  id : "id" ∉ Keyed.keys attributes
  count : "count" ∉ Keyed.keys attributes

theorem sound_nil : Sound origin [] := ⟨settled_nil, by simp [Keyed.keys], by simp [Keyed.keys]⟩

/-- An attribute with another name can be set. -/
theorem Sound.insert {attributes : Attributes} (h : Sound origin attributes) {name : String}
    (hid : name ≠ "id") (hcount : name ≠ "count") {v : Value} (hv : value.Restores origin v) :
    Sound origin (Keyed.insert name v attributes) where
  toSettled := h.toSettled.insert name hv
  id hmem := (Keyed.mem_keys_insert.mp hmem).elim (hid ·.symm) h.id
  count hmem := (Keyed.mem_keys_insert.mp hmem).elim (hcount ·.symm) h.count

/-- Attributes behind those that are read already are read in order. -/
theorem readMembers_written {more : Attributes} (h : Sound origin (draft.attributes ++ more)) :
    readMembers origin draft (Node.ofMembers more) =
      .ok { draft with attributes := draft.attributes ++ more } := by
  induction more generalizing draft with
  | nil =>
      rw [List.append_nil]
      rfl
  | cons member rest ih =>
      obtain ⟨name, v⟩ := member
      have hmem : (name, v) ∈ draft.attributes ++ (name, v) :: rest := by simp
      have hkey := List.mem_map_of_mem (f := Prod.fst) hmem
      have hid : name ≠ "id" := fun heq ↦ h.id (heq ▸ hkey)
      have hcount : name ≠ "count" := fun heq ↦ h.count (heq ▸ hkey)
      have hfresh := Keyed.not_mem_keys_of_nodup h.nodup
      have hadds : Adds origin (some name, .ofValue v) draft _ :=
        .other hid hcount (h.restores _ hmem).reads
      rw [Keyed.insert_eq_append hfresh] at hadds
      rw [List.append_cons] at h ⊢
      exact readMembers_cons_eq_ok.mpr ⟨_, hadds, ih h⟩

/-- What is read of a stack is sound. -/
theorem sound_of_readMembers (hdraft : Sound origin draft.attributes) (hfit : MembersFit members)
    (hread : readMembers origin draft members = .ok result) : Sound origin result.attributes := by
  induction members generalizing draft with
  | nil =>
      cases hread
      exact hdraft
  | cons m rest ih =>
      obtain ⟨hnode, hrest⟩ := hfit
      obtain ⟨mid, hadds, hread⟩ := readMembers_cons_eq_ok.mp hread
      cases hadds with
      | id => exact ih (by exact hdraft) hrest hread
      | count => exact ih (by exact hdraft) hrest hread
      | other hid hcount hv =>
          exact ih (hdraft.insert hid hcount (stable_value _ _ hnode hv)) hrest hread

/-- A stack with sound attributes is restored. -/
theorem restores_of_sound (henter : origin.enter = .ok inner) {item : Item}
    (h : Sound inner item.attributes) : codec.Restores origin item := by
  obtain ⟨id, count, attributes⟩ := item
  have hcount : uint32.Restores inner count := faithful_uint32 count
  refine ⟨⟨trivial, hcount.fits, h.membersFit⟩, ?_⟩
  have hread : readMembers inner ⟨none, none, []⟩ (Node.ofMembers (("id", str.write id) ::
      ("count", uint32.write count) :: attributes)) = .ok ⟨some id, some count, attributes⟩ := by
    refine readMembers_cons_eq_ok.mpr ⟨⟨some id, none, []⟩, .id rfl rfl, ?_⟩
    refine readMembers_cons_eq_ok.mpr ⟨⟨some id, some count, []⟩, .count rfl hcount.reads, ?_⟩
    exact readMembers_written (by exact h)
  show (origin.enter >>= fun inner ↦ readMembers inner ⟨none, none, []⟩ (Node.ofMembers
    (("id", str.write id) :: ("count", uint32.write count) :: attributes)) >>= _) = _
  rw [henter, ok_bind, hread]
  rfl

theorem stable_codec : codec.Stable origin := by
  intro node item hfit hread
  cases node with
  | object members stop =>
      obtain ⟨inner, draft, henter, hdraft, hread⟩ := enclosed_eq_ok hread
      have hsound := sound_of_readMembers sound_nil hfit hdraft
      split at hread
      · cases hread
        exact restores_of_sound henter hsound
      · cases hread
  | _ => cases hread

end Item

end Chronicle

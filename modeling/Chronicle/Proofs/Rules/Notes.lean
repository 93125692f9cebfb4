import Chronicle.Proofs.Json.Parts
import Chronicle.Proofs.Results
import Chronicle.Rules.Document

/-!
# Notes in a rule document

Categories and events with reserved names are notes. A note has to hold a value that can be read,
but which one it is, and whether the note is there, changes neither the rule book of a text nor the
error: `RuleBook.parse_eq_of_alike`.
-/

namespace Chronicle

open Json

namespace RuleDocument

/-! ### Texts without their notes -/

/-- A member of an object is a note if its name is reserved. -/
def isNote (member : Option String × Node) : Bool := member.1.any isReserved

/-- The members that are no notes. -/
def bareMembers (members : List (Option String × Node)) : List (Option String × Node) :=
  members.filter fun member ↦ !isNote member

/-- A category without the notes in it. -/
def bareCategory : Node → Node
  | .object members stop => .object (bareMembers members) stop
  | node => node

/-- The events of a document without notes. -/
def bareEvents : Node → Node
  | .object members stop =>
    .object ((bareMembers members).map fun member ↦ (member.1, bareCategory member.2)) stop
  | node => node

/-- The document in a text, without the notes in its events. -/
def bare (node : Node) : Node := node.change "state_change_events" 0 bareEvents

/-- The notes among members, with the levels that these may nest. -/
def notesAmong (levels : Nat) (members : List (Option String × Node)) : List (Nat × Node) :=
  (members.filter isNote).map fun member ↦ (levels, member.2)

/-- The notes in a category. -/
def notesInCategory : Node → List (Nat × Node)
  | .object members _ => notesAmong (Codec.maxLevels - 3) members
  | _ => []

/-- The notes in the events of a document. -/
def notesInEvents : Node → List (Nat × Node)
  | .object members _ => notesAmong (Codec.maxLevels - 2) members ++
      (bareMembers members).flatMap fun member ↦ notesInCategory member.2
  | _ => []

/-- The notes in a document, with the levels that they may nest. -/
def notes (node : Node) : List (Nat × Node) :=
  (node.parts "state_change_events" 0).flatMap notesInEvents

/-- All notes hold values that can be read. -/
def Readable (notes : List (Nat × Node)) : Prop :=
  ∀ note ∈ notes, ∃ v, note.2.toValue (.text note.1) = .ok v

/-! ### Values without their notes -/

/-- The entries that are no notes. -/
def plainEntries (entries : Attributes) : Attributes :=
  entries.filter fun entry ↦ !isReserved entry.1

/-- A category without the notes in it. -/
def plainCategory : Value → Value
  | .object events => .object (plainEntries events)
  | v => v

/-- The events of a document without notes. -/
def plainEvents (events : Attributes) : Attributes :=
  (plainEntries events).map fun entry ↦ (entry.1, plainCategory entry.2)

/-- The document without the notes in its events. -/
def plain (document : RuleDocument) : RuleDocument :=
  { document with events := plainEvents document.events }

/-- A note adds nothing, also where it replaces one of its name. -/
theorem plainEntries_insert_note {name : String} (h : isReserved name = true) (v : Value)
    (entries : Attributes) :
    plainEntries (Keyed.insert name v entries) = plainEntries entries := by
  rw [plainEntries, Keyed.filter_insert fun name ↦ !isReserved name, if_neg (by simp [h]),
    plainEntries]

theorem plainEntries_insert {name : String} (h : isReserved name = false) (v : Value)
    (entries : Attributes) :
    plainEntries (Keyed.insert name v entries) = Keyed.insert name v (plainEntries entries) := by
  rw [plainEntries, Keyed.filter_insert fun name ↦ !isReserved name, if_pos (by simp [h]),
    plainEntries]

/-- Notes that can be read leave nothing behind where they are left out. -/
theorem toMembers_bareMembers {origin : Origin} {g : Node → Node} {h : Value → Value}
    {members : List (Option String × Node)}
    (hnotes : ∀ m ∈ members, isNote m → ∃ v, m.2.toValue origin = .ok v)
    (hothers : ∀ m ∈ members, !isNote m → (g m.2).toValue origin = (m.2.toValue origin).map h)
    (before : Attributes) :
    Node.toMembers origin ((plainEntries before).map fun entry ↦ (entry.1, h entry.2))
        ((bareMembers members).map fun m ↦ (m.1, g m.2)) =
      (Node.toMembers origin before members).map fun entries ↦
        (plainEntries entries).map fun entry ↦ (entry.1, h entry.2) := by
  induction members generalizing before with
  | nil => rfl
  | cons m rest ih =>
      obtain ⟨hnote, hnotesRest⟩ := List.forall_mem_cons.mp hnotes
      obtain ⟨hother, hothersRest⟩ := List.forall_mem_cons.mp hothers
      obtain ⟨name, node⟩ := m
      cases name with
      | none => rfl
      | some name =>
          rw [Node.toMembers, map_bind]
          cases hreserved : isReserved name with
          | true =>
              obtain ⟨v, hv⟩ := hnote hreserved
              rw [bareMembers, List.filter_cons_of_neg (by simp [isNote, hreserved]), hv, ok_bind,
                ← plainEntries_insert_note hreserved v]
              exact ih hnotesRest hothersRest _
          | false =>
              rw [bareMembers, List.filter_cons_of_pos (by simp [isNote, hreserved]),
                List.map_cons, Node.toMembers, hother (by simp [isNote, hreserved]), bind_map]
              refine bind_congr_ok fun v _ ↦ ?_
              rw [← Keyed.map_insert, ← plainEntries_insert hreserved]
              exact ih hnotesRest hothersRest _

theorem enter_events : (Origin.text (Codec.maxLevels - 1)).enter =
    .ok (.text (Codec.maxLevels - 2)) := rfl

theorem enter_category : (Origin.text (Codec.maxLevels - 2)).enter =
    .ok (.text (Codec.maxLevels - 3)) := rfl

theorem toValue_bareCategory {node : Node} (h : Readable (notesInCategory node)) :
    (bareCategory node).toValue (.text (Codec.maxLevels - 2)) =
      (node.toValue (.text (Codec.maxLevels - 2))).map plainCategory := by
  cases node with
  | object members stop =>
      have hmembers : Node.toMembers (.text (Codec.maxLevels - 3)) [] (bareMembers members) =
          (Node.toMembers (.text (Codec.maxLevels - 3)) [] members).map plainEntries := by
        have hnotes : ∀ m ∈ members, isNote m →
            ∃ v, m.2.toValue (.text (Codec.maxLevels - 3)) = .ok v :=
          fun m hm hnote ↦ h _ (List.mem_map_of_mem (List.mem_filter.mpr ⟨hm, hnote⟩))
        have hbare := toMembers_bareMembers (g := id) (h := id) hnotes
          (fun m _ _ ↦ (map_id _).symm) []
        simp only [id, List.map_id'] at hbare
        exact hbare
      simp only [bareCategory, Node.toValue, enter_category, ok_bind, hmembers, bind_map, map_bind]
      rfl
  | list items stop =>
      simp only [bareCategory, Node.toValue, enter_category, ok_bind, map_bind]
      rfl
  | _ => rfl

theorem read_bareEvents {node : Node} (h : Readable (notesInEvents node)) :
    Codec.attributes.read (.text (Codec.maxLevels - 1)) (bareEvents node) =
      (Codec.attributes.read (.text (Codec.maxLevels - 1)) node).map plainEvents := by
  cases node with
  | object members stop =>
      obtain ⟨hnotes, hcategories⟩ := List.forall_mem_append.mp h
      have hmembers : Node.toMembers (.text (Codec.maxLevels - 2)) []
          ((bareMembers members).map fun m ↦ (m.1, bareCategory m.2)) =
            (Node.toMembers (.text (Codec.maxLevels - 2)) [] members).map plainEvents := by
        refine toMembers_bareMembers ?_ ?_ []
        · exact fun m hm hnote ↦
            hnotes _ (List.mem_map_of_mem (List.mem_filter.mpr ⟨hm, hnote⟩))
        · exact fun m hm hother ↦ toValue_bareCategory fun note hnote ↦ hcategories note
            (List.mem_flatMap.mpr ⟨m, List.mem_filter.mpr ⟨hm, hother⟩, hnote⟩)
      simp only [Codec.attributes, bareEvents, enter_events, ok_bind, hmembers, bind_map, map_bind]
      rfl
  | _ => rfl

theorem plain_fields : fields.Plain := ⟨by decide, by decide⟩

theorem build_fields (found : Found.Fields) : fields.build found =
    (found.readOr "state_change_events" Codec.attributes [] >>= fun events ↦
      found.readOr "computed_values" Codec.attributes [] >>= fun definitions ↦
        .ok ⟨events, definitions⟩) := by
  rw [fields, Fields.build_optional, Fields.build_optional]
  cases found.readOr "state_change_events" Codec.attributes [] <;> rfl

theorem build_change {origin : Origin} {present : List (String × Node)}
    {missing : String → ReadError}
    (h : ∀ part ∈ present.lookup "state_change_events",
      Codec.attributes.read origin (bareEvents part) =
        (Codec.attributes.read origin part).map plainEvents) :
    fields.build ⟨origin, Node.changeMembers "state_change_events" bareEvents present, missing⟩ =
      (fields.build ⟨origin, present, missing⟩).map plain := by
  have hdefault : plainEvents [] = [] := rfl
  rw [build_fields, build_fields, Found.Fields.readOr_change hdefault h, bind_map, map_bind]
  refine bind_congr_ok fun events _ ↦ ?_
  rw [Found.Fields.readOr_change_ne (by decide), map_bind]
  rfl

/-- A document without its notes is read as such. -/
theorem read_bare {node : Node} (h : Readable (notes node)) :
    codec.read (.text Codec.maxLevels) (bare node) =
      (codec.read (.text Codec.maxLevels) node).map plain := by
  have hevents : ∀ part ∈ node.parts "state_change_events" 0,
      Codec.attributes.read (.text (Codec.maxLevels - 1)) (bareEvents part) =
        (Codec.attributes.read (.text (Codec.maxLevels - 1)) part).map plainEvents :=
    fun part hpart ↦ read_bareEvents fun note hnote ↦
      h note (List.mem_flatMap.mpr ⟨part, hpart, hnote⟩)
  have hfirst : fields.fields[0]? = some ⟨"state_change_events", [],
    fun origin node ↦ discard (Codec.attributes.read origin node),
      fun document ↦ .object document.events⟩ := rfl
  refine Codec.read_record_change plain_fields "RuleDocument" hfirst ?_ ?_
  · intro inner hinner part hpart
    cases hinner
    show discard (Codec.attributes.read (.text (Codec.maxLevels - 1)) (bareEvents part)) =
      discard (Codec.attributes.read (.text (Codec.maxLevels - 1)) part)
    rw [hevents part hpart]
    cases Codec.attributes.read (.text (Codec.maxLevels - 1)) part <;> rfl
  · intro inner present missing hinner hparts
    cases hinner
    exact build_change fun part hpart ↦ hevents part (hparts part hpart)

/-! ### Texts with other notes -/

/-- The texts say the same but for their notes, all of which can be read. -/
structure Alike (cs cs' : List Char) : Prop where
  bare : bare (Node.parse cs).1 = RuleDocument.bare (Node.parse cs').1
  rest : (skipSpace (Node.parse cs).2).isEmpty = (skipSpace (Node.parse cs').2).isEmpty
  readable : Readable (notes (Node.parse cs).1)
  readable' : Readable (notes (Node.parse cs').1)

theorem Alike.readText_eq {cs cs' : List Char} (h : Alike cs cs') :
    (codec.readText cs).map plain = (codec.readText cs').map plain := by
  have hread : (codec.read (.text Codec.maxLevels) (Node.parse cs).1).map plain =
      (codec.read (.text Codec.maxLevels) (Node.parse cs').1).map plain := by
    rw [← read_bare h.readable, h.bare, read_bare h.readable']
  have htext : ∀ cs, (codec.readText cs).map plain =
      (codec.read (.text Codec.maxLevels) (Node.parse cs).1).map plain >>= fun document ↦
        if (skipSpace (Node.parse cs).2).isEmpty then .ok document
        else .error (.text .malformed) := by
    intro cs
    rw [Codec.readText]
    generalize Node.parse cs = parsed
    show (codec.read (.text Codec.maxLevels) parsed.1 >>= fun document ↦ _).map plain = _
    rw [map_bind, bind_map]
    refine bind_congr_ok fun document _ ↦ ?_
    cases (skipSpace parsed.2).isEmpty <;> rfl
  rw [htext, htext, hread, h.rest]

end RuleDocument

namespace RuleBook

open RuleDocument

theorem readRules_plainEntries (category : String) (events : Attributes) :
    readRules category (plainEntries events) = readRules category events := by
  induction events with
  | nil => rfl
  | cons entry rest ih =>
      obtain ⟨event, v⟩ := entry
      cases hreserved : isReserved event with
      | true =>
          rw [plainEntries, List.filter_cons_of_neg (by simp [hreserved]), ← plainEntries, ih,
            readRules, if_pos hreserved]
      | false =>
          rw [plainEntries, List.filter_cons_of_pos (by simp [hreserved]), ← plainEntries,
            readRules, readRules, ih]

theorem readCategories_plainEvents (events : Attributes) :
    readCategories (plainEvents events) = readCategories events := by
  induction events with
  | nil => rfl
  | cons entry rest ih =>
      obtain ⟨category, v⟩ := entry
      cases hreserved : isReserved category with
      | true =>
          rw [plainEvents, plainEntries, List.filter_cons_of_neg (by simp [hreserved]),
            ← plainEntries, ← plainEvents, ih]
          exact (if_pos hreserved).symm
      | false =>
          rw [plainEvents, plainEntries, List.filter_cons_of_pos (by simp [hreserved]),
            ← plainEntries, List.map_cons, ← plainEvents]
          cases v with
          | object events =>
              simp only [plainCategory, readCategories, readRules_plainEntries, ih]
          | _ => simp only [plainCategory, readCategories, ih]

/-- A document has the same rule book without its notes. -/
theorem ofDocument_plain (document : RuleDocument) :
    ofDocument document.plain = ofDocument document := by
  have hcategories : (Keyed.keys document.plain.events).filter (fun name ↦ !isReserved name) =
      (Keyed.keys document.events).filter fun name ↦ !isReserved name := by
    rw [plain, plainEvents, plainEntries, Keyed.keys, List.map_map, Keyed.keys, List.filter_map,
      List.filter_map, List.filter_filter]
    simp only [Function.comp_def, Bool.and_self]
  have hrules : readCategories document.plain.events = readCategories document.events :=
    readCategories_plainEvents document.events
  rw [ofDocument, ofDocument, hcategories, hrules]
  rfl

/-- Notes change neither the rule book of a text nor the error. -/
theorem parse_eq_of_alike {cs cs' : List Char} (h : Alike cs cs') : parse cs' = parse cs := by
  have hparse : ∀ cs, parse cs =
      (((codec.readText cs).map plain).mapError .document >>= ofDocument) := by
    intro cs
    rw [parse]
    cases codec.readText cs with
    | ok document => exact (ofDocument_plain document).symm
    | error cause => rfl
  rw [hparse, hparse, h.readText_eq]

end RuleBook

end Chronicle

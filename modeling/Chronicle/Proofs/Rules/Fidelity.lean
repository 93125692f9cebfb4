import Chronicle.Proofs.Rules.Notes
import Chronicle.Proofs.Rules.Order
import Mathlib.Data.List.Perm.Basic

/-!
# What a rule book keeps of its document

A rule book says what its document says, apart from the notes: `RuleBook.parse_faithful` tells the
rules, the categories and the definitions entry by entry, says that notes do not count, and that
rules with distinct priorities can be grouped and ordered in any way.
-/

namespace Chronicle

open Json

/-- The rule without its category. -/
def EventRule.unlabelled (r : EventRule) : EventRule := { r with category := "" }

namespace RuleDocument

/-! ### What a rule says -/

/-- The rule says what is written in the item; a part that is left out has its default. -/
structure Item.Describes (item : Item) (r : EventRule) : Prop where
  category : r.category = item.category
  event : r.event = item.event
  source : (item.value.part? "condition" 0).getD (.str "") = .str r.source
  description : (item.value.part? "description" 1).getD (.str "") = .str r.description
  priority : (item.value.part? "priority" 2).getD (.int 10) = .int r.priority.toInt
  extractions : (item.value.part? "data_extract" 3).getD (.list []) =
    .list (r.extractions.map fun e ↦ .str e.source)

theorem plain_entryFields : RuleEntry.fields.Plain := ⟨by decide, by decide⟩

/-- A rule is built from what is found of its fields. -/
theorem build_entryFields {found : Found.Fields} {entry : RuleEntry}
    (h : RuleEntry.fields.build found = .ok entry) :
    found.readOr "condition" Codec.str "" = .ok entry.condition ∧
      found.readOr "description" Codec.str "" = .ok entry.description ∧
      found.readOr "priority" Codec.int64 10 = .ok entry.priority ∧
      found.readOr "data_extract" (Codec.list Codec.str) [] = .ok entry.extractions := by
  rw [RuleEntry.fields, Fields.build_optional, Fields.build_optional, Fields.build_optional,
    Fields.build_optional] at h
  obtain ⟨_, h, hextractions⟩ := bind_eq_ok.mp h
  obtain ⟨_, h, hpriority⟩ := bind_eq_ok.mp h
  obtain ⟨_, h, hdescription⟩ := bind_eq_ok.mp h
  obtain ⟨_, h, hcondition⟩ := bind_eq_ok.mp h
  cases h
  obtain ⟨condition, hreadCondition, heq⟩ := bind_eq_ok.mp hcondition
  cases heq
  obtain ⟨description, hreadDescription, heq⟩ := bind_eq_ok.mp hdescription
  cases heq
  obtain ⟨priority, hreadPriority, heq⟩ := bind_eq_ok.mp hpriority
  cases heq
  obtain ⟨extractions, hreadExtractions, heq⟩ := bind_eq_ok.mp hextractions
  cases heq
  exact ⟨hreadCondition, hreadDescription, hreadPriority, hreadExtractions⟩

/-- A rule that is read has the parts of its entry. -/
theorem Item.Gives.describes {item : Item} {r : EventRule} (h : item.Gives r) :
    item.Describes r := by
  unfold Gives RuleBook.readRule at h
  split at h
  · next entry hread =>
      cases h
      obtain ⟨inner, found, -, -, hparts, hbuild⟩ := Codec.exists_parts plain_entryFields hread
      obtain ⟨hcondition, hdescription, hpriority, hextractions⟩ := build_entryFields hbuild
      refine ⟨rfl, rfl, ?_, ?_, ?_, ?_⟩
      · exact Codec.exact_str.part_eq (hparts 0 _ rfl) hcondition
      · exact Codec.exact_str.part_eq (hparts 1 _ rfl) hdescription
      · exact Codec.exact_int64.part_eq (hparts 2 _ rfl) hpriority
      · have hexact : (Codec.list Codec.str).Exact found.origin :=
          Codec.Exact.list fun _ _ ↦ Codec.exact_str
        refine (hexact.part_eq (hparts 3 _ rfl) hextractions).trans ?_
        rw [List.map_map]
        rfl
  · cases h

/-! ### Other groups and orders -/

/-- What an item says under its event. -/
def Item.entry (item : Item) : String × Value := (item.event, item.value)

/-- The other document has the same rules in other groups or in another order, and it can be
read. -/
structure Regroups (document other : RuleDocument) : Prop where
  entries : (other.items.map Item.entry).Perm (document.items.map Item.entry)
  objects : ∀ entry ∈ other.events, isReserved entry.1 = false →
    ∃ events, entry.2 = .object events
  definitions : ∃ definitions, RuleBook.readDefinitions other.definitions = .ok definitions

/-- An entry gives the same rule in every category, apart from the label. -/
theorem Item.Gives.unlabelled {item : Item} {r : EventRule} (h : item.Gives r) :
    RuleBook.readRule "" item.event item.value = .ok r.unlabelled := by
  unfold Gives RuleBook.readRule at h
  rw [RuleBook.readRule]
  split at h
  · cases h
    rfl
  · cases h

theorem Item.exists_gives {item : Item} {r : EventRule}
    (h : RuleBook.readRule "" item.event item.value = .ok r) :
    ∃ labelled, item.Gives labelled ∧ labelled.unlabelled = r := by
  refine ⟨{ r with category := item.category }, ?_⟩
  rw [RuleBook.readRule] at h
  split at h
  · next entry hread =>
      cases h
      exact ⟨by rw [Gives, RuleBook.readRule, hread], rfl⟩
  · cases h

theorem exists_labelled {items : List Item} {rules : List EventRule}
    (h : List.Forall₂ (fun entry r ↦ RuleBook.readRule "" entry.1 entry.2 = .ok r)
      (items.map Item.entry) rules) :
    ∃ labelled, List.Forall₂ Item.Gives items labelled ∧ labelled.map (·.unlabelled) = rules := by
  induction items generalizing rules with
  | nil =>
      cases h
      exact ⟨[], .nil, rfl⟩
  | cons item rest ih =>
      obtain ⟨r, more, hr, hmore, rfl⟩ := List.forall₂_cons_left_iff.mp h
      obtain ⟨first, hfirst, rfl⟩ := item.exists_gives hr
      obtain ⟨labelled, hlabelled, rfl⟩ := ih hmore
      exact ⟨first :: labelled, .cons hfirst hlabelled, rfl⟩

end RuleDocument

namespace RuleBook

open RuleDocument

/-- Rules with distinct priorities are tried in one order, however they are written. -/
theorem sorted_eq_of_perm {written other : List EventRule} (h : other.Perm written)
    (hdistinct : (written.map (·.priority)).Nodup) :
    sorted precedes other = sorted precedes written := by
  have hleft := ordered_sorted other
  have hright := ordered_sorted written
  have hperm : (sorted precedes other).Perm (sorted precedes written) :=
    hleft.perm.trans (h.trans hright.perm.symm)
  -- Two orders of one list agree, where no two rules have one priority.
  refine hperm.eq_of_pairwise ?_ hleft.ascending hright.ascending
  intro a b ha hb hab hba
  exact List.inj_on_of_nodup_map hdistinct (h.mem_iff.mp (hleft.perm.mem_iff.mp ha))
    (hright.perm.mem_iff.mp hb) (Int64.le_antisymm hab hba)

/-- A document with the same rules in other groups or in another order gives the same rules, apart
from the labels. -/
theorem exists_regrouped {document other : RuleDocument} {book : RuleBook}
    (h : ofDocument document = .ok book) (hdistinct : (book.rules.map (·.priority)).Nodup)
    (hother : document.Regroups other) :
    ∃ regrouped, ofDocument other = .ok regrouped ∧
      regrouped.rules.map (·.unlabelled) = book.rules.map (·.unlabelled) := by
  obtain ⟨written, hwritten, h⟩ := bind_eq_ok.mp h
  obtain ⟨_, -, heq⟩ := bind_eq_ok.mp h
  cases heq
  obtain ⟨-, hgives⟩ := readCategories_eq_ok.mp hwritten
  have hunlabelled : List.Forall₂ (fun entry r ↦ readRule "" entry.1 entry.2 = .ok r)
      (document.items.map Item.entry) (written.map (·.unlabelled)) := by
    rw [List.forall₂_map_left_iff, List.forall₂_map_right_iff]
    exact hgives.imp fun _ _ hgive ↦ hgive.unlabelled
  obtain ⟨rules, hrules, hperm⟩ := List.perm_comp_forall₂ hother.entries hunlabelled
  obtain ⟨labelled, hlabelled, rfl⟩ := exists_labelled hrules
  obtain ⟨definitions, hdefinitions⟩ := hother.definitions
  have hread := readCategories_eq_ok.mpr ⟨hother.objects, hlabelled⟩
  refine ⟨_, by rw [ofDocument, hread, hdefinitions]; rfl, ?_⟩
  have hpriorities : ((written.map (·.unlabelled)).map (·.priority)).Nodup := by
    rw [List.map_map]
    exact ((ordered_sorted written).perm.map _).nodup_iff.mp hdistinct
  -- The label of a rule does not matter to its place.
  have hlabels : ∀ rules : List EventRule, (sorted precedes rules).map (·.unlabelled) =
      sorted precedes (rules.map (·.unlabelled)) :=
    @map_sorted _ _ precedes (·.unlabelled) precedes fun _ _ ↦ rfl
  exact (hlabels labelled).trans
    ((sorted_eq_of_perm hperm hpriorities).trans (hlabels written).symm)

/-! ### Faithful documents -/

/-- The book says what the document says. -/
structure Tells (book : RuleBook) (document : RuleDocument) : Prop where
  categories : book.categories = (Keyed.keys document.events).filter fun name ↦ !isReserved name
  rules : ∃ written, List.Forall₂ Item.Describes document.items written ∧
    EventRule.Ordered written book.rules
  definitions : List.Forall₂
    (fun entry d ↦ d.name = entry.1 ∧ definitionText? entry.2 = some d.source)
    (document.definitions.filter fun entry ↦ !Transition.builtinNames.contains entry.1)
    book.definitions

theorem forall₂_readDefinitions {entries : Attributes} {definitions : List Definition}
    (h : readDefinitions entries = .ok definitions) :
    List.Forall₂ (fun entry d ↦ d.name = entry.1 ∧ definitionText? entry.2 = some d.source)
      (entries.filter fun entry ↦ !Transition.builtinNames.contains entry.1) definitions := by
  induction entries generalizing definitions with
  | nil =>
      cases h
      exact .nil
  | cons entry rest ih =>
      obtain ⟨name, v⟩ := entry
      rw [readDefinitions] at h
      split at h
      · cases h
      · next source hsource =>
          obtain ⟨more, hmore, heq⟩ := bind_eq_ok.mp h
          cases heq
          cases hbuiltin : Transition.builtinNames.contains name with
          | true =>
              rw [List.filter_cons_of_neg (by simpa using hbuiltin)]
              exact ih hmore
          | false =>
              rw [List.filter_cons_of_pos (by simpa using hbuiltin)]
              exact .cons ⟨rfl, hsource⟩ (ih hmore)

theorem tells_of_ofDocument {document : RuleDocument} {book : RuleBook}
    (h : ofDocument document = .ok book) : book.Tells document := by
  obtain ⟨written, hwritten, h⟩ := bind_eq_ok.mp h
  obtain ⟨definitions, hdefinitions, heq⟩ := bind_eq_ok.mp h
  cases heq
  obtain ⟨-, hgives⟩ := readCategories_eq_ok.mp hwritten
  exact ⟨rfl, ⟨written, hgives.imp fun _ _ hgive ↦ hgive.describes, ordered_sorted written⟩,
    forall₂_readDefinitions hdefinitions⟩

/-- A text gives a rule book that says what its document says. With other notes it gives the same
book, or the same error. Where all priorities are distinct, a text with the same rules in other
groups or in another order gives the same rules, apart from the labels. -/
theorem parse_faithful (cs : List Char) :
    (∀ book, parse cs = .ok book → ∃ document, RuleDocument.codec.readText cs = .ok document ∧
      book.Tells document ∧
      ((book.rules.map (·.priority)).Nodup → ∀ cs' other,
        RuleDocument.codec.readText cs' = .ok other → document.Regroups other →
          ∃ regrouped, parse cs' = .ok regrouped ∧
            regrouped.rules.map (·.unlabelled) = book.rules.map (·.unlabelled))) ∧
    ∀ cs', Alike cs cs' → parse cs' = parse cs := by
  refine ⟨fun book hbook ↦ ?_, fun cs' ↦ parse_eq_of_alike⟩
  unfold parse at hbook
  split at hbook
  · next document hdocument =>
      refine ⟨document, hdocument, tells_of_ofDocument hbook, ?_⟩
      intro hdistinct cs' other hread hother
      obtain ⟨regrouped, hregrouped, hrules⟩ := exists_regrouped hbook hdistinct hother
      exact ⟨regrouped, by rw [parse, hread]; exact hregrouped, hrules⟩
  · cases hbook

/-- The entries of two rules. -/
def hurtEntry : Value := .object [("condition", .str "hp_delta < 0"), ("priority", .int 1)]

def healedEntry : Value := .object [("condition", .str "hp_delta > 0")]

/-- A document with these rules and two notes. -/
def notedDocument : Value := .object [("state_change_events", .object [("_note", .list [.int 1]),
  ("combat", .object [("hurt", hurtEntry), ("_old", .null), ("healed", healedEntry)])])]

/-- The document without the notes. -/
def bareDocument : Value := .object [("state_change_events", .object [
  ("combat", .object [("hurt", hurtEntry), ("healed", healedEntry)])])]

/-- A document with each of the rules in a category of its own. -/
def spreadDocument : Value := .object [("state_change_events", .object [
  ("care", .object [("healed", healedEntry)]), ("harm", .object [("hurt", hurtEntry)])])]

theorem intsFit_notedDocument : (Node.ofValue notedDocument).IntsFit := by
  simp [notedDocument, hurtEntry, healedEntry, Node.ofValue, Node.ofMembers, Node.ofItems,
    Node.IntsFit, ItemsFit, MembersFit]

theorem alike_notedDocument : Alike notedDocument.pretty bareDocument.pretty := by
  have hnoted := Node.parse_pretty intsFit_notedDocument
  have hbare : Node.parse bareDocument.pretty = (.ofValue bareDocument, []) :=
    Node.parse_pretty (by simp [bareDocument, hurtEntry, healedEntry, Node.ofValue,
      Node.ofMembers, Node.IntsFit, MembersFit])
  refine ⟨?_, ?_, ?_, ?_⟩
  · rw [hnoted, hbare]
    rfl
  · rw [hnoted, hbare]
  · rw [hnoted]
    show Readable [(125, .ofValue (.list [.int 1])), (124, .null)]
    exact List.forall_mem_cons.mpr ⟨⟨_, rfl⟩, List.forall_mem_singleton.mpr ⟨_, rfl⟩⟩
  · rw [hbare]
    exact fun note hnote ↦ absurd hnote List.not_mem_nil

/-- Two notes are left out, and then each rule is put into a category of its own. -/
theorem parse_faithful_noted :
    ∃ book, parse notedDocument.pretty = .ok book ∧
      book.rules.map (·.event) = ["hurt", "healed"] ∧ parse bareDocument.pretty = .ok book ∧
        ∃ regrouped, parse spreadDocument.pretty = .ok regrouped ∧
          regrouped.rules.map (·.unlabelled) = book.rules.map (·.unlabelled) := by
  have hbook : parse notedDocument.pretty = .ok ⟨["combat"],
      [⟨"hurt", "combat", "hp_delta < 0", "", 1, []⟩,
        ⟨"healed", "combat", "hp_delta > 0", "", 10, []⟩], []⟩ := by decide +kernel
  obtain ⟨htells, hnotes⟩ := parse_faithful notedDocument.pretty
  obtain ⟨document, hread, -, hregroup⟩ := htells _ hbook
  rw [Codec.readText_pretty _ intsFit_notedDocument] at hread
  cases hread
  have hspread : (Node.ofValue spreadDocument).IntsFit := by
    simp [spreadDocument, hurtEntry, healedEntry, Node.ofValue, Node.ofMembers, Node.IntsFit,
      MembersFit]
  refine ⟨_, hbook, rfl, (hnotes _ alike_notedDocument).trans hbook, hregroup (by decide) _ _
    (Codec.readText_pretty _ hspread) ⟨.swap _ _ _, fun entry hentry _ ↦ ?_, [], rfl⟩⟩
  rcases List.mem_pair.mp hentry with rfl | rfl
  · exact ⟨_, rfl⟩
  · exact ⟨_, rfl⟩

/-- A note with a number that is out of range cannot be read, and then there is no rule book. -/
theorem parse_oversized_note :
    parse "\x7b\"state_change_events\": \x7b\"_note\": 1\x7d\x7d".toList = .ok ⟨[], [], []⟩ ∧
      parse "\x7b\"state_change_events\": \x7b\"_note\": 1e999\x7d\x7d".toList =
        .error (.document (.text .malformed)) := by
  decide +kernel

end RuleBook

end Chronicle

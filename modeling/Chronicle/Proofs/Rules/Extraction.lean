import Chronicle.Proofs.Rules.Pass
import Chronicle.Rules.Document

/-!
# The data of events

`Inference.keeps_data` says where the data of a pass can be found: under the key of an extraction
the value that it had, and under an event the data of the event. A key is only part of the text of
an extraction, and two categories can have rules for one event. In both places the last one counts,
so that no later extraction of the rule may have the same key, and no later event the same name.
-/

namespace Chronicle

section

variable {ctx : Context} {data found : Attributes}

/-- Extractions go on with the data of those before them. -/
theorem extract_append (front back : List Extraction) :
    extract ctx data (front ++ back) = (do
      let found ← extract ctx data front
      extract ctx found back) := by
  induction front generalizing data with
  | nil => rfl
  | cons e rest ih =>
      rw [List.cons_append, extract, extract]
      cases e.condition.evaluate ctx with
      | error cause => rfl
      | ok v => exact ih

/-- Extractions with other keys leave what is found under a key. -/
theorem lookup_extract_of_ne {extractions : List Extraction} {key : String}
    (hne : ∀ y ∈ extractions, y.key ≠ key) (h : extract ctx data extractions = .ok found) :
    found.lookup key = data.lookup key := by
  induction extractions generalizing data with
  | nil =>
      cases h
      rfl
  | cons e rest ih =>
      obtain ⟨he, hrest⟩ := List.forall_mem_cons.mp hne
      obtain ⟨v, -, h⟩ := bind_eq_ok.mp h
      rw [ih hrest h, Keyed.lookup_insert, if_neg (Ne.symm he)]

/-- The last extraction with a key has its value there. -/
theorem lookup_extract {before after : List Extraction} {x : Extraction}
    (hlast : ∀ y ∈ after, y.key ≠ x.key)
    (h : extract ctx data (before ++ x :: after) = .ok found) :
    ∃ v, x.condition.evaluate ctx = .ok v ∧ found.lookup x.key = some v := by
  rw [extract_append] at h
  obtain ⟨_, -, h⟩ := bind_eq_ok.mp h
  obtain ⟨v, hv, h⟩ := bind_eq_ok.mp h
  refine ⟨v, hv, ?_⟩
  rw [lookup_extract_of_ne hlast h, Keyed.lookup_insert, if_pos rfl]

end

namespace Inference

variable {inference : Inference}

/-- What is found under an event that no later one shares its name with are its data. -/
theorem lookup_extracted {e : InferredEvent} {earlier later : List InferredEvent}
    (hevents : inference.events = earlier ++ e :: later)
    (hlast : ∀ other ∈ later, other.rule.event ≠ e.rule.event) :
    inference.extracted.lookup e.rule.event = some e.data := by
  have hkey : e.rule.event ∉ Keyed.keys (later.map (·.entry)) := by
    rw [keys_entries]
    intro hmem
    obtain ⟨other, hother, heq⟩ := List.mem_map.mp hmem
    exact hlast other hother heq
  rw [extracted_eq, hevents, List.map_append, List.map_cons]
  exact Keyed.lookup_merge hkey []

/-- There is one entry for each name of an event. -/
theorem nodup_keys_extracted (inference : Inference) :
    (Keyed.keys inference.extracted).Nodup ∧
      ∀ id, id ∈ Keyed.keys inference.extracted ↔ id ∈ inference.eventIds := by
  have hstart : (Keyed.keys ([] : List (String × Attributes))).Nodup := List.nodup_nil
  rw [extracted_eq]
  refine ⟨Keyed.nodup_keys_merge hstart _, fun id ↦ ?_⟩
  rw [Keyed.mem_keys_merge, keys_entries, eventIds]
  exact or_iff_right List.not_mem_nil

/-- Events with different names have one entry each. -/
theorem extracted_of_nodup (h : inference.eventIds.Nodup) :
    inference.extracted = inference.events.map (·.entry) := by
  rw [extracted_eq, Keyed.merge_eq_append]
  · rfl
  · rw [List.nil_append, keys_entries]
    exact h

/-- The data of a pass are kept: the data of an event have the value of each extraction under its
key unless a later extraction of the rule has the same key, and there is one entry for each name of
an event, with the data of the last event of that name. -/
theorem keeps_data {book : RuleBook} {t : Transition} {action : Option Attributes}
    (hinfer : book.infer t action = .ok inference) :
    (∀ earlier e later, inference.events = earlier ++ e :: later →
      (∀ before x after, e.rule.extractions = before ++ x :: after →
        (∀ y ∈ after, y.key ≠ x.key) →
        ∃ v, x.condition.evaluate
            ((t.ruleContext action inference.computed).after earlier) = .ok v ∧
          e.data.lookup x.key = some v) ∧
      ((∀ other ∈ later, other.rule.event ≠ e.rule.event) →
        inference.extracted.lookup e.rule.event = some e.data)) ∧
    ((Keyed.keys inference.extracted).Nodup ∧
      ∀ id, id ∈ Keyed.keys inference.extracted ↔ id ∈ inference.eventIds) ∧
    (inference.eventIds.Nodup →
      inference.extracted = inference.events.map fun e ↦ (e.rule.event, e.data)) := by
  obtain ⟨-, hevents⟩ := RuleBook.infer_eq_ok.mp hinfer
  refine ⟨fun earlier e later hsplit ↦ ⟨?_, lookup_extracted hsplit⟩, nodup_keys_extracted _,
    extracted_of_nodup⟩
  intro before x after hx hlast
  obtain ⟨-, hdata⟩ := EventRule.fire?_eq_some.mp (fire?_of_inferEvents (hevents ▸ hsplit))
  exact lookup_extract hlast (hx ▸ hdata)

/-- A document with two extractions of one key, and with rules of two categories for one event. -/
def sharedText : String :=
  "\x7b\"state_change_events\": \x7b
    \"combat\": \x7b\"hurt\": \x7b
      \"condition\": \"hp_delta < 0\", \"data_extract\": [\"prev.player.hp\", \"curr.player.hp\"]
    \x7d\x7d,
    \"log\": \x7b\"hurt\": \x7b
      \"condition\": \"hp_delta < 0\", \"data_extract\": [\"curr.tick\"]
    \x7d\x7d
  \x7d\x7d"

/-- The rules of the document. -/
def sharedBook : RuleBook where
  categories := ["combat", "log"]
  rules :=
    [⟨"hurt", "combat", "hp_delta < 0", "", 10, [⟨"prev.player.hp"⟩, ⟨"curr.player.hp"⟩]⟩,
      ⟨"hurt", "log", "hp_delta < 0", "", 10, [⟨"curr.tick"⟩]⟩]
  definitions := []

set_option maxRecDepth 100000 in
theorem parse_sharedText : RuleBook.parse sharedText.toList = .ok sharedBook :=
  eq_ok_of_ofList ⟨_, rfl, by decide +kernel⟩

/-- The events of the two rules, with what they extract. -/
def sharedEvents : List InferredEvent :=
  [⟨sharedBook.rules[0], [("hp", .int 80)]⟩, ⟨sharedBook.rules[1], [("tick", .int 1)]⟩]

/-- Both rules fire where the player loses hit points. -/
theorem infer_sharedBook :
    let prev := GameState.initial 1 (.zero false)
    let t : Transition := ⟨prev, { prev with player := { prev.player with hp := 80 } }⟩
    sharedBook.infer t none = .ok ⟨sharedEvents, t.builtins⟩ :=
  toOption_eq_some.mp (by decide +kernel)

/-- Without the conditions data are lost: of two extractions with one key the later one is kept,
and of two events with one name the later one. -/
theorem data_shared :
    let prev := GameState.initial 1 (.zero false)
    let t : Transition := ⟨prev, { prev with player := { prev.player with hp := 80 } }⟩
    ∃ book inference, RuleBook.parse sharedText.toList = .ok book ∧
      book.infer t none = .ok inference ∧
      (∃ earlier e later, inference.events = earlier ++ e :: later ∧
        ∃ x ∈ e.rule.extractions, ∃ v,
          x.condition.evaluate ((t.ruleContext none inference.computed).after earlier) = .ok v ∧
            e.data.lookup x.key ≠ some v) ∧
      (∃ e ∈ inference.events, inference.extracted.lookup e.rule.event ≠ some e.data) ∧
      inference.extracted.length ≠ inference.events.length := by
  intro prev t
  refine ⟨sharedBook, _, parse_sharedText, infer_sharedBook, ⟨[], _, _, rfl, ?_⟩, ?_, by decide⟩
  · exact ⟨⟨"prev.player.hp"⟩, by decide, .int 100, toOption_eq_some.mp (by decide +kernel),
      by decide⟩
  · exact ⟨sharedEvents[0], by decide, by decide⟩

/-- The same document: what the first rule extracts last under its key is kept in the data of its
event, and the one entry for both events has the data of the second. -/
theorem keeps_data_last :
    let prev := GameState.initial 1 (.zero false)
    let t : Transition := ⟨prev, { prev with player := { prev.player with hp := 80 } }⟩
    ∃ inference first second, sharedBook.infer t none = .ok inference ∧
      inference.events = [first, second] ∧ first.rule.event = second.rule.event ∧
      (∃ v, (⟨"curr.player.hp"⟩ : Extraction).condition.evaluate
        (t.ruleContext none inference.computed) = .ok v ∧ first.data.lookup "hp" = some v) ∧
      inference.extracted.lookup second.rule.event = some second.data ∧
      (Keyed.keys inference.extracted).Nodup := by
  intro prev t
  obtain ⟨hsplit, ⟨hnodup, -⟩, -⟩ := keeps_data infer_sharedBook
  obtain ⟨hdata, -⟩ := hsplit [] _ _ rfl
  obtain ⟨-, hentry⟩ := hsplit [sharedEvents[0]] _ [] rfl
  obtain ⟨v, hv, hlookup⟩ := hdata [⟨"prev.player.hp"⟩] ⟨"curr.player.hp"⟩ [] rfl (by decide)
  rw [Context.after_nil] at hv
  exact ⟨_, _, _, infer_sharedBook, rfl, rfl, ⟨v, hv, hlookup⟩, hentry (by decide), hnodup⟩

end Inference

end Chronicle

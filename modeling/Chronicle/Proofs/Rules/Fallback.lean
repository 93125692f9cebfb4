import Chronicle.Proofs.Rules.Pass
import Chronicle.Proofs.Rules.Computed
import Chronicle.Rules.Differ
import Mathlib.Data.List.Induction

/-!
# When the rules give no diff

A pass over a transition can only end early in a definition: the values that it found for the names
of builtin values are the builtin ones, which always make up a diff, and a rule that cannot be
evaluated is passed over. So `Differ.diff_source` can say just when a differ takes the direct diff,
without looking at a single rule.
-/

namespace Chronicle

/-! ### The values of definitions -/

namespace Context

/-- The definitions, evaluated in order, give the values. Each of them sees the values of the
context and those of the definitions before it. -/
inductive Computes (ctx : Context) : List Definition → Attributes → Prop where
  | nil : Computes ctx [] ctx.computed
  | concat {definitions : List Definition} {computed : Attributes} {d : Definition} {v : Value} :
      Computes ctx definitions computed → d.condition.evaluate { ctx with computed } = .ok v →
        Computes ctx (definitions ++ [d]) (Keyed.insert d.name v computed)

/-- One of the definitions cannot be evaluated, while those before it can. -/
def SomeFails (ctx : Context) (definitions : List Definition) : Prop :=
  ∃ before d after computed cause, definitions = before ++ d :: after ∧
    ctx.Computes before computed ∧ d.condition.evaluate { ctx with computed } = .error cause

end Context

variable {ctx : Context} {definitions : List Definition} {computed : Attributes}

/-- The later definitions are evaluated with the values of the earlier ones. -/
theorem computeValues_append (ctx : Context) (before after : List Definition) :
    computeValues ctx (before ++ after) =
      computeValues ctx before >>= fun computed ↦ computeValues { ctx with computed } after := by
  induction before generalizing ctx with
  | nil => rfl
  | cons d rest ih =>
      rw [List.cons_append, computeValues, computeValues]
      split
      · exact ih _
      · rfl

theorem computeValues_eq_ok :
    computeValues ctx definitions = .ok computed ↔ ctx.Computes definitions computed := by
  constructor
  · intro h
    induction definitions using List.reverseRecOn generalizing computed with
    | nil =>
        cases h
        exact .nil
    | append_singleton before d ih =>
        rw [computeValues_append] at h
        obtain ⟨earlier, hearlier, h⟩ := bind_eq_ok.mp h
        rw [computeValues] at h
        split at h
        · next v hv =>
            cases h
            exact .concat (ih hearlier) hv
        · cases h
  · intro h
    induction h with
    | nil => rfl
    | concat _ hv ih =>
        rw [computeValues_append, ih, ok_bind, computeValues, hv]
        rfl

theorem someFails_iff :
    ctx.SomeFails definitions ↔ ∃ cause, computeValues ctx definitions = .error cause := by
  constructor
  · rintro ⟨before, d, after, computed, cause, rfl, hbefore, hd⟩
    refine ⟨.definition d.name cause, ?_⟩
    rw [computeValues_append, computeValues_eq_ok.mpr hbefore, ok_bind, computeValues, hd]
  · rintro ⟨cause, h⟩
    induction definitions using List.reverseRecOn generalizing cause with
    | nil => cases h
    | append_singleton before d ih =>
        cases hbefore : computeValues ctx before with
        | error earlier =>
            obtain ⟨front, failing, back, computed, why, rfl, hfront, hwhy⟩ := ih earlier hbefore
            exact ⟨front, failing, back ++ [d], computed, why, by simp, hfront, hwhy⟩
        | ok computed =>
            rw [computeValues_append, hbefore, ok_bind, computeValues] at h
            split at h
            · cases h
            · next why hwhy =>
                exact ⟨before, d, [], computed, why, rfl, computeValues_eq_ok.mp hbefore, hwhy⟩

namespace Context.Computes

/-- The names of the values are those of the context and of the definitions. -/
theorem mem_keys (h : ctx.Computes definitions computed) {name : String} :
    name ∈ Keyed.keys computed ↔
      name ∈ Keyed.keys ctx.computed ∨ ∃ d ∈ definitions, d.name = name := by
  induction h with
  | nil => simp
  | @concat definitions computed d v _ _ ih =>
      rw [Keyed.mem_keys_insert, ih]
      constructor
      · rintro (rfl | hold | ⟨earlier, hearlier, hname⟩)
        · exact .inr ⟨d, by simp, rfl⟩
        · exact .inl hold
        · exact .inr ⟨earlier, by simp [hearlier], hname⟩
      · rintro (hold | ⟨other, hother, rfl⟩)
        · exact .inr (.inl hold)
        · rcases List.mem_append.mp hother with hearlier | hlast
          · exact .inr (.inr ⟨other, hearlier, rfl⟩)
          · exact .inl (by rw [List.mem_singleton.mp hlast])

theorem nodup_keys (h : ctx.Computes definitions computed)
    (hkeys : (Keyed.keys ctx.computed).Nodup) : (Keyed.keys computed).Nodup := by
  induction h with
  | nil => exact hkeys
  | concat _ _ ih => exact Keyed.nodup_keys_insert ih _ _

end Context.Computes

/-! ### Passes -/

/-- A rule book that can be loaded leaves the builtin values alone. -/
theorem RuleBook.keepsBuiltins_of_load {place : Option Entry} {book : RuleBook}
    (h : load place = .ok book) : book.KeepsBuiltins := by
  cases place with
  | none =>
      cases h
      exact fun d hd ↦ absurd hd List.not_mem_nil
  | some entry =>
      cases entry with
      | text cs => exact keepsBuiltins_of_parse h
      | _ => cases h

namespace Differ

variable {book : RuleBook} {bypassRules : Bool} {t : Transition} {action : Option Attributes}

/-- Where all definitions can be evaluated, the rules give the diff. -/
theorem diff_of_ok (hbook : book.KeepsBuiltins)
    (h : computeValues (t.context action) book.definitions = .ok computed) :
    (Differ.mk book false).diff t action =
      let inference :=
        Inference.mk (inferEvents (t.ruleContext action computed) book.rules) computed
      ⟨{ t.directDiff with changes := computed, events := inference.eventIds }, inference.events,
        inference.extracted, .rules⟩ := by
  have hinfer : book.infer t action =
      .ok ⟨inferEvents (t.ruleContext action computed) book.rules, computed⟩ :=
    RuleBook.infer_eq_ok.mpr ⟨h, rfl⟩
  have hdiff := Inference.diff_eq_direct (RuleBook.describedBy_of_infer hbook hinfer)
  simp only [diff, Bool.false_eq_true, if_false, byRules, hinfer, hdiff, ok_bind]

/-- Where a definition cannot be evaluated, the diff is the direct one. -/
theorem diff_of_error {cause : InferenceError}
    (h : computeValues (t.context action) book.definitions = .error cause) :
    (Differ.mk book false).diff t action = directly t := by
  have hinfer : book.infer t action = .error cause := by
    rw [RuleBook.infer, h]
    rfl
  simp only [diff, Bool.false_eq_true, if_false, byRules, hinfer]
  rfl

/-- The direct diff is taken just if the rules are bypassed or a definition fails. -/
theorem source_eq_direct (hbook : book.KeepsBuiltins) :
    ((Differ.mk book bypassRules).diff t action).source = .direct ↔
      bypassRules = true ∨ (t.context action).SomeFails book.definitions := by
  cases bypassRules with
  | true => exact ⟨fun _ ↦ .inl rfl, fun _ ↦ rfl⟩
  | false =>
      rw [someFails_iff]
      cases hvalues : computeValues (t.context action) book.definitions with
      | error cause =>
          rw [diff_of_error hvalues]
          exact ⟨fun _ ↦ .inr ⟨cause, rfl⟩, fun _ ↦ rfl⟩
      | ok computed =>
          rw [diff_of_ok hbook hvalues]
          constructor
          · intro h
            cases h
          · rintro (h | ⟨cause, h⟩)
            · cases h
            · cases h

theorem eq_directly (hbook : book.KeepsBuiltins)
    (h : ((Differ.mk book bypassRules).diff t action).source = .direct) :
    (Differ.mk book bypassRules).diff t action = directly t := by
  rcases (source_eq_direct hbook).mp h with rfl | hfails
  · rfl
  · obtain ⟨cause, hvalues⟩ := someFails_iff.mp hfails
    cases bypassRules with
    | true => rfl
    | false => exact diff_of_error hvalues

/-- Otherwise the definitions give values, and the rules give the diff. -/
theorem exists_computes (hbook : book.KeepsBuiltins)
    (h : ((Differ.mk book bypassRules).diff t action).source ≠ .direct) :
    bypassRules = false ∧
      ∃ computed, computeValues (t.context action) book.definitions = .ok computed := by
  have hneither := mt (source_eq_direct hbook).mpr h
  rw [not_or, someFails_iff] at hneither
  obtain ⟨hrules, hvalues⟩ := hneither
  refine ⟨Bool.eq_false_iff.mpr hrules, ?_⟩
  cases hcomputed : computeValues (t.context action) book.definitions with
  | error cause => exact absurd ⟨cause, hcomputed⟩ hvalues
  | ok computed => exact ⟨computed, rfl⟩

/-- The direct diff is taken just if the rules are bypassed or a definition cannot be evaluated, and
then there are no events. Otherwise the diff has the events of the pass, and a value for each
builtin name and each definition. Which one is taken does not depend on the rules. -/
theorem diff_source {place : Option Entry} (hload : RuleBook.load place = .ok book)
    (bypassRules : Bool) (t : Transition) (action : Option Attributes) :
    let outcome := (Differ.mk book bypassRules).diff t action
    (outcome.source = .direct ↔
      bypassRules = true ∨ (t.context action).SomeFails book.definitions) ∧
    (outcome.source = .direct →
      outcome.diff = t.directDiff ∧ outcome.events = [] ∧ outcome.extracted = []) ∧
    (outcome.source ≠ .direct →
      outcome.source = .rules ∧ outcome.diff.events = outcome.events.map (·.rule.event) ∧
      (Keyed.keys outcome.diff.changes).Nodup ∧
      ∀ name, name ∈ Keyed.keys outcome.diff.changes ↔
        name ∈ Transition.builtinNames ∨ ∃ d ∈ book.definitions, d.name = name) ∧
    ∀ rules, ((Differ.mk { book with rules } bypassRules).diff t action).source =
      outcome.source := by
  intro outcome
  have hbook := RuleBook.keepsBuiltins_of_load hload
  refine ⟨source_eq_direct hbook, fun hdirect ↦ ?_, fun hrules ↦ ?_, fun rules ↦ ?_⟩
  · have houtcome : outcome = directly t := eq_directly hbook hdirect
    rw [houtcome]
    exact ⟨rfl, rfl, rfl⟩
  · obtain ⟨rfl, computed, hvalues⟩ := exists_computes hbook hrules
    have houtcome := diff_of_ok hbook hvalues
    have hcomputes := computeValues_eq_ok.mp hvalues
    have hbuiltin : Keyed.keys (t.context action).computed = Transition.builtinNames :=
      Transition.keys_builtins t
    have hchanges : outcome.diff.changes = computed := by
      show ((Differ.mk book false).diff t action).diff.changes = _
      rw [houtcome]
    refine ⟨congrArg DiffOutcome.source houtcome, ?_, ?_, fun name ↦ ?_⟩
    · show ((Differ.mk book false).diff t action).diff.events = _
      simp only [outcome, houtcome]
      rfl
    · rw [hchanges]
      exact hcomputes.nodup_keys (hbuiltin ▸ Transition.builtinNames_nodup)
    · rw [hchanges, hcomputes.mem_keys, hbuiltin]
  · -- The same definitions fail, whatever the rules are, and there are only two sources.
    have hsame : ((Differ.mk { book with rules } bypassRules).diff t action).source = .direct ↔
        outcome.source = .direct :=
      (@source_eq_direct { book with rules } bypassRules t action hbook).trans
        (source_eq_direct hbook).symm
    cases hsource : outcome.source with
    | direct => exact hsame.mpr hsource
    | rules =>
        rw [hsource] at hsame
        cases hother : ((Differ.mk { book with rules } bypassRules).diff t action).source with
        | direct => exact absurd (hsame.mp hother) (by decide)
        | rules => rfl

/-- A document with a rule that cannot be evaluated. -/
def oddRuleText : String :=
  "\x7b\"state_change_events\": \x7b
    \"player\": \x7b\"odd\": \x7b\"condition\": \"curr.player * 2\"\x7d\x7d
  \x7d,
  \"computed_values\": \x7b\"later\": \"curr.tick + 1\"\x7d\x7d"

def oddRuleBook : RuleBook where
  categories := ["player"]
  rules := [⟨"odd", "player", "curr.player * 2", "", 10, []⟩]
  definitions := [⟨"later", "curr.tick + 1"⟩]

/-- A document with a definition that cannot be evaluated, after one that can. -/
def oddValueText : String :=
  "\x7b\"computed_values\": \x7b\"later\": \"curr.tick + 1\", \"odd\": \"curr.player * 2\"\x7d\x7d"

def oddValueBook : RuleBook where
  categories := []
  rules := []
  definitions := [⟨"later", "curr.tick + 1"⟩, ⟨"odd", "curr.player * 2"⟩]

set_option maxRecDepth 100000 in
theorem parse_oddRuleText : RuleBook.parse oddRuleText.toList = .ok oddRuleBook :=
  eq_ok_of_ofList ⟨_, rfl, by decide +kernel⟩

set_option maxRecDepth 100000 in
theorem parse_oddValueText : RuleBook.parse oddValueText.toList = .ok oddValueBook :=
  eq_ok_of_ofList ⟨_, rfl, by decide +kernel⟩

/-- The rule is passed over, while the definition leads to the direct diff. -/
theorem diff_source_odd :
    let prev := GameState.initial 1 (.zero false)
    let t : Transition := ⟨prev, prev⟩
    (∃ book, RuleBook.load (some (.text oddRuleText.toList)) = .ok book ∧
      ((Differ.mk book false).diff t none).source = .rules) ∧
    ∃ book, RuleBook.load (some (.text oddValueText.toList)) = .ok book ∧
      ((Differ.mk book false).diff t none).source = .direct := by
  intro prev t
  have hrule : ¬ (t.context none).SomeFails oddRuleBook.definitions := by
    have hvalues : (computeValues (t.context none) oddRuleBook.definitions).isOk = true := by
      decide +kernel
    intro hfails
    obtain ⟨cause, hcause⟩ := someFails_iff.mp hfails
    rw [hcause] at hvalues
    cases hvalues
  have hvalue : (t.context none).SomeFails oddValueBook.definitions := by
    have hvalues : (computeValues (t.context none) oddValueBook.definitions).isOk = false := by
      decide +kernel
    refine someFails_iff.mpr ?_
    cases h : computeValues (t.context none) oddValueBook.definitions with
    | error cause => exact ⟨cause, rfl⟩
    | ok computed =>
        rw [h] at hvalues
        cases hvalues
  have hload : RuleBook.load (some (.text oddRuleText.toList)) = .ok oddRuleBook :=
    parse_oddRuleText
  have hloadValue : RuleBook.load (some (.text oddValueText.toList)) = .ok oddValueBook :=
    parse_oddValueText
  obtain ⟨hsource, -, hrules, -⟩ := diff_source hload false t none
  refine ⟨⟨oddRuleBook, hload, (hrules fun hdirect ↦ ?_).1⟩, oddValueBook, hloadValue, ?_⟩
  · exact (hsource.mp hdirect).elim Bool.false_ne_true hrule
  · exact (diff_source hloadValue false t none).1.mpr (.inr hvalue)

end Differ

end Chronicle

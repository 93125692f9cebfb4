import Chronicle.Proofs.Condition.Names
import Chronicle.Proofs.Rules.Events

/-!
# One pass over the rules

A pass comes to each rule with the events of the rules before it, and with nothing else that they
left behind: `inferEvents_append`. So a pass over rules depends on what the names in these rules
stand for, now and after further events: `inferEvents_congr`.
-/

namespace Chronicle

/-- The context once the events have fired as well. -/
def Context.after (ctx : Context) (events : List InferredEvent) : Context :=
  { ctx with fired := ctx.fired ++ events.map (·.rule.event) }

theorem Context.after_nil (ctx : Context) : ctx.after [] = ctx := by
  simp [after]

theorem Context.after_append (ctx : Context) (events more : List InferredEvent) :
    ctx.after (events ++ more) = (ctx.after events).after more := by
  simp [after]

/-- What the rules see of a transition before any of them has fired. -/
def Transition.ruleContext (t : Transition) (action : Option Attributes) (computed : Attributes) :
    Context :=
  { t.context action with computed }

/-- A pass computes the values first and then tries the rules. -/
theorem RuleBook.infer_eq_ok {book : RuleBook} {t : Transition} {action : Option Attributes}
    {inference : Inference} :
    book.infer t action = .ok inference ↔
      computeValues (t.context action) book.definitions = .ok inference.computed ∧
        inference.events = inferEvents (t.ruleContext action inference.computed) book.rules := by
  rw [infer, bind_eq_ok]
  constructor
  · rintro ⟨computed, hcomputed, heq⟩
    cases heq
    exact ⟨hcomputed, rfl⟩
  · rintro ⟨hcomputed, hevents⟩
    exact ⟨_, hcomputed, congrArg Except.ok (by rw [← Transition.ruleContext, ← hevents])⟩

theorem inferEvents_of_fire? {ctx : Context} {r : EventRule} {data : Attributes}
    (h : r.fire? ctx = some data) : inferEvents ctx [r] = [⟨r, data⟩] := by
  simp only [inferEvents, h]

theorem inferEvents_of_not_fires {ctx : Context} {r : EventRule} (h : ¬ r.Fires ctx) :
    inferEvents ctx [r] = [] := by
  have hnone : r.fire? ctx = none := by
    rw [Option.eq_none_iff_forall_ne_some]
    exact fun data hdata ↦ h (EventRule.fires_iff.mpr ⟨data, hdata⟩)
  simp only [inferEvents, hnone]

/-- A rule that fires comes before the rules that see its event. -/
theorem inferEvents_cons (ctx : Context) (r : EventRule) (rest : List EventRule) :
    inferEvents ctx (r :: rest) = inferEvents ctx [r] ++
      inferEvents (ctx.after (inferEvents ctx [r])) rest := by
  simp only [inferEvents]
  cases r.fire? ctx with
  | none => simp [Context.after]
  | some data => simp [Context.after]

/-- The later rules are tried with the events of the earlier ones. -/
theorem inferEvents_append (ctx : Context) (before after : List EventRule) :
    inferEvents ctx (before ++ after) =
      inferEvents ctx before ++ inferEvents (ctx.after (inferEvents ctx before)) after := by
  induction before generalizing ctx with
  | nil => rw [inferEvents, Context.after_nil]; rfl
  | cons r rest ih =>
      rw [List.cons_append, inferEvents_cons, ih, ← List.append_assoc, ← inferEvents_cons,
        ← Context.after_append, ← inferEvents_cons]

/-- The rule of an event fires after the events before it. -/
theorem fire?_of_inferEvents {ctx : Context} {rules : List EventRule} {e : InferredEvent}
    {earlier later : List InferredEvent} (h : inferEvents ctx rules = earlier ++ e :: later) :
    e.rule.fire? (ctx.after earlier) = some e.data := by
  induction rules generalizing ctx earlier with
  | nil => simp [inferEvents] at h
  | cons r rest ih =>
      rw [inferEvents] at h
      split at h
      · next data hdata =>
          cases earlier with
          | nil =>
              cases h
              rw [Context.after_nil]
              exact hdata
          | cons first others =>
              obtain ⟨rfl, hrest⟩ := List.cons.inj h
              have hafter : ctx.after (⟨r, data⟩ :: others) =
                  (ctx.after [⟨r, data⟩]).after others :=
                ctx.after_append [⟨r, data⟩] others
              rw [hafter]
              exact ih hrest
      · exact ih h

/-- The rules of the events are among those that are tried, in order. -/
theorem inferEvents_sublist (ctx : Context) (rules : List EventRule) :
    ((inferEvents ctx rules).map (·.rule)).Sublist rules := by
  induction rules generalizing ctx with
  | nil => exact .slnil
  | cons r rest ih =>
      rw [inferEvents]
      split
      · exact (ih _).cons_cons r
      · exact (ih ctx).cons r

/-- Only the rules that are tried fire. -/
theorem rule_mem_of_mem_inferEvents {ctx : Context} {rules : List EventRule} {e : InferredEvent}
    (h : e ∈ inferEvents ctx rules) : e.rule ∈ rules :=
  (inferEvents_sublist ctx rules).subset (List.mem_map_of_mem h)

/-- What is recorded for an event. -/
def InferredEvent.entry (e : InferredEvent) : String × Attributes := (e.rule.event, e.data)

theorem Inference.extracted_eq (i : Inference) :
    i.extracted = Keyed.merge [] (i.events.map (·.entry)) := by
  rw [extracted, Keyed.merge, List.foldl_map]
  rfl

theorem Inference.keys_entries (events : List InferredEvent) :
    Keyed.keys (events.map (·.entry)) = events.map (·.rule.event) := by
  rw [Keyed.keys, List.map_map]
  rfl

/-! ### What a pass depends on -/

namespace EventRule

variable {r : EventRule} {ctx ctx' : Context}

/-- The names that a rule reads, in its condition and in its extractions. -/
def names (r : EventRule) : List Name :=
  r.condition.names ++ r.extractions.flatMap (·.condition.names)

theorem extract_congr {extractions : List Extraction}
    (h : ∀ n ∈ extractions.flatMap (·.condition.names), ctx.resolve n = ctx'.resolve n)
    (data : Attributes) : extract ctx data extractions = extract ctx' data extractions := by
  induction extractions generalizing data with
  | nil => rfl
  | cons e rest ih =>
      obtain ⟨he, hrest⟩ := List.forall_mem_append.mp (List.flatMap_cons ▸ h)
      rw [extract, extract, Condition.evaluate_congr he]
      cases e.condition.evaluate ctx' with
      | error cause => rfl
      | ok v => exact ih hrest _

/-- Whether a rule fires and what it extracts depends on what its names stand for. -/
theorem fire?_congr (h : ∀ n ∈ r.names, ctx.resolve n = ctx'.resolve n) :
    r.fire? ctx = r.fire? ctx' := by
  obtain ⟨hcondition, hextractions⟩ := List.forall_mem_append.mp h
  rw [fire?, fire?, Condition.evaluate_congr hcondition, extract_congr hextractions]

end EventRule

/-- The contexts agree on a name, now and after more events have fired. -/
def Context.AgreesOn (ctx ctx' : Context) (n : Name) : Prop :=
  ∀ events, (ctx.after events).resolve n = (ctx'.after events).resolve n

/-- A pass depends on what the names of its rules stand for. -/
theorem inferEvents_congr {ctx ctx' : Context} {rules : List EventRule}
    (h : ∀ r ∈ rules, ∀ n ∈ r.names, ctx.AgreesOn ctx' n) :
    inferEvents ctx rules = inferEvents ctx' rules := by
  induction rules generalizing ctx ctx' with
  | nil => rfl
  | cons r rest ih =>
      obtain ⟨hr, hrest⟩ := List.forall_mem_cons.mp h
      have hfirst : inferEvents ctx [r] = inferEvents ctx' [r] := by
        have hfire : r.fire? ctx = r.fire? ctx' := r.fire?_congr fun n hn ↦ by
          rw [← ctx.after_nil, ← ctx'.after_nil]
          exact hr n hn []
        simp only [inferEvents, hfire]
      rw [inferEvents_cons, inferEvents_cons ctx', hfirst]
      refine congrArg _ (ih fun other hother n hn events ↦ ?_)
      rw [← Context.after_append, ← Context.after_append]
      exact hrest other hother n hn _

end Chronicle

import Chronicle.Proofs.Rules.Pass

/-!
# Rules that are left out

Rules meet only through the events that they fire. `RuleBook.infer_without` says what becomes of a
pass when one rule is left out of the book: nothing at all if the rule does not fire, and if it
does, its event and the data of the event go, unless another rule reads the event by its name. A
computed value of that name stands in front of the event, so that no rule can read the event then.
-/

namespace Chronicle

namespace Context

variable {ctx : Context} {events : List InferredEvent}

theorem follow_after (root : Root) (segments : List String) :
    (ctx.after events).follow root segments = ctx.follow root segments := by
  cases root <;> rfl

/-- An event makes a difference to its own name only, and to none if that is a computed value. -/
theorem agreesOn_after {e : InferredEvent} {n : Name}
    (h : n.text ≠ e.rule.event ∨ e.rule.event ∈ Keyed.keys ctx.computed) :
    (ctx.after [e]).AgreesOn ctx n := by
  intro events
  have hcomputed : ((ctx.after [e]).after events).computed = (ctx.after events).computed := rfl
  rw [resolve, resolve, hcomputed]
  cases hlookup : (ctx.after events).computed.lookup n.text with
  | some v => rfl
  | none =>
      -- The computed values are looked at first, so the event is not hidden behind one.
      have hname : n.text ≠ e.rule.event := by
        rintro heq
        exact Keyed.lookup_ne_none (h.resolve_left (not_not_intro heq)) (heq ▸ hlookup)
      have hfired : ((ctx.after [e]).after events).fired.contains n.text =
          (ctx.after events).fired.contains n.text := by
        simp [after, hname]
      simp only [hfired, follow_after]

end Context

/-- A rule that does not fire leaves nothing behind for the rules after it. -/
theorem inferEvents_skip {ctx : Context} {before : List EventRule} {r : EventRule}
    (h : ¬ r.Fires (ctx.after (inferEvents ctx before))) (after : List EventRule) :
    inferEvents ctx (before ++ r :: after) = inferEvents ctx (before ++ after) := by
  rw [inferEvents_append, inferEvents_cons, inferEvents_of_not_fires h, Context.after_nil,
    List.nil_append, ← inferEvents_append]

/-- A rule that fires leaves its event behind, of which the rules after it take no notice if they do
not read it. -/
theorem inferEvents_drop {ctx : Context} {before after : List EventRule} {r : EventRule}
    {data : Attributes} (hfire : r.fire? (ctx.after (inferEvents ctx before)) = some data)
    (hunread : ∀ other ∈ after, ∀ n ∈ other.names,
      n.text ≠ r.event ∨ r.event ∈ Keyed.keys ctx.computed) :
    ∃ earlier later, inferEvents ctx (before ++ r :: after) = earlier ++ ⟨r, data⟩ :: later ∧
      inferEvents ctx (before ++ after) = earlier ++ later := by
  refine ⟨inferEvents ctx before, inferEvents (ctx.after (inferEvents ctx before)) after, ?_,
    inferEvents_append ctx before after⟩
  have hlater : inferEvents ((ctx.after (inferEvents ctx before)).after [⟨r, data⟩]) after =
      inferEvents (ctx.after (inferEvents ctx before)) after :=
    inferEvents_congr fun other hother n hn ↦ Context.agreesOn_after (hunread other hother n hn)
  rw [inferEvents_append, inferEvents_cons, inferEvents_of_fire? hfire, hlater]
  rfl

/-- Without the one event of its name, the data of the others are what they were. -/
theorem Inference.extracted_drop {inference remaining : Inference} {e : InferredEvent}
    {earlier later : List InferredEvent} (hevents : inference.events = earlier ++ e :: later)
    (hremaining : remaining.events = earlier ++ later)
    (hunique : ∀ other ∈ earlier ++ later, other.rule.event ≠ e.rule.event) :
    inference.extracted.lookup e.rule.event = some e.data ∧
      remaining.extracted = Keyed.erase e.rule.event inference.extracted := by
  have hkeys : ∀ events : List InferredEvent, (∀ other ∈ events, other.rule.event ≠ e.rule.event) →
      e.rule.event ∉ Keyed.keys (events.map (·.entry)) := by
    intro events hne hkey
    rw [keys_entries] at hkey
    obtain ⟨other, hother, heq⟩ := List.mem_map.mp hkey
    exact hne other hother heq
  obtain ⟨hearlier, hlater⟩ := List.forall_mem_append.mp hunique
  rw [extracted_eq, extracted_eq, hevents, hremaining, List.map_append, List.map_cons]
  refine ⟨Keyed.lookup_merge (hkeys later hlater) [], ?_⟩
  rw [Keyed.erase_merge, Keyed.erase_append, Keyed.erase_cons,
    if_pos (show e.entry.1 = e.rule.event from rfl), Keyed.erase_eq_self (hkeys later hlater),
    Keyed.erase_eq_self (hkeys earlier hearlier),
    List.map_append]
  rfl

/-- Rules do not interfere: one that does not fire can be left out of a book without a change to the
pass. One that fires takes its event and the data of the event with it, and nothing else, if no
other rule reads its event or a computed value stands in front of the event, and no other rule has
the same event. -/
theorem RuleBook.infer_without {book : RuleBook} {t : Transition} {action : Option Attributes}
    {inference : Inference} (hinfer : book.infer t action = .ok inference)
    {before after : List EventRule} {r : EventRule} (hrules : book.rules = before ++ r :: after) :
    let start := t.ruleContext action inference.computed
    let turn := start.after (inferEvents start before)
    let others : RuleBook := { book with rules := before ++ after }
    (¬ r.Fires turn → others.infer t action = .ok inference) ∧
    (r.Fires turn →
      (∀ other ∈ others.rules, ∀ n ∈ other.names, n.text ≠ r.event) ∨
        r.event ∈ Keyed.keys inference.computed →
      (∀ other ∈ others.rules, other.event ≠ r.event) →
      ∃ data earlier later remaining, inference.events = earlier ++ ⟨r, data⟩ :: later ∧
        inference.extracted.lookup r.event = some data ∧
        others.infer t action = .ok remaining ∧
        remaining.events = earlier ++ later ∧
        remaining.extracted = Keyed.erase r.event inference.extracted ∧
        remaining.computed = inference.computed) := by
  intro start turn others
  obtain ⟨hcomputed, hevents⟩ := infer_eq_ok.mp hinfer
  rw [hrules] at hevents
  refine ⟨fun hquiet ↦ ?_, fun hfires hunread hunique ↦ ?_⟩
  · exact infer_eq_ok.mpr ⟨hcomputed, hevents.trans (inferEvents_skip hquiet after)⟩
  · obtain ⟨data, hfire⟩ := EventRule.fires_iff.mp hfires
    have hunread' : ∀ other ∈ after, ∀ n ∈ other.names,
        n.text ≠ r.event ∨ r.event ∈ Keyed.keys inference.computed := fun other hother n hn ↦
      hunread.imp_left fun h ↦ h other (List.mem_append_right before hother) n hn
    obtain ⟨earlier, later, hall, hothers⟩ := @inferEvents_drop start _ _ _ _ hfire hunread'
    have hne : ∀ e ∈ earlier ++ later, e.rule.event ≠ r.event := fun e he ↦
      hunique e.rule (rule_mem_of_mem_inferEvents (hothers ▸ he))
    have hsplit := hevents.trans hall
    let remaining : Inference := ⟨earlier ++ later, inference.computed⟩
    have hremaining : others.infer t action = .ok remaining :=
      infer_eq_ok.mpr ⟨hcomputed, hothers.symm⟩
    obtain ⟨hdata, hextracted⟩ :=
      @Inference.extracted_drop inference remaining _ _ _ hsplit rfl hne
    exact ⟨data, earlier, later, remaining, hsplit, hdata, hremaining, rfl, hextracted, rfl⟩

/-- The player loses hit points, at which a rule fires an event that has the name of a builtin
value. Neither this rule makes a difference to one that reads the name, nor one that fails. -/
theorem RuleBook.infer_without_hidden :
    let prev := GameState.initial 1 (.zero false)
    let t : Transition := ⟨prev, { prev with player := { prev.player with hp := 80 } }⟩
    let broken : EventRule := ⟨"broken", "combat", "hp_delta < 0", "", 1, [⟨"curr.player * 2"⟩]⟩
    let hidden : EventRule := ⟨"level_up", "combat", "hp_delta < 0", "", 2, [⟨"hp_delta"⟩]⟩
    let reader : EventRule := ⟨"reader", "combat", "!level_up", "", 3, []⟩
    let book (rules : List EventRule) : RuleBook := ⟨["combat"], rules, []⟩
    ∃ inference remaining, (book [broken, hidden, reader]).infer t none = .ok inference ∧
      (book [hidden, reader]).infer t none = .ok inference ∧
      (book [broken, reader]).infer t none = .ok remaining ∧
      remaining.extracted = Keyed.erase "level_up" inference.extracted := by
  intro prev t broken hidden reader book
  let inference : Inference := ⟨[⟨hidden, [("hp_delta", .int (-20))]⟩, ⟨reader, []⟩], t.builtins⟩
  have hinfer : (book [broken, hidden, reader]).infer t none = .ok inference :=
    toOption_eq_some.mp (by decide +kernel)
  let start := t.ruleContext none t.builtins
  have hquiet : ¬ broken.Fires (start.after (inferEvents start [])) := by
    rw [EventRule.fires_iff]
    rintro ⟨data, hdata⟩
    have hnone : broken.fire? (start.after (inferEvents start [])) = none := by decide +kernel
    rw [hnone] at hdata
    cases hdata
  have hfires : hidden.Fires (start.after (inferEvents start [broken])) :=
    EventRule.fires_iff.mpr ⟨[("hp_delta", .int (-20))], by decide +kernel⟩
  obtain ⟨hbroken, -⟩ := @RuleBook.infer_without _ _ _ _ hinfer [] _ broken rfl
  obtain ⟨-, hhidden⟩ := @RuleBook.infer_without _ _ _ _ hinfer [broken] _ hidden rfl
  obtain ⟨-, -, -, remaining, -, -, hremaining, -, hextracted, -⟩ :=
    hhidden hfires (.inr (by decide)) (by decide)
  exact ⟨inference, remaining, hinfer, hbroken hquiet, hremaining, hextracted⟩

end Chronicle

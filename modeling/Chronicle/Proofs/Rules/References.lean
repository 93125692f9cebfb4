import Chronicle.Proofs.Condition.Reference
import Chronicle.Proofs.Rules.Fallback

/-!
# References between rules

A condition that is the name of a defined value, or the id of an event of an earlier rule, refers to
it if the name is one that can be referred to. Such a rule fires just where the value is true or the
event has fired: `RuleBook.infer_references`. The id of an event may be a path as well, which counts
where the event has not fired. A name that cannot be referred to, such as one with a hyphen in it,
is taken apart, and nobody is told: `RuleBook.infer_references_hyphen`.
-/

namespace Chronicle

open Condition (IsReference nameOf)

namespace Context

variable {ctx : Context} {n : Name} {v : Value}

/-- The value at the path that a name is; null where it is none or leads nowhere. -/
def pathValue (ctx : Context) (n : Name) : Value :=
  match n.path with
  | some (root, segments) => (ctx.follow root segments).getD .null
  | none => .null

/-- Where no value has the name, it stands for an event that has fired, or else for a path. -/
theorem truthy_resolve (h : ctx.computed.lookup n.text = none) :
    (ctx.resolve n).truthy = true ↔ n.text ∈ ctx.fired ∨ (ctx.pathValue n).truthy = true := by
  rw [resolve, h]
  by_cases hfired : n.text ∈ ctx.fired
  · have hcontains : ctx.fired.contains n.text = true := List.contains_iff_mem.mpr hfired
    simp only [hcontains, if_true, hfired, true_or, iff_true]
    rfl
  · have hcontains : ¬ ctx.fired.contains n.text = true := mt List.contains_iff_mem.mp hfired
    simp only [hcontains, hfired, false_or]
    rfl

end Context

variable {ctx : Context} {r : EventRule} {rules : List EventRule}

/-- A rule whose condition is a name fires where the name stands for something true. -/
theorem EventRule.fires_of_reference (hname : IsReference r.source.toList)
    (hplain : r.extractions = []) :
    r.Fires ctx ↔ (ctx.resolve (nameOf r.source.toList)).truthy = true := by
  rw [Fires, condition, hname.compile_eq, hplain]
  exact and_iff_left fun _ he ↦ absurd he List.not_mem_nil

/-- A rule whose event is found has fired after some of the events. -/
theorem exists_fires (h : r ∈ (inferEvents ctx rules).map (·.rule)) :
    ∃ earlier later, inferEvents ctx rules = earlier ++ later ∧ r.Fires (ctx.after earlier) := by
  obtain ⟨e, he, rfl⟩ := List.mem_map.mp h
  obtain ⟨earlier, later, hsplit⟩ := List.append_of_mem he
  exact ⟨earlier, e :: later, hsplit,
    EventRule.fires_iff.mpr ⟨e.data, fire?_of_inferEvents hsplit⟩⟩

/-- A rule that fires after the rules before it has its event found. -/
theorem mem_of_fires {front back : List EventRule}
    (h : r.Fires (ctx.after (inferEvents ctx front))) :
    r ∈ (inferEvents ctx (front ++ r :: back)).map (·.rule) := by
  obtain ⟨data, hdata⟩ := EventRule.fires_iff.mp h
  rw [inferEvents_append, inferEvents_cons, inferEvents_of_fire? hdata]
  simp

/-- The event of a rule is not found before the rule is tried. -/
theorem event_mem_of_append {front back : List EventRule} {event : String}
    (hback : ∀ other ∈ back, other.event ≠ event)
    (h : event ∈ (inferEvents ctx (front ++ back)).map (·.rule.event)) :
    event ∈ (inferEvents ctx front).map (·.rule.event) := by
  rw [inferEvents_append, List.map_append] at h
  refine (List.mem_append.mp h).resolve_right fun hlater ↦ ?_
  obtain ⟨e, he, hevent⟩ := List.mem_map.mp hlater
  exact hback e.rule (rule_mem_of_mem_inferEvents he) hevent

namespace RuleBook

/-- The condition of a rule is the id of the event of an earlier rule. No other rule has the event,
no value has its name, and nothing is extracted. -/
structure RefersTo (book : RuleBook) (computed : Attributes) (later r : EventRule) : Prop where
  follows : ∃ before between after, book.rules = before ++ r :: between ++ later :: after ∧
    ∀ other ∈ before ++ between ++ later :: after, other.event ≠ r.event
  unnamed : r.event ∉ Keyed.keys computed
  source : later.source = r.event
  plain : later.extractions = []

variable {book : RuleBook} {t : Transition} {action : Option Attributes} {inference : Inference}

theorem text_nameOf (s : String) : (nameOf s.toList).text = s := String.ofList_toList

/-- A rule that refers to an event fires if the event does, or where its id is a path to something
true. -/
theorem RefersTo.mem_iff {later : EventRule} (h : book.RefersTo ctx.computed later r)
    (hname : IsReference r.event.toList) (hfired : ctx.fired = []) :
    later ∈ (inferEvents ctx book.rules).map (·.rule) ↔
      r.event ∈ (inferEvents ctx book.rules).map (·.rule.event) ∨
        (ctx.pathValue (nameOf r.event.toList)).truthy = true := by
  obtain ⟨before, between, after, hrules, hother⟩ := h.follows
  have hfires : ∀ events : List InferredEvent, later.Fires (ctx.after events) ↔
      r.event ∈ events.map (·.rule.event) ∨
        (ctx.pathValue (nameOf r.event.toList)).truthy = true := by
    intro events
    rw [EventRule.fires_of_reference (by rwa [h.source]) h.plain, h.source,
      Context.truthy_resolve (by rw [text_nameOf]; exact Keyed.lookup_eq_none h.unnamed),
      text_nameOf, Context.after, hfired, List.nil_append]
    rfl
  constructor
  · intro hmem
    obtain ⟨earlier, rest, hsplit, hlater⟩ := exists_fires hmem
    refine ((hfires earlier).mp hlater).imp_left fun hearlier ↦ ?_
    rw [hsplit, List.map_append]
    exact List.mem_append_left _ hearlier
  · intro hevent
    rw [hrules] at hevent ⊢
    -- No rule from the referring one on has the event, so it has fired before that is tried.
    refine mem_of_fires ((hfires _).mpr (hevent.imp_left fun hevent ↦ ?_))
    refine event_mem_of_append (fun other hmem ↦ hother other ?_) hevent
    exact List.mem_append_right _ hmem

end RuleBook

end Chronicle

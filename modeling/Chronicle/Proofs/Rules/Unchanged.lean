import Chronicle.Proofs.Rules.Fallback
import Chronicle.Proofs.Rules.Standard
import Chronicle.Proofs.Transition.Unchanged

/-!
# The standard rules on a state that does not change

Where nothing has changed the standard rules fire no event. `Differ.diff_unchanged` says so of every
state, however low the hit points and whatever else the state holds, and that the diff is neutral
with the rules as it is without them.

A pass in which no condition holds leaves no event behind, so that every rule is tried as if it were
the first. That matters to the one rule that looks at the events of others.
-/

namespace Chronicle

/-- Where no condition holds, no rule fires. -/
theorem inferEvents_eq_nil {ctx : Context} {rules : List EventRule}
    (h : ∀ r ∈ rules, r.condition.holds ctx = false) : inferEvents ctx rules = [] := by
  induction rules with
  | nil => rfl
  | cons r rest ih =>
      obtain ⟨hr, hrest⟩ := List.forall_mem_cons.mp h
      have hfires : ¬ r.Fires ctx := fun hfires ↦ Bool.false_ne_true (hr.symm.trans hfires.1)
      rw [inferEvents_cons, inferEvents_of_not_fires hfires, Context.after_nil, ih hrest]
      rfl

namespace RuleBook

open Condition

/-- The standard conditions of the events that only rules find. -/
def furtherConditions : List (String × Condition) :=
  [("boss_defeated", .all [named "monster_killed",
      isTrue ⟨"prev.monster.is_boss", some (.prev, ["monster", "is_boss"])⟩]),
    ("low_hp_warning", .all [named "is_low_hp", named "player_damaged",
      .not (named "player_death")]),
    ("critical_hit", isTrue ⟨"action_result.critical", some (.action, ["critical"])⟩),
    ("exp_gain", positive "exp_delta"),
    ("gold_gain", positive "gold_delta"),
    ("gold_spent", negative "gold_delta")]

theorem filter_standardConditions :
    standardConditions.filter (fun row ↦ !Transition.directNames.contains row.1) =
      furtherConditions := by
  decide

variable {book : RuleBook} {t : Transition} {s : GameState} {action : Option Attributes}
  {computed : Attributes}

namespace IsStandard

/-- Names that are neither builtin nor defined by the standard document have no values. -/
theorem lookup_eq_none (hbook : book.IsStandard)
    (h : computeValues (t.context action) book.definitions = .ok computed) {name : String}
    (hbuiltin : name ∉ Transition.builtinNames) (hdefined : name ∉ ["is_low_hp", "kills_gained"]) :
    computed.lookup name = none := by
  have hnames : book.definitions.map (·.name) = ["is_low_hp", "kills_gained"] := by
    have hfirst := congrArg (List.map Prod.fst) hbook.definitions
    rwa [List.map_map] at hfirst
  have hothers : ∀ d ∈ book.definitions, d.name ≠ name := by
    rintro d hd rfl
    exact hdefined (hnames ▸ List.mem_map_of_mem hd)
  rw [computeValues_lookup h hothers]
  exact Keyed.lookup_eq_none hbuiltin

section

variable (hbook : book.IsStandard)
  (h : computeValues (Transition.context ⟨s, s⟩ none) book.definitions = .ok computed)
  (hshown : Transition.DescribedBy ⟨s, s⟩ computed)

include hbook h hshown

/-- Where nothing has changed and there is no action, none of the further conditions holds. -/
theorem not_holds_further : ∀ row ∈ furtherConditions,
    row.2.holds (Transition.ruleContext ⟨s, s⟩ none computed) = false := by
  simp only [Transition.DescribedBy, Transition.builtins, List.forall_mem_cons] at hshown
  obtain ⟨_, _, gold, exp, _, _, _, _, _, _, _, _, _, _, killed, _⟩ := hshown
  have hneutral := Transition.directDiff_self s
  rw [show Transition.goldDelta ⟨s, s⟩ = 0 from congrArg StateDiff.goldDelta hneutral] at gold
  rw [show Transition.expDelta ⟨s, s⟩ = 0 from congrArg StateDiff.expDelta hneutral] at exp
  rw [Transition.monsterKilled_self] at killed
  have hdamaged : computed.lookup "player_damaged" = none :=
    hbook.lookup_eq_none h (by decide) (by decide)
  have hcritical : computed.lookup "action_result.critical" = none :=
    hbook.lookup_eq_none h (by decide) (by decide)
  simp only [furtherConditions, List.forall_mem_cons]
  refine ⟨?_, ?_, ?_, ?_, ?_, ?_, fun row hrow ↦ absurd hrow List.not_mem_nil⟩
  · refine not_holds_all List.mem_cons_self ?_
    rw [holds, evaluate_named killed]
    rfl
  · -- The health may be low, but no event says that it was lost in this transition.
    refine not_holds_all (List.mem_cons_of_mem _ List.mem_cons_self) ?_
    exact not_holds_named hdamaged List.not_mem_nil
  · refine not_holds_isTrue ?_
    simp only [Context.resolve, Transition.ruleContext, hcritical]
    rfl
  · rw [holds_positive exp]
    rfl
  · rw [holds_positive gold]
    rfl
  · rw [holds_negative gold]
    rfl

/-- Where nothing has changed and there is no action, none of the standard conditions holds. -/
theorem not_holds : ∀ row ∈ standardConditions,
    row.2.holds (Transition.ruleContext ⟨s, s⟩ none computed) = false := by
  intro row hrow
  by_cases hname : row.1 ∈ Transition.directNames
  · have hnone : Transition.directEvents ⟨s, s⟩ = [] :=
      congrArg StateDiff.events (Transition.directDiff_self s)
    have hctx : Transition.DescribedBy ⟨s, s⟩
        (Transition.ruleContext ⟨s, s⟩ none computed).computed := hshown
    rw [holds_standardConditions hctx row hrow hname, hnone]
    rfl
  · refine hbook.not_holds_further h hshown row ?_
    rw [← filter_standardConditions]
    refine List.mem_filter.mpr ⟨hrow, ?_⟩
    rw [Bool.not_eq_true', Bool.eq_false_iff]
    exact mt List.contains_iff_mem.mp hname

/-- Where nothing has changed and there is no action, no standard rule fires. -/
theorem inferEvents_eq_nil :
    inferEvents (Transition.ruleContext ⟨s, s⟩ none computed) book.rules = [] := by
  refine Chronicle.inferEvents_eq_nil fun r hr ↦ ?_
  refine hbook.not_holds h hshown (r.event, r.condition) ?_
  rw [← hbook.conditions]
  exact List.mem_map_of_mem hr

end

end IsStandard

end RuleBook

/-- Where a state is followed by itself and there was no action, the standard rules fire no event,
and with them as without them the diff is neutral in all but the values behind it. Those under
builtin names are zero, unset, empty, or null as well, apart from the two ratios. -/
theorem Differ.diff_unchanged :
    ∃ book, RuleBook.load (some (.text RuleBook.standardText.toList)) = .ok book ∧
      ∀ s : GameState,
        let outcome := Differ.diff ⟨book, false⟩ ⟨s, s⟩ none
        Transition.directDiff ⟨s, s⟩ = .unchanged s.tick ∧
          outcome.source = .rules ∧ outcome.events = [] ∧ outcome.extracted = [] ∧
          outcome.diff = { StateDiff.unchanged s.tick with changes := outcome.diff.changes } ∧
          ∀ name ∈ Transition.builtinNames, name ≠ "hp_ratio" → name ≠ "mp_ratio" →
            ∃ v, outcome.diff.changes.lookup name = some v ∧ v.truthy = false := by
  obtain ⟨book, hparse, hbook⟩ := RuleBook.parse_standard
  refine ⟨book, hparse, fun s ↦ ?_⟩
  have hkeeps := RuleBook.keepsBuiltins_of_parse hparse
  obtain ⟨inference, hinfer⟩ := RuleBook.infer_standard hbook ⟨s, s⟩ none
  have hvalues := (RuleBook.infer_eq_ok.mp hinfer).1
  have hshown := RuleBook.describedBy_of_infer hkeeps hinfer
  have hdirect := Transition.directDiff_self s
  have houtcome : Differ.diff ⟨book, false⟩ ⟨s, s⟩ none =
      ⟨{ StateDiff.unchanged s.tick with changes := inference.computed }, [], [], .rules⟩ := by
    simp only [diff_of_ok hkeeps hvalues, hbook.inferEvents_eq_nil hvalues hshown, hdirect]
    rfl
  simp only [houtcome]
  refine ⟨hdirect, trivial, trivial, trivial, trivial, fun name hname hhp hmp ↦ ?_⟩
  rw [← Transition.keys_builtins ⟨s, s⟩] at hname
  obtain ⟨entry, hentry, rfl⟩ := List.mem_map.mp hname
  exact ⟨entry.2, hshown entry hentry, Transition.truthy_builtins_self s entry hentry hhp hmp⟩

end Chronicle

import Chronicle.Proofs.Results
import Chronicle.Rules.Inference

/-!
# The events that rules fire

A rule fires if its condition holds and all its extractions have values; names always have one.
`filter_inferEvents` says that rules which take no notice of earlier events fire independently:
among the events of a pass, theirs are those whose rules fire, in the order in which the rules are
tried.
-/

namespace Chronicle

namespace Condition

/-- The condition has a value, and the value counts as true. -/
def holds (c : Condition) (ctx : Context) : Bool :=
  match c.evaluate ctx with
  | .ok v => v.truthy
  | .error _ => false

/-- The condition is a name, which always has a value. -/
def isName : Condition → Bool
  | .name _ => true
  | _ => false

theorem evaluate_of_isName {c : Condition} (h : c.isName = true) (ctx : Context) :
    ∃ v, c.evaluate ctx = .ok v := by
  cases c with
  | name n => exact ⟨_, rfl⟩
  | _ => cases h

end Condition

/-- Extracting ends with data if every extraction has a value. -/
theorem exists_extract {ctx : Context} {data : Attributes} {extractions : List Extraction} :
    (∃ found, extract ctx data extractions = .ok found) ↔
      ∀ e ∈ extractions, ∃ v, e.condition.evaluate ctx = .ok v := by
  induction extractions generalizing data with
  | nil => simp [extract]
  | cons e rest ih =>
      simp only [List.forall_mem_cons, extract, bind_eq_ok]
      constructor
      · rintro ⟨found, v, hv, hfound⟩
        exact ⟨⟨v, hv⟩, ih.mp ⟨found, hfound⟩⟩
      · rintro ⟨⟨v, hv⟩, hrest⟩
        obtain ⟨found, hfound⟩ := (@ih (Keyed.insert e.key v data)).mpr hrest
        exact ⟨found, v, hv, hfound⟩

namespace EventRule

variable {r : EventRule} {ctx : Context} {data : Attributes}

/-- The rule fires: its condition holds and each of its extractions has a value. -/
def Fires (r : EventRule) (ctx : Context) : Prop :=
  r.condition.holds ctx = true ∧ ∀ e ∈ r.extractions, ∃ v, e.condition.evaluate ctx = .ok v

theorem fire?_eq_some :
    r.fire? ctx = some data ↔
      r.condition.holds ctx = true ∧ extract ctx [] r.extractions = .ok data := by
  rw [fire?, Condition.holds]
  cases r.condition.evaluate ctx with
  | error cause => simp
  | ok v =>
      show (if v.truthy then (extract ctx [] r.extractions).toOption else none) = some data ↔
        v.truthy = true ∧ extract ctx [] r.extractions = .ok data
      rw [Option.ite_none_right_eq_some, toOption_eq_some]

theorem fires_iff : r.Fires ctx ↔ ∃ data, r.fire? ctx = some data := by
  simp only [Fires, fire?_eq_some, exists_and_left, exists_extract]

/-- A rule that extracts names only fires where its condition holds. -/
theorem isSome_fire? (h : ∀ e ∈ r.extractions, e.condition.isName = true) (ctx : Context) :
    (r.fire? ctx).isSome = r.condition.holds ctx := by
  have hvalues : ∀ e ∈ r.extractions, ∃ v, e.condition.evaluate ctx = .ok v :=
    fun e he ↦ Condition.evaluate_of_isName (h e he) ctx
  rw [Bool.eq_iff_iff, Option.isSome_iff_exists, ← fires_iff]
  exact ⟨And.left, fun hholds ↦ ⟨hholds, hvalues⟩⟩

end EventRule

/-- Among the events of a pass, those of rules that take no notice of earlier events are the ones
whose rules fire. -/
theorem filter_inferEvents {rules : List EventRule} {wanted happened : String → Bool}
    {ctx : Context} (h : ∀ r ∈ rules, wanted r.event = true → ∀ fired,
      (r.fire? { ctx with fired := fired }).isSome = happened r.event) :
    ((inferEvents ctx rules).map (·.rule.event)).filter wanted =
      ((rules.map (·.event)).filter wanted).filter happened := by
  induction rules generalizing ctx with
  | nil => rfl
  | cons r rest ih =>
      obtain ⟨hr, hrest⟩ := List.forall_mem_cons.mp h
      simp only [inferEvents, List.map_cons, List.filter_cons]
      cases hfire : r.fire? ctx with
      | none =>
          rw [ih hrest]
          by_cases hwanted : wanted r.event = true
          · have hnot : happened r.event = false := by
              rw [← hr hwanted ctx.fired, hfire]
              rfl
            simp [hwanted, hnot]
          · simp [hwanted]
      | some data =>
          -- The later rules see the event of this one, of which the wanted ones take no notice.
          have hmore := @ih { ctx with fired := ctx.fired ++ [r.event] } hrest
          simp only [List.map_cons, List.filter_cons]
          by_cases hwanted : wanted r.event = true
          · have hdid : happened r.event = true := by
              rw [← hr hwanted ctx.fired, hfire]
              rfl
            simp [hwanted, hdid, hmore]
          · simp [hwanted, hmore]

end Chronicle

import Chronicle.Condition.Evaluation
import Chronicle.Rules.Basic
import Chronicle.Transition.Diff

/-!
# Inference

One pass over a transition evaluates the definitions and then tries the rules, each in order. A
definition sees the builtin values and the definitions before it; a rule sees all values and the
events of the rules before it. A rule that cannot be evaluated infers nothing, while a definition
that cannot be evaluated ends the pass.
-/

namespace Chronicle

/-- An event that a rule inferred, with the extracted data. -/
structure InferredEvent where
  rule : EventRule
  data : Attributes
deriving DecidableEq

/-- What one pass found. -/
structure Inference where
  events : List InferredEvent
  computed : Attributes
deriving DecidableEq

/-- Why a pass found nothing. -/
inductive InferenceError where
  | definition (name : String) (cause : EvalError)
  | malformed (cause : StateDiff.Malformed)
deriving DecidableEq

def InferenceError.message : InferenceError → String
  | definition name cause => s!"computed value `{name}` failed: {cause.message}"
  | malformed cause => s!"computed value `{cause.name}` is not {cause.expected}"

/-- Evaluates the extractions in order; a later one takes over the name of an earlier one. -/
def extract (ctx : Context) (data : Attributes) : List Extraction → Except EvalError Attributes
  | [] => .ok data
  | e :: rest => do
      let v ← e.condition.evaluate ctx
      extract ctx (Keyed.insert e.key v data) rest

/-- The data of the event if the rule infers it. -/
def EventRule.fire? (r : EventRule) (ctx : Context) : Option Attributes :=
  match r.condition.evaluate ctx with
  | .ok v => if v.truthy then (extract ctx [] r.extractions).toOption else none
  | .error _ => none

/-- Tries the rules in order, each with the events of those before it. -/
def inferEvents (ctx : Context) : List EventRule → List InferredEvent
  | [] => []
  | r :: rest =>
    match r.fire? ctx with
    | some data => ⟨r, data⟩ :: inferEvents { ctx with fired := ctx.fired ++ [r.event] } rest
    | none => inferEvents ctx rest

/-- The values of a context with those of the definitions added in order. -/
def computeValues (ctx : Context) : List Definition → Except InferenceError Attributes
  | [] => .ok ctx.computed
  | d :: rest =>
    match d.condition.evaluate ctx with
    | .ok v => computeValues { ctx with computed := Keyed.insert d.name v ctx.computed } rest
    | .error cause => .error (.definition d.name cause)

/-- What a condition sees of a transition before any definition or rule. -/
def Transition.context (t : Transition) (action : Option Attributes) : Context where
  prev := t.prev.tree
  curr := t.curr.tree
  computed := t.builtins
  fired := []
  action := action

/-- One pass over a transition. -/
def RuleBook.infer (book : RuleBook) (t : Transition) (action : Option Attributes) :
    Except InferenceError Inference := do
  let ctx := t.context action
  let computed ← computeValues ctx book.definitions
  Except.ok ⟨inferEvents { ctx with computed } book.rules, computed⟩

namespace Inference

/-- The ids of the events in order. -/
def eventIds (i : Inference) : List String := i.events.map (·.rule.event)

/-- The data by event; where rules share an event the last of them has the entry. -/
def extracted (i : Inference) : List (String × Attributes) :=
  i.events.foldl (fun entries e ↦ Keyed.insert e.rule.event e.data entries) []

/-- The diff of a transition with what a pass over it found. -/
def diff (i : Inference) (t : Transition) : Except InferenceError StateDiff :=
  match StateDiff.ofComputed t.prev.tick t.curr.tick i.eventIds i.computed with
  | .ok diff => .ok diff
  | .error cause => .error (.malformed cause)

end Inference

end Chronicle

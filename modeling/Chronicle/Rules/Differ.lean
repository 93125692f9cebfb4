import Chronicle.Rules.Inference

/-!
# Diffs with and without rules

A differ answers every transition with a diff. It takes the one that the rules give, unless it is
told not to or the rules give none; then it takes the direct one.
-/

namespace Chronicle

/-- Where a diff comes from. -/
inductive DiffSource where
  | rules
  | direct
deriving DecidableEq, Repr

/-- A diff and the events behind it. -/
structure DiffOutcome where
  diff : StateDiff
  events : List InferredEvent
  /-- The data by event. -/
  extracted : List (String × Attributes)
  source : DiffSource
deriving DecidableEq

/-- A rule book, and whether to leave it aside. -/
structure Differ where
  book : RuleBook
  bypassRules : Bool
deriving DecidableEq

namespace Differ

/-- The outcome that the rules give. -/
def byRules (d : Differ) (t : Transition) (action : Option Attributes) :
    Except InferenceError DiffOutcome := do
  let inference ← d.book.infer t action
  let diff ← inference.diff t
  Except.ok ⟨diff, inference.events, inference.extracted, .rules⟩

/-- The outcome without rules, which has no events of its own. -/
def directly (t : Transition) : DiffOutcome := ⟨t.directDiff, [], [], .direct⟩

/-- The outcome of a transition. -/
def diff (d : Differ) (t : Transition) (action : Option Attributes) : DiffOutcome :=
  if d.bypassRules then directly t
  else match d.byRules t action with
    | .ok outcome => outcome
    | .error _ => directly t

/-- The diffs between each state and the next. -/
def between (d : Differ) : List GameState → List StateDiff
  | [] | [_] => []
  | prev :: curr :: rest => (d.diff ⟨prev, curr⟩ none).diff :: d.between (curr :: rest)

end Differ

end Chronicle

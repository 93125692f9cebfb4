import Chronicle.Condition.Evaluation

/-!
# The names in a condition

A condition reads its context through its names only: `evaluate_congr` says that contexts in which
all of its names stand for the same values give it the same value, or the same error.
-/

namespace Chronicle.Condition

mutual
/-- The names in a condition, at any depth. -/
def names : Condition → List Name
  | .empty | .literal _ => []
  | .name n => [n]
  | .not c | .measure _ c => c.names
  | .any parts | .all parts => namesOfParts parts
  | .compare _ left right | .arith _ left right => left.names ++ right.names

/-- The names in the parts of a connective. -/
def namesOfParts : List Condition → List Name
  | [] => []
  | c :: rest => c.names ++ namesOfParts rest
end

variable {ctx ctx' : Context}

mutual
/-- The value of a condition depends on what its names stand for. -/
theorem evaluate_congr {c : Condition} (h : ∀ n ∈ c.names, ctx.resolve n = ctx'.resolve n) :
    c.evaluate ctx = c.evaluate ctx' := by
  cases c with
  | empty => rfl
  | literal v => rfl
  | name n =>
      rw [evaluate, evaluate, h n (by rw [names]; exact List.mem_singleton_self n)]
  | not c =>
      rw [names] at h
      rw [evaluate, evaluate, evaluate_congr h]
  | any parts =>
      rw [names] at h
      rw [evaluate, evaluate, anyHolds_congr h]
  | all parts =>
      rw [names] at h
      rw [evaluate, evaluate, allHold_congr h]
  | compare op left right =>
      rw [names] at h
      obtain ⟨hleft, hright⟩ := List.forall_mem_append.mp h
      rw [evaluate, evaluate, evaluate_congr hleft, evaluate_congr hright]
  | arith op left right =>
      rw [names] at h
      obtain ⟨hleft, hright⟩ := List.forall_mem_append.mp h
      rw [evaluate, evaluate, evaluate_congr hleft, evaluate_congr hright]
  | measure f argument =>
      rw [names] at h
      rw [evaluate, evaluate, evaluate_congr h]

theorem anyHolds_congr {parts : List Condition}
    (h : ∀ n ∈ namesOfParts parts, ctx.resolve n = ctx'.resolve n) :
    anyHolds ctx parts = anyHolds ctx' parts := by
  cases parts with
  | nil => rfl
  | cons c rest =>
      rw [namesOfParts] at h
      obtain ⟨hc, hrest⟩ := List.forall_mem_append.mp h
      rw [anyHolds, anyHolds, evaluate_congr hc, anyHolds_congr hrest]

theorem allHold_congr {parts : List Condition}
    (h : ∀ n ∈ namesOfParts parts, ctx.resolve n = ctx'.resolve n) :
    allHold ctx parts = allHold ctx' parts := by
  cases parts with
  | nil => rfl
  | cons c rest =>
      rw [namesOfParts] at h
      obtain ⟨hc, hrest⟩ := List.forall_mem_append.mp h
      rw [allHold, allHold, evaluate_congr hc, allHold_congr hrest]
end

end Chronicle.Condition

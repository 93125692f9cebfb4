import Chronicle.Condition.Evaluation
import Chronicle.Proofs.Condition.Operators
import Chronicle.Proofs.Results

/-!
# The meaning of connectives

A text that two texts are joined to by a connective has the parts of both, and holds as the two
conditions do one after the other. So connectives and groups can be read piece by piece, as long as
the parentheses of the first piece are even: `evaluate_or`, `evaluate_and`, `compile_group`. The
three are put together in `compile_compositional`.
-/

namespace Chronicle.Condition

variable {mark : Char} {a b cs front back : List Char}

/-! ### Groups -/

theorem compile_not_group (h : Balanced cs) :
    compile ('!' :: '(' :: (cs ++ [')'])) = .not (compile cs) := by
  rw [(Operand.of_group h).compile_not, compile_group h]

/-! ### Whether conditions hold -/

/-- Whether a condition holds, if it has a value. -/
def truth (ctx : Context) (c : Condition) : Except EvalError Bool := do
  let v ← c.evaluate ctx
  Except.ok v.truthy

section

variable (ctx : Context)

theorem truth_any (parts : List Condition) : truth ctx (.any parts) = anyHolds ctx parts := by
  rw [truth, evaluate]
  cases anyHolds ctx parts <;> rfl

theorem truth_all (parts : List Condition) : truth ctx (.all parts) = allHold ctx parts := by
  rw [truth, evaluate]
  cases allHold ctx parts <;> rfl

theorem anyHolds_cons (c : Condition) (rest : List Condition) :
    anyHolds ctx (c :: rest) = (do
      let b ← truth ctx c
      if b then Except.ok true else anyHolds ctx rest) := by
  rw [anyHolds, truth]
  cases c.evaluate ctx with
  | error e => rfl
  | ok v => rfl

theorem allHold_cons (c : Condition) (rest : List Condition) :
    allHold ctx (c :: rest) = (do
      let b ← truth ctx c
      if b then allHold ctx rest else Except.ok false) := by
  rw [allHold, truth]
  cases c.evaluate ctx with
  | error e => rfl
  | ok v => rfl

theorem anyHolds_append (cs ds : List Condition) :
    anyHolds ctx (cs ++ ds) = (do
      let b ← anyHolds ctx cs
      if b then Except.ok true else anyHolds ctx ds) := by
  induction cs with
  | nil => rfl
  | cons c rest ih =>
      rw [List.cons_append, anyHolds_cons, anyHolds_cons, ih]
      rcases truth ctx c with e | (_ | _)
      · rfl
      · rfl
      · rfl

theorem allHold_append (cs ds : List Condition) :
    allHold ctx (cs ++ ds) = (do
      let b ← allHold ctx cs
      if b then allHold ctx ds else Except.ok false) := by
  induction cs with
  | nil => rfl
  | cons c rest ih =>
      rw [List.cons_append, allHold_cons, allHold_cons, ih]
      rcases truth ctx c with e | (_ | _)
      · rfl
      · rfl
      · rfl

theorem anyHolds_singleton (c : Condition) : anyHolds ctx [c] = truth ctx c :=
  (anyHolds_cons ctx c []).trans (bind_if_self _)

theorem allHold_singleton (c : Condition) : allHold ctx [c] = truth ctx c :=
  (allHold_cons ctx c []).trans (bind_if_self _)

/-- A blank last text makes no difference to whether one holds. -/
theorem anyHolds_withoutBlankLast (texts : List (List Char)) :
    anyHolds ctx ((withoutBlankLast texts).map compile) = anyHolds ctx (texts.map compile) := by
  unfold withoutBlankLast
  split
  · next hlast =>
      obtain ⟨others, rfl⟩ := List.getLast?_eq_some_iff.mp hlast
      rw [List.dropLast_concat, List.map_append, anyHolds_append]
      exact (bind_if_self _).symm
  · rfl

/-- A text holds if one of its parts does. -/
theorem truth_compile_or (cs : List Char) :
    truth ctx (compile cs) = anyHolds ctx ((trimmedParts '|' cs).map compile) := by
  by_cases hsingle : (trimmedParts '|' cs).length = 1
  · rw [trimmedParts_of_length hsingle, List.map_singleton, anyHolds_singleton, compile_trim]
  · have hor := operands?_eq '|' cs
    rw [if_neg hsingle] at hor
    rw [compile_any hor, truth_any, anyHolds_withoutBlankLast]

/-- A text without a disjunction holds if all of its operands do. -/
theorem truth_compile_and (hor : ¬ StandsOutside '|' cs) :
    truth ctx (compile cs) = allHold ctx ((operands '&' cs).map compile) := by
  unfold operands
  cases hand : operands? '&' cs with
  | none => rw [Option.getD_none, List.map_singleton, allHold_singleton, compile_trim]
  | some texts =>
      have hnone := operands?_eq_none_iff.mpr hor
      rw [Option.getD_some, compile_all hnone hand, truth_all]

end

/-! ### Joined texts -/

/-- A disjunction of two texts holds if the first does or else the second. -/
theorem evaluate_or (ctx : Context) (ha : depth a = 0) (b : List Char) :
    (compile (a ++ ' ' :: '|' :: '|' :: ' ' :: b)).evaluate ctx = (do
      let v ← (compile a).evaluate ctx
      if v.truthy then Except.ok (.bool true)
      else
        let w ← (compile b).evaluate ctx
        Except.ok (.bool w.truthy)) := by
  have hor := operands?_join isMark_or ha b
  rw [compile_any hor, evaluate, List.map_append, anyHolds_append, anyHolds_withoutBlankLast,
    ← truth_compile_or, ← truth_compile_or, truth, truth]
  cases (compile a).evaluate ctx with
  | error e => rfl
  | ok v =>
      rw [ok_bind, ok_bind, ok_bind]
      cases v.truthy with
      | true => rfl
      | false =>
          cases (compile b).evaluate ctx with
          | error e => rfl
          | ok w => rfl

/-- A conjunction of two texts holds if the first does and the second too. -/
theorem evaluate_and (ctx : Context) (ha : depth a = 0) (hleft : ¬ StandsOutside '|' a)
    (hright : ¬ StandsOutside '|' b) (hend : ¬ ['&', '&'] <:+ Text.trim a)
    (hb : Text.trim b ≠ []) :
    (compile (a ++ ' ' :: '&' :: '&' :: ' ' :: b)).evaluate ctx = (do
      let v ← (compile a).evaluate ctx
      if v.truthy then
        let w ← (compile b).evaluate ctx
        Except.ok (.bool w.truthy)
      else Except.ok (.bool false)) := by
  have hand := operands?_join isMark_and ha b
  have hor := operands?_or_join ha hleft hright
  rw [← operands_eq_trimmedParts isMark_and hend, ← operands_eq hb] at hand
  rw [compile_all hor hand, evaluate, List.map_append, allHold_append,
    ← truth_compile_and ctx hleft, ← truth_compile_and ctx hright, truth, truth]
  cases (compile a).evaluate ctx with
  | error e => rfl
  | ok v =>
      rw [ok_bind, ok_bind, ok_bind]
      cases v.truthy with
      | false => rfl
      | true =>
          cases (compile b).evaluate ctx with
          | error e => rfl
          | ok w => rfl

/-- Conditions are read piece by piece: parentheses around a balanced text, with or without a
negation in front, and a connective behind a text whose parentheses are even. A conjunction must
not be part of a disjunction, and something must stand on both sides of it. -/
theorem compile_compositional :
    (∀ s, Balanced s →
      compile ('(' :: (s ++ [')'])) = compile s ∧
        compile ('!' :: '(' :: (s ++ [')'])) = .not (compile s)) ∧
    (∀ (ctx : Context) (a b : List Char), depth a = 0 →
      (compile (a ++ [' ', '|', '|', ' '] ++ b)).evaluate ctx = (do
        let v ← (compile a).evaluate ctx
        if v.truthy then Except.ok (.bool true)
        else
          let w ← (compile b).evaluate ctx
          Except.ok (.bool w.truthy))) ∧
    ∀ (ctx : Context) (a b : List Char), depth a = 0 →
      ¬ StandsOutside '|' a → ¬ StandsOutside '|' b →
      ¬ ['&', '&'] <:+ Text.trim a → ¬ Text.AllBlank b →
      (compile (a ++ [' ', '&', '&', ' '] ++ b)).evaluate ctx = (do
        let v ← (compile a).evaluate ctx
        if v.truthy then
          let w ← (compile b).evaluate ctx
          Except.ok (.bool w.truthy)
        else Except.ok (.bool false)) := by
  refine ⟨fun s hs ↦ ⟨compile_group hs, compile_not_group hs⟩, fun ctx a b ha ↦ ?_,
    fun ctx a b ha hleft hright hend hb ↦ ?_⟩
  · rw [List.append_assoc]
    exact evaluate_or ctx ha b
  · rw [List.append_assoc]
    exact evaluate_and ctx ha hleft hright hend (mt Text.allBlank_of_trim hb)

/-- A parenthesis is closed before one is opened, connectives stand at the ends, and the last of the
operands would fail. -/
theorem compile_compositional_uneven :
    let ctx : Context := ⟨.null, .null, [], [], none⟩
    compile ('(' :: ("(1)||!2".toList ++ [')'])) =
        .any [.literal (.int 1), .not (.literal (.int 2))] ∧
      (compile (")0(||".toList ++ [' ', '|', '|', ' '] ++ "1 ||".toList)).evaluate ctx =
        .ok (.bool true) ∧
      (compile ("!(0||0)".toList ++ [' ', '&', '&', ' '] ++
        "2 < null && 1 < 'a' &&".toList)).evaluate ctx = .ok (.bool false) := by
  intro ctx
  obtain ⟨hgroup, hor, hand⟩ := compile_compositional
  refine ⟨(hgroup _ (by decide)).1.trans (by decide +kernel), (hor ctx _ _ rfl).trans rfl, ?_⟩
  exact (hand ctx _ _ rfl (by decide) (by decide) (by decide) (by decide)).trans rfl

end Chronicle.Condition

import Chronicle.Proofs.Rules.Pass
import Chronicle.Proofs.State.Records
import Chronicle.Rules.Differ

/-!
# Diffs and the stamp of a snapshot

A state is stamped with a kind and a parent when it is saved. The builtin values and the direct
diff do not look at the stamp, and rules do so only by a name that leads there: where a rule book
has no such name, a state has the same diffs before and after it is saved, `Differ.diff_stamped`.
-/

namespace Chronicle

/-- The name leads from the current state to its kind, to its parent, or to all of it. -/
def Name.readsStamp (n : Name) : Bool :=
  match n.path with
  | some (.curr, []) => true
  | some (.curr, segment :: _) => segment = "snapshot_type" ∨ segment = "parent_id"
  | _ => false

/-- No name in the book leads to the kind or the parent of the current state. -/
def RuleBook.IgnoresStamp (book : RuleBook) : Prop :=
  (∀ r ∈ book.rules, ∀ n ∈ r.names, n.readsStamp = false) ∧
    ∀ d ∈ book.definitions, ∀ n ∈ d.condition.names, n.readsStamp = false

instance (book : RuleBook) : Decidable book.IgnoresStamp :=
  inferInstanceAs (Decidable (_ ∧ _))

variable {s : GameState} {kind : SnapshotKind} {parent : Option SnapshotId}

/-- The stamp is at the end of a state, under names of its own. -/
theorem GameState.walk_stamped {segment : String} (rest : List String)
    (hkind : segment ≠ "snapshot_type") (hparent : segment ≠ "parent_id") :
    Context.walk (segment :: rest) (s.stamped kind parent).tree =
      Context.walk (segment :: rest) s.tree := by
  have hfront : ∀ (members : Attributes) (a b : Value),
      (members ++ [("snapshot_type", a), ("parent_id", b)]).lookup segment =
        members.lookup segment := by
    intro members a b
    have hnone : [("snapshot_type", a), ("parent_id", b)].lookup segment = none := by
      rw [List.lookup_eq_none_iff]
      simp [hkind, hparent]
    rw [List.lookup_append, hnone, Option.or_none]
  have hmember : (s.stamped kind parent).tree.member? segment = s.tree.member? segment :=
    (hfront ((fields.members s).take 11) _ _).trans (hfront ((fields.members s).take 11) _ _).symm
  rw [Context.walk, Context.walk, hmember]

/-- A name that does not lead to the stamp stands for the same value without it. -/
theorem Context.resolve_stamped {n : Name} (h : n.readsStamp = false) (ctx : Context) :
    resolve { ctx with curr := (s.stamped kind parent).tree } n =
      resolve { ctx with curr := s.tree } n := by
  cases hpath : n.path with
  | none => simp only [resolve, hpath]
  | some path =>
      obtain ⟨root, segments⟩ := path
      -- Of the roots only the current state has a stamp that differs.
      have hfollow : follow { ctx with curr := (s.stamped kind parent).tree } root segments =
          follow { ctx with curr := s.tree } root segments := by
        cases root with
        | curr =>
            cases segments with
            | nil => simp [Name.readsStamp, hpath] at h
            | cons segment rest =>
                simp only [Name.readsStamp, hpath, decide_eq_false_iff_not, not_or] at h
                exact GameState.walk_stamped rest h.1 h.2
        | _ => rfl
      simp only [resolve, hpath, hfollow]

/-- Definitions without a name that leads to the stamp have the same values without it. -/
theorem computeValues_stamped {definitions : List Definition}
    (h : ∀ d ∈ definitions, ∀ n ∈ d.condition.names, n.readsStamp = false) (ctx : Context) :
    computeValues { ctx with curr := (s.stamped kind parent).tree } definitions =
      computeValues { ctx with curr := s.tree } definitions := by
  induction definitions generalizing ctx with
  | nil => rfl
  | cons d rest ih =>
      obtain ⟨hd, hrest⟩ := List.forall_mem_cons.mp h
      rw [computeValues, computeValues,
        Condition.evaluate_congr fun n hn ↦ Context.resolve_stamped (hd n hn) ctx]
      split
      · exact ih hrest { ctx with computed := _ }
      · rfl

/-- A pass does not see the stamp if no name in the book leads there. -/
theorem RuleBook.infer_stamped {book : RuleBook} (h : book.IgnoresStamp) (prev : GameState)
    (action : Option Attributes) :
    book.infer ⟨prev, s.stamped kind parent⟩ action = book.infer ⟨prev, s⟩ action := by
  obtain ⟨hrules, hdefinitions⟩ := h
  let ctx := Transition.context ⟨prev, s⟩ action
  have hvalues : computeValues (Transition.context ⟨prev, s.stamped kind parent⟩ action)
      book.definitions = computeValues ctx book.definitions :=
    computeValues_stamped hdefinitions ctx
  have hevents : ∀ computed : Attributes,
      inferEvents { ctx with curr := (s.stamped kind parent).tree, computed } book.rules =
        inferEvents { ctx with computed } book.rules := by
    intro computed
    refine inferEvents_congr fun r hr n hn events ↦ ?_
    exact Context.resolve_stamped (hrules r hr n hn) (Context.after { ctx with computed } events)
  rw [infer, infer, hvalues]
  cases computeValues ctx book.definitions with
  | error cause => rfl
  | ok computed =>
      exact congrArg (fun events ↦ Except.ok (Inference.mk events computed)) (hevents computed)

/-- A state has the same diff before and after it is stamped. -/
theorem Differ.diff_stamped {differ : Differ} (h : differ.book.IgnoresStamp) (prev : GameState)
    (action : Option Attributes) :
    differ.diff ⟨prev, s.stamped kind parent⟩ action = differ.diff ⟨prev, s⟩ action := by
  have hrules : differ.byRules ⟨prev, s.stamped kind parent⟩ action =
      differ.byRules ⟨prev, s⟩ action := by
    rw [byRules, byRules, RuleBook.infer_stamped h]
    rfl
  rw [diff, diff, hrules]
  rfl

end Chronicle

import Chronicle.Proofs.Results
import Chronicle.Proofs.Transition.Diff
import Chronicle.Rules.Document
import Chronicle.Rules.Inference

/-!
# The values that rules are tried with

A rule document cannot give the name of a builtin value to a value of its own, so that the values of
every pass include the builtin ones unchanged. `Inference.diff_eq_direct` concludes that a pass that
ends always has a diff, which differs from the direct one in the values and the events only.
-/

namespace Chronicle

/-- No definition takes the name of a builtin value. -/
def RuleBook.KeepsBuiltins (book : RuleBook) : Prop :=
  ∀ d ∈ book.definitions, d.name ∉ Transition.builtinNames

namespace RuleBook

/-- Definitions with the name of a builtin value are passed over. -/
theorem readDefinitions_names {members : Attributes} {definitions : List Definition}
    (h : readDefinitions members = .ok definitions) :
    ∀ d ∈ definitions, d.name ∉ Transition.builtinNames := by
  induction members generalizing definitions with
  | nil =>
      cases h
      simp
  | cons member rest ih =>
      obtain ⟨name, v⟩ := member
      simp only [readDefinitions] at h
      split at h
      · cases h
      · obtain ⟨more, hmore, heq⟩ := bind_eq_ok.mp h
        cases heq
        split
        · exact ih hmore
        · next hname =>
            simp only [List.contains_eq_mem, decide_eq_true_eq] at hname
            exact List.forall_mem_cons.mpr ⟨hname, ih hmore⟩

/-- A rule book that is read from a text leaves the builtin values alone. -/
theorem keepsBuiltins_of_parse {cs : List Char} {book : RuleBook} (h : parse cs = .ok book) :
    book.KeepsBuiltins := by
  unfold parse at h
  split at h
  · obtain ⟨rules, _, h⟩ := bind_eq_ok.mp h
    obtain ⟨definitions, hdefinitions, heq⟩ := bind_eq_ok.mp h
    cases heq
    exact readDefinitions_names hdefinitions
  · cases h

end RuleBook

/-- Evaluating definitions leaves every other value as it is. -/
theorem computeValues_lookup {ctx : Context} {definitions : List Definition}
    {computed : Attributes} (h : computeValues ctx definitions = .ok computed) {name : String}
    (hname : ∀ d ∈ definitions, d.name ≠ name) :
    computed.lookup name = ctx.computed.lookup name := by
  induction definitions generalizing ctx with
  | nil =>
      cases h
      rfl
  | cons d rest ih =>
      obtain ⟨hd, hrest⟩ := List.forall_mem_cons.mp hname
      simp only [computeValues] at h
      split at h
      · rw [ih h hrest, Keyed.lookup_insert, if_neg (Ne.symm hd)]
      · cases h

/-- The values of a pass include the builtin ones. -/
theorem RuleBook.describedBy_of_infer {book : RuleBook} (hbook : book.KeepsBuiltins)
    {t : Transition} {action : Option Attributes} {inference : Inference}
    (h : book.infer t action = .ok inference) : t.DescribedBy inference.computed := by
  intro entry hentry
  obtain ⟨computed, hvalues, heq⟩ := bind_eq_ok.mp h
  cases heq
  have hname : entry.1 ∈ Transition.builtinNames := by
    rw [← Transition.keys_builtins t]
    exact List.mem_map_of_mem hentry
  have hfresh : ∀ d ∈ book.definitions, d.name ≠ entry.1 := by
    intro d hd hsame
    exact hbook d hd (hsame ▸ hname)
  rw [computeValues_lookup hvalues hfresh]
  exact t.describedBy_builtins entry hentry

/-- A pass that ends has a diff, which is the direct one but for the values and the events. -/
theorem Inference.diff_eq_direct {t : Transition} {inference : Inference}
    (h : t.DescribedBy inference.computed) :
    inference.diff t =
      .ok { t.directDiff with changes := inference.computed, events := inference.eventIds } := by
  simp only [diff, StateDiff.ofComputed_eq_direct h]

end Chronicle

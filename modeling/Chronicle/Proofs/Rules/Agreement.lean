import Chronicle.Proofs.Rules.Computed

/-!
# Agreement of the diffs with and without rules

Whatever rules and definitions a document has, a pass over a transition never ends with values that
make no diff, and its diff is the direct one in all but the values and the events.
-/

namespace Chronicle

/-- A pass with the rules of a document gives a diff that agrees with the direct one in every field
but the values and the events, and has every value that the direct one has. -/
theorem Inference.diff_agrees_direct {cs : List Char} {book : RuleBook} {t : Transition}
    {action : Option Attributes} {inference : Inference} (hbook : RuleBook.parse cs = .ok book)
    (hinfer : book.infer t action = .ok inference) :
    ∃ diff, inference.diff t = .ok diff ∧
      diff = { t.directDiff with changes := diff.changes, events := diff.events } ∧
      ∀ name v, (name, v) ∈ t.directDiff.changes → diff.changes.lookup name = some v := by
  have hshown := RuleBook.describedBy_of_infer (RuleBook.keepsBuiltins_of_parse hbook) hinfer
  refine ⟨_, diff_eq_direct hshown, rfl, ?_⟩
  intro name v hchange
  exact hshown (name, v) (t.directChanges_subset hchange)

/-- A document that tries to define a builtin value. -/
def RuleBook.shadowingText : String :=
  "\x7b\"computed_values\": \x7b\"hp_delta\": \"1\", \"hurt\": \"hp_delta < 0\"\x7d\x7d"

/-- The player loses twenty hit points while a definition tries to say otherwise. -/
theorem Inference.diff_agrees_direct_shadowing :
    let prev := GameState.initial 1 (.zero false)
    let t : Transition := ⟨prev, { prev with player := { prev.player with hp := 80 } }⟩
    ∃ book inference, RuleBook.parse RuleBook.shadowingText.toList = .ok book ∧
      book.infer t none = .ok inference ∧
      ∃ diff, inference.diff t = .ok diff ∧
        diff = { t.directDiff with changes := diff.changes, events := diff.events } ∧
        ∀ name v, (name, v) ∈ t.directDiff.changes → diff.changes.lookup name = some v := by
  intro prev t
  obtain ⟨cs, htext, hread, hinfer⟩ : ∃ cs, RuleBook.shadowingText = String.ofList cs ∧
      (RuleBook.parse cs).toOption = some ⟨[], [], [⟨"hurt", "hp_delta < 0"⟩]⟩ ∧
        (RuleBook.infer ⟨[], [], [⟨"hurt", "hp_delta < 0"⟩]⟩ t none).toOption =
          some ⟨[], Keyed.insert "hurt" (.bool true) t.builtins⟩ :=
    ⟨_, rfl, by decide +kernel⟩
  rw [htext, String.toList_ofList]
  exact ⟨_, _, toOption_eq_some.mp hread, toOption_eq_some.mp hinfer,
    Inference.diff_agrees_direct (toOption_eq_some.mp hread) (toOption_eq_some.mp hinfer)⟩

end Chronicle

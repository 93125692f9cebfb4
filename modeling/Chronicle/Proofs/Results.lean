/-!
# Computations that can fail

When a chain of computations ends with a result, each link has one.
-/

namespace Chronicle

variable {ε α β γ : Type}

theorem bind_eq_ok {x : Except ε α} {f : α → Except ε β} {b : β} :
    (x >>= f) = .ok b ↔ ∃ a, x = .ok a ∧ f a = .ok b := by
  cases x with
  | error e => simp [bind, Except.bind]
  | ok a => simp [bind, Except.bind]

@[simp]
theorem ok_bind (a : α) (f : α → Except ε β) : ((.ok a : Except ε α) >>= f) = f a := rfl

theorem map_eq_ok {x : Except ε α} {f : α → β} {b : β} :
    x.map f = .ok b ↔ ∃ a, x = .ok a ∧ f a = b := by
  cases x with
  | error e => simp [Except.map]
  | ok a => simp [Except.map]

theorem map_id (x : Except ε α) : x.map id = x := by
  cases x <;> rfl

theorem map_bind (x : Except ε α) (f : α → Except ε β) (g : β → γ) :
    (x >>= f).map g = x >>= fun a ↦ (f a).map g := by
  cases x <;> rfl

theorem bind_map (x : Except ε α) (g : α → β) (f : β → Except ε γ) :
    x.map g >>= f = x >>= fun a ↦ f (g a) := by
  cases x <;> rfl

/-- Answering yes for yes and no for no changes nothing. -/
theorem bind_if_self (x : Except ε Bool) :
    (x >>= fun b ↦ if b then .ok true else .ok false) = x := by
  rcases x with e | (_ | _)
  · rfl
  · rfl
  · rfl

/-- What comes after a computation matters for its results only. -/
theorem bind_congr_ok {x : Except ε α} {f g : α → Except ε β} (h : ∀ a, x = .ok a → f a = g a) :
    (x >>= f) = (x >>= g) := by
  cases x with
  | error e => rfl
  | ok a => exact h a rfl

theorem toOption_eq_some {x : Except ε α} {a : α} : x.toOption = some a ↔ x = .ok a := by
  cases x with
  | error e => simp [Except.toOption]
  | ok b => simp [Except.toOption]

/-- What is read from the characters of a text is read from the text. -/
theorem eq_ok_of_ofList {f : List Char → Except ε α} {text : String} {a : α}
    (h : ∃ cs, text = String.ofList cs ∧ (f cs).toOption = some a) : f text.toList = .ok a := by
  obtain ⟨cs, rfl, hread⟩ := h
  rw [String.toList_ofList]
  exact toOption_eq_some.mp hread

end Chronicle

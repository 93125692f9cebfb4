import Chronicle.Proofs.Condition.Leaves
import Chronicle.Proofs.Condition.Names

/-!
# References

Anything can be the name of a value or of an event, but not every name can be referred to: a text is
taken apart first, and only what no step of that applies to is a name. `taken_compile` lists the
steps, and `isReference_iff` says that the other names do not occur in the conditions that are
written like them.
-/

namespace Chronicle.Condition

/-- The text is a name: it stands without blanks around it, no connective, negation, or group, no
comparison, and no sign but one that leads it is found in it, and it is neither a literal nor a
call. -/
structure IsReference (cs : List Char) : Prop where
  trimmed : Text.Trimmed cs
  ne_nil : cs ≠ []
  connective : ∀ mark ∈ connectives, ¬ StandsOutside mark cs
  head : cs.head? ≠ some '!'
  group : group? cs = none
  comparison : ∀ op : Comparison, ¬ op.symbol <:+: cs
  sign : ∀ op : Operation, op.sign ∈ cs → cs.head? = some op.sign
  number : number? cs = none
  keyword : keyword? cs = none
  call : call? cs = none
  quotation : quotation? cs = none

variable {cs : List Char}

/-- A name compiles to itself. -/
theorem IsReference.compile_eq (h : IsReference cs) : compile cs = .name (nameOf cs) := by
  have hundivided : Undivided cs :=
    ⟨h.trimmed, h.ne_nil, fun mark hmark ↦ operands?_eq_none_iff.mpr (h.connective mark hmark)⟩
  rw [hundivided.compile_leaf (negated?_eq_none h.head) h.group
    (comparison?_eq_none.mpr h.comparison) (operation?_eq_none.mpr h.sign), leaf, h.number,
    h.keyword, h.call, h.quotation]

/-! ### Where the names in a condition come from -/

theorem mem_namesOfParts {n : Name} {parts : List Condition} :
    n ∈ namesOfParts parts ↔ ∃ c ∈ parts, n ∈ c.names := by
  induction parts with
  | nil => simp [namesOfParts]
  | cons c rest ih => simp [namesOfParts, ih]

/-- A `!` leads a text that is neither a negation nor a comparison nowhere. -/
theorem head?_ne_of_negated? (hnot : negated? cs = none)
    (hcompare : ∀ op : Comparison, ¬ op.symbol <:+: cs) : cs.head? ≠ some '!' := by
  intro hhead
  cases cs with
  | nil => cases hhead
  | cons c rest =>
      cases hhead
      cases rest with
      | nil => cases hnot
      | cons d rest =>
          by_cases hd : d = '='
          · subst hd
            exact hcompare .ne ⟨[], rest, rfl⟩
          · rw [negated?, List.head?_cons, if_neg (by simpa using hd)] at hnot
            cases hnot

/-- How the condition of a text without blanks around it comes about, by the step that applies. -/
inductive Taken (cs : List Char) : Condition → Prop where
  | empty : Taken cs .empty
  | any {texts : List (List Char)} (h : operands? '|' cs = some texts) :
      Taken cs (.any (texts.map compile))
  | all {texts : List (List Char)} (h : operands? '&' cs = some texts) :
      Taken cs (.all (texts.map compile))
  | not {inner : List Char} (h : negated? cs = some inner) : Taken cs (.not (compile inner))
  | group {inner : List Char} (h : group? cs = some inner) : Taken cs (compile inner)
  | compare {op : Comparison} {left right : List Char}
      (h : comparison? cs = some (op, left, right)) :
      Taken cs (.compare op (compile left) (compile right))
  | arith {op : Operation} {left right : List Char} (h : operation? cs = some (op, left, right)) :
      Taken cs (.arith op (compile left) (compile right))
  | number {v : Value} (h : number? cs = some v) : Taken cs (.literal v)
  | keyword {v : Value} (h : keyword? cs = some v) : Taken cs (.literal v)
  | measure {f : Measure} {argument : List Char} (h : call? cs = some (f, argument)) :
      Taken cs (.measure f (compile argument))
  | quotation {s : String} (hcompare : ∀ op : Comparison, ¬ op.symbol <:+: cs)
      (hsign : ∀ op : Operation, op.sign ∈ cs → cs.head? = some op.sign)
      (h : quotation? cs = some s) : Taken cs (.literal (.str s))
  | name (h : IsReference cs) : Taken cs (.name (nameOf cs))

/-- Each step applies where those before it do not. -/
theorem taken_compile (h : Text.Trimmed cs) : Taken cs (compile cs) := by
  rw [compile_eq, dispatch, h.trim_eq]
  by_cases hempty : cs.isEmpty
  · rw [if_pos hempty]
    exact .empty
  rw [if_neg hempty]
  cases hor : operands? '|' cs with
  | some texts => exact .any hor
  | none =>
  cases hand : operands? '&' cs with
  | some texts => exact .all hand
  | none =>
  cases hnot : negated? cs with
  | some inner => exact .not hnot
  | none =>
  cases hgroup : group? cs with
  | some inner => exact .group hgroup
  | none =>
  cases hcompare : comparison? cs with
  | some found => exact .compare hcompare
  | none =>
  cases harith : operation? cs with
  | some found => exact .arith harith
  | none =>
  have hsymbols := comparison?_eq_none.mp hcompare
  have hsigns := operation?_eq_none.mp harith
  dsimp only
  rw [leaf]
  cases hnumber : number? cs with
  | some v => exact .number hnumber
  | none =>
  cases hkeyword : keyword? cs with
  | some v => exact .keyword hkeyword
  | none =>
  cases hcall : call? cs with
  | some found => exact .measure hcall
  | none =>
  cases hquotation : quotation? cs with
  | some s => exact .quotation hsymbols hsigns hquotation
  | none =>
      refine .name ⟨h, by simpa using hempty, fun mark hmark ↦ ?_,
        head?_ne_of_negated? hnot hsymbols, hgroup, hsymbols, hsigns, hnumber, hkeyword, hcall,
        hquotation⟩
      rcases List.mem_pair.mp hmark with rfl | rfl
      · exact operands?_eq_none_iff.mp hor
      · exact operands?_eq_none_iff.mp hand

/-- What holds of the condition that a step leads to, if it holds of those of all shorter texts,
holds of every condition that is written. -/
theorem compile_induction {P : Condition → Prop}
    (hstep : ∀ (cs : List Char) (c : Condition), Taken cs c →
      (∀ part : List Char, part.length < cs.length → P (compile part)) → P c)
    (cs : List Char) : P (compile cs) := by
  induction hlength : cs.length using Nat.strong_induction_on generalizing cs with
  | h length ih =>
      have htrim := Text.length_trim_le cs
      rw [← compile_trim]
      refine hstep _ _ (taken_compile (Text.trimmed_trim cs)) fun part hpart ↦ ?_
      exact ih part.length (by omega) part rfl

/-- The name is in the condition of a shorter text. -/
def Inside (cs : List Char) (n : Name) : Prop :=
  ∃ part : List Char, part.length < cs.length ∧ n ∈ (compile part).names

theorem inside_of_operands? {mark : Char} {texts : List (List Char)} {n : Name}
    (h : operands? mark cs = some texts) (hn : n ∈ namesOfParts (texts.map compile)) :
    Inside cs n := by
  obtain ⟨c, hc, hn⟩ := mem_namesOfParts.mp hn
  obtain ⟨text, htext, rfl⟩ := List.mem_map.mp hc
  exact ⟨text, length_lt_of_mem_operands h htext, hn⟩

theorem inside_of_append {left right : List Char} {n : Name}
    (h : left.length < cs.length ∧ right.length < cs.length)
    (hn : n ∈ (compile left).names ++ (compile right).names) : Inside cs n := by
  rcases List.mem_append.mp hn with hn | hn
  · exact ⟨left, h.1, hn⟩
  · exact ⟨right, h.2, hn⟩

/-- The names in the condition of a text are those of shorter texts, unless the text is a name. -/
theorem Taken.inside_or_isReference {c : Condition} (h : Taken cs c) :
    (∀ n ∈ c.names, Inside cs n) ∨ IsReference cs ∧ c = .name (nameOf cs) := by
  cases h with
  | empty | number | keyword | quotation => exact .inl fun n hn ↦ absurd hn List.not_mem_nil
  | any h | all h => exact .inl fun n hn ↦ inside_of_operands? h hn
  | not h => exact .inl fun n hn ↦ ⟨_, length_lt_of_negated? h, hn⟩
  | group h => exact .inl fun n hn ↦ ⟨_, length_lt_of_group? h, hn⟩
  | compare h => exact .inl fun n hn ↦ inside_of_append (length_lt_of_comparison? h) hn
  | arith h => exact .inl fun n hn ↦ inside_of_append (length_lt_of_operation? h) hn
  | measure h => exact .inl fun n hn ↦ ⟨_, length_lt_of_call? h, hn⟩
  | name h => exact .inr ⟨h, rfl⟩

/-- Every name in a condition comes from a text that is a name. -/
theorem exists_isReference {n : Name} (h : n ∈ (compile cs).names) :
    ∃ part, IsReference part ∧ n = nameOf part := by
  refine @compile_induction (fun c ↦ n ∈ c.names → ∃ part, IsReference part ∧ n = nameOf part)
    ?_ cs h
  intro cs c htaken hparts hn
  rcases htaken.inside_or_isReference with hinside | ⟨hreference, rfl⟩
  · obtain ⟨part, hpart, hn⟩ := hinside n hn
    exact hparts part hpart hn
  · exact ⟨cs, hreference, List.mem_singleton.mp hn⟩

end Chronicle.Condition

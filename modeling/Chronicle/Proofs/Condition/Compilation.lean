import Chronicle.Condition.Compilation
import Chronicle.Proofs.Condition.Operands

/-!
# Steps of the compilation

Every part that a step takes out of a text is shorter than the text, so the fuel never runs out:
`compile_eq` says that compiling a text is taking one step and compiling the parts.
-/

namespace Chronicle

theorem Comparison.symbol_ne_nil (op : Comparison) : op.symbol ≠ [] := by
  cases op <;> simp [symbol]

namespace Condition

variable {cs left right : List Char}

/-! ### Parts are shorter -/

theorem length_lt_of_negated? {inner : List Char} (h : negated? cs = some inner) :
    inner.length < cs.length := by
  unfold negated? at h
  split at h
  · next rest =>
      split at h
      · cases h
      · cases h
        have htrim := Text.length_trim_le rest
        rw [List.length_cons]
        cases hgroup : group? (Text.trim rest) with
        | none =>
            rw [Option.getD_none]
            omega
        | some inner =>
            have hlength := length_lt_of_group? hgroup
            rw [Option.getD_some]
            omega
  · cases h

/-- Both sides of a cut are shorter than the text. -/
theorem length_lt_of_cut? {mark : List Char} (hmark : mark ≠ [])
    (h : Text.cut? mark cs = some (left, right)) :
    left.length < cs.length ∧ right.length < cs.length := by
  have hlength := congrArg List.length (Text.cut?_eq_some h)
  have hpos := List.length_pos_iff.mpr hmark
  rw [List.length_append, List.length_append] at hlength
  omega

theorem length_lt_of_comparison? {op : Comparison} (h : comparison? cs = some (op, left, right)) :
    left.length < cs.length ∧ right.length < cs.length := by
  obtain ⟨op', -, hcut⟩ := List.exists_of_findSome?_eq_some h
  obtain ⟨parts, hparts, heq⟩ := Option.map_eq_some_iff.mp hcut
  cases heq
  exact length_lt_of_cut? op.symbol_ne_nil hparts

theorem length_lt_of_operation? {op : Operation} (h : operation? cs = some (op, left, right)) :
    left.length < cs.length ∧ right.length < cs.length := by
  obtain ⟨op', -, hcut⟩ := List.exists_of_findSome?_eq_some h
  split at hcut
  · cases hcut
  · obtain ⟨parts, hparts, heq⟩ := Option.map_eq_some_iff.mp hcut
    cases heq
    exact length_lt_of_cut? (by simp) hparts

theorem length_lt_of_call? {f : Measure} {argument : List Char}
    (h : call? cs = some (f, argument)) : argument.length < cs.length := by
  obtain ⟨f', -, hcall⟩ := List.exists_of_findSome?_eq_some h
  dsimp only at hcall
  split at hcall
  · next hhead =>
      cases hcall
      have hlength := (List.isPrefixOf_iff_prefix.mp hhead.1).length_le
      rw [List.length_append, List.length_singleton] at hlength
      rw [List.length_dropLast, List.length_drop]
      omega
  · cases hcall

/-! ### One step -/

section

variable {f g : List Char → Condition}

theorem map_congr_of_operands? {mark : Char} {texts : List (List Char)}
    (h : ∀ part : List Char, part.length < cs.length → f part = g part)
    (htexts : operands? mark cs = some texts) : texts.map f = texts.map g :=
  List.map_congr_left fun text hmem ↦ h text (length_lt_of_mem_operands htexts hmem)

/-- A call only asks for the condition of a shorter text. -/
theorem leaf_congr (h : ∀ part : List Char, part.length < cs.length → f part = g part) :
    leaf f cs = leaf g cs := by
  unfold leaf
  cases hcall : call? cs with
  | some found =>
      obtain ⟨f', argument⟩ := found
      simp only [h argument (length_lt_of_call? hcall)]
  | none => rfl

/-- A step only asks for the conditions of shorter texts. -/
theorem dispatch_congr (h : ∀ part : List Char, part.length < cs.length → f part = g part) :
    dispatch f cs = dispatch g cs := by
  have hpart : ∀ part : List Char, part.length < (Text.trim cs).length → f part = g part :=
    fun part hlength ↦ h part (Nat.lt_of_lt_of_le hlength (Text.length_trim_le cs))
  unfold dispatch
  generalize Text.trim cs = cs at hpart
  dsimp only
  by_cases hempty : cs.isEmpty
  · rw [if_pos hempty, if_pos hempty]
  rw [if_neg hempty, if_neg hempty]
  cases hany : operands? '|' cs with
  | some texts => simp only [map_congr_of_operands? hpart hany]
  | none =>
  cases hall : operands? '&' cs with
  | some texts => simp only [map_congr_of_operands? hpart hall]
  | none =>
  cases hnot : negated? cs with
  | some inner => simp only [hpart inner (length_lt_of_negated? hnot)]
  | none =>
  cases hgroup : group? cs with
  | some inner => simp only [hpart inner (length_lt_of_group? hgroup)]
  | none =>
  cases hcompare : comparison? cs with
  | some found =>
      obtain ⟨op, left, right⟩ := found
      obtain ⟨hleft, hright⟩ := length_lt_of_comparison? hcompare
      simp only [hpart left hleft, hpart right hright]
  | none =>
  cases harith : operation? cs with
  | some found =>
      obtain ⟨op, left, right⟩ := found
      obtain ⟨hleft, hright⟩ := length_lt_of_operation? harith
      simp only [hpart left hleft, hpart right hright]
  | none => exact leaf_congr hpart

end

/-- Any fuel does that is enough. -/
theorem compileWith_congr {fuel fuel' : Nat} (h : cs.length ≤ fuel) (h' : cs.length ≤ fuel') :
    compileWith fuel cs = compileWith fuel' cs := by
  induction fuel generalizing fuel' cs with
  | zero =>
      obtain rfl := List.eq_nil_of_length_eq_zero (Nat.le_zero.mp h)
      cases fuel' with
      | zero => rfl
      | succ fuel' => rfl
  | succ fuel ih =>
      cases fuel' with
      | zero =>
          obtain rfl := List.eq_nil_of_length_eq_zero (Nat.le_zero.mp h')
          rfl
      | succ fuel' =>
          exact dispatch_congr fun part hpart ↦ ih (by omega) (by omega)

/-- Compiling a text is taking one step and compiling the parts. -/
theorem compile_eq (cs : List Char) : compile cs = dispatch compile cs := by
  cases cs with
  | nil => rfl
  | cons c rest =>
      refine dispatch_congr fun part hpart ↦ ?_
      exact compileWith_congr (Nat.le_of_lt_succ hpart) (Nat.le_refl _)

theorem compile_trim (cs : List Char) : compile (Text.trim cs) = compile cs := by
  rw [compile_eq, compile_eq, dispatch, dispatch, Text.trim_trim]

theorem compile_append_left {front : List Char} (h : Text.AllBlank front) (cs : List Char) :
    compile (front ++ cs) = compile cs := by
  rw [← compile_trim, Text.trim_append_left h, compile_trim]

theorem compile_append_right {back : List Char} (h : Text.AllBlank back) (cs : List Char) :
    compile (cs ++ back) = compile cs := by
  rw [← compile_trim, Text.trim_append_right h, compile_trim]

/-! ### Which step applies -/

section

variable {inner : List Char} {texts : List (List Char)}

theorem compile_any (h : operands? '|' cs = some texts) :
    compile cs = .any (texts.map compile) := by
  rw [← operands?_trim isMark_or] at h
  rw [compile_eq, dispatch, if_neg (by simpa using ne_nil_of_operands? h), h]

theorem compile_all (hor : operands? '|' cs = none) (h : operands? '&' cs = some texts) :
    compile cs = .all (texts.map compile) := by
  rw [← operands?_trim isMark_or] at hor
  rw [← operands?_trim isMark_and] at h
  rw [compile_eq, dispatch, if_neg (by simpa using ne_nil_of_operands? h), hor, h]

/-- A text without blanks around it that no connective takes apart. -/
structure Undivided (cs : List Char) : Prop where
  trimmed : Text.Trimmed cs
  ne_nil : cs ≠ []
  none_of_mem : ∀ mark ∈ connectives, operands? mark cs = none

namespace Undivided

theorem compile_eq (h : Undivided cs) :
    compile cs =
      match negated? cs with
      | some inner => .not (compile inner)
      | none =>
      match group? cs with
      | some inner => compile inner
      | none =>
      match comparison? cs with
      | some (op, left, right) => .compare op (compile left) (compile right)
      | none =>
      match operation? cs with
      | some (op, left, right) => .arith op (compile left) (compile right)
      | none => leaf compile cs := by
  have hne : ¬ cs.isEmpty = true := by simpa using h.ne_nil
  have hstep := Condition.compile_eq cs
  rw [dispatch, h.trimmed.trim_eq, if_neg hne, h.none_of_mem '|' (by decide),
    h.none_of_mem '&' (by decide)] at hstep
  exact hstep

theorem compile_not (h : Undivided cs) (hnot : negated? cs = some inner) :
    compile cs = .not (compile inner) := by
  rw [h.compile_eq, hnot]

theorem compile_group (h : Undivided cs) (hnot : negated? cs = none)
    (hgroup : group? cs = some inner) : compile cs = compile inner := by
  rw [h.compile_eq, hnot, hgroup]

theorem compile_compare {op : Comparison} (h : Undivided cs) (hnot : negated? cs = none)
    (hgroup : group? cs = none) (hcompare : comparison? cs = some (op, left, right)) :
    compile cs = .compare op (compile left) (compile right) := by
  rw [h.compile_eq, hnot, hgroup, hcompare]

theorem compile_arith {op : Operation} (h : Undivided cs) (hnot : negated? cs = none)
    (hgroup : group? cs = none) (hcompare : comparison? cs = none)
    (harith : operation? cs = some (op, left, right)) :
    compile cs = .arith op (compile left) (compile right) := by
  rw [h.compile_eq, hnot, hgroup, hcompare, harith]

theorem compile_leaf (h : Undivided cs) (hnot : negated? cs = none) (hgroup : group? cs = none)
    (hcompare : comparison? cs = none) (harith : operation? cs = none) :
    compile cs = leaf compile cs := by
  rw [h.compile_eq, hnot, hgroup, hcompare, harith]

end Undivided

end

/-! ### Groups -/

theorem undivided_group (h : Balanced cs) : Undivided ('(' :: (cs ++ [')'])) where
  trimmed := Text.trimmed_wrap rfl rfl cs
  ne_nil := List.cons_ne_nil _ _
  none_of_mem _ hmark := operands?_eq_none (parts_group (isMark_of_mem hmark).flat h)

/-- Parentheses around a balanced text do not change its condition. -/
theorem compile_group (h : Balanced cs) : compile ('(' :: (cs ++ [')'])) = compile cs :=
  (undivided_group h).compile_group rfl (group?_group h)

end Condition

end Chronicle

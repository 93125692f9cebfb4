import Chronicle.Proofs.Condition.Leaves
import Mathlib.Data.List.Infix

/-!
# Operators between texts

An operand is a text that no connective takes apart, and that is neither a negation nor a group that
goes on behind it: a leaf, a call, or a group. Where an operator stands between or before operands
and no other is found earlier, the text is read as the operator on the conditions of the operands.
-/

namespace Chronicle.Condition

variable {text left right symbol : List Char}

/-! ### Flat texts -/

/-- Neither a connective nor a parenthesis stands in the text. -/
def Flat (cs : List Char) : Prop := ∀ mark ∈ connectives, Clear mark cs

instance (cs : List Char) : Decidable (Flat cs) := List.decidableBAll _ _

/-- An operator with a space on either side. -/
def spaced (symbol : List Char) : List Char := ' ' :: (symbol ++ [' '])

namespace Flat

theorem balanced (h : Flat text) : Balanced text :=
  .of_forall fun c hc ↦ (h '|' (by decide) c hc).2

theorem spaced (h : Flat symbol) : Flat (spaced symbol) := by
  have hspace : Flat [' '] := by decide
  intro mark hmark
  exact List.forall_mem_append.mpr ⟨hspace mark hmark,
    List.forall_mem_append.mpr ⟨h mark hmark, hspace mark hmark⟩⟩

end Flat

theorem flat_symbol (op : Comparison) : Flat op.symbol := by
  cases op <;> decide

theorem flat_sign (op : Operation) : Flat [op.sign] := by
  cases op <;> decide

theorem flat_name (f : Measure) : Flat f.name := by
  cases f <;> decide

theorem balanced_intercalate {sep : List Char} {texts : List (List Char)} (hsep : Balanced sep)
    (h : ∀ text ∈ texts, Balanced text) : Balanced (sep.intercalate texts) := by
  induction texts with
  | nil => exact .of_forall (by simp)
  | cons first others ih =>
      obtain ⟨hfirst, hothers⟩ := List.forall_mem_cons.mp h
      cases others with
      | nil => rwa [List.intercalate_singleton]
      | cons next others =>
          rw [List.intercalate_cons_cons]
          exact (hfirst.append hsep).append (ih hothers)

/-! ### Operands -/

/-- A text that can stand next to an operator: whole for the connectives, and neither a negation nor
a group that goes on behind it. -/
structure Operand (text : List Char) : Prop where
  balanced : Balanced text
  trimmed : Text.Trimmed text
  ne_nil : text ≠ []
  whole : ∀ mark ∈ connectives, parts mark 0 text = [text]
  head : ∀ d ∈ text.head?, d ≠ '!' ∧ d ≠ '='
  apart : ∀ more, more ≠ [] → group? (text ++ more) = none

namespace Operand

/-- A text that begins with a plain character or a quote is neither a negation nor a group. -/
theorem of_head (hbalanced : Balanced text) (htrim : Text.Trimmed text) (hne : text ≠ [])
    (hwhole : ∀ mark ∈ connectives, parts mark 0 text = [text])
    (h : ∀ d ∈ text.head?, isPlain d = true ∨ d = '"') : Operand text := by
  have hhead : ∀ {c : Char}, isPlain c = false ∧ c ≠ '"' → text.head? ≠ some c := by
    intro c hc hhead
    rcases h c hhead with hplain | hquote
    · exact absurd (hc.1 ▸ hplain) (by simp)
    · exact hc.2 hquote
  refine ⟨hbalanced, htrim, hne, hwhole, fun d hd ↦ ⟨?_, ?_⟩, fun more _ ↦ group?_eq_none ?_⟩
  · rintro rfl
    exact hhead (by decide) hd
  · rintro rfl
    exact hhead (by decide) hd
  · rw [List.head?_append_of_ne_nil _ hne]
    exact hhead (by decide)

theorem of_atom (h : Atom text) : Operand text :=
  of_head h.balanced h.trimmed h.ne_nil (fun _ hmark ↦ h.parts_eq hmark) fun d hd ↦
    h.plain d (List.mem_of_mem_head? hd)

theorem of_group (h : Balanced text) : Operand ('(' :: (text ++ [')'])) where
  balanced := h.group
  trimmed := Text.trimmed_wrap rfl rfl text
  ne_nil := List.cons_ne_nil _ _
  whole _ hmark := parts_group (isMark_of_mem hmark).flat h
  head := by simp
  apart more hmore := by
    have hgroup := group?_group_append h hmore
    rwa [List.cons_append, List.append_assoc]

theorem of_call (f : Measure) (h : Balanced text) :
    Operand (f.name ++ '(' :: (text ++ [')'])) := by
  have htrim : Text.Trimmed (f.name ++ '(' :: (text ++ [')'])) := by
    cases f with
    | len => exact Text.trimmed_wrap rfl rfl ('e' :: 'n' :: '(' :: text)
    | count => exact Text.trimmed_wrap rfl rfl ('o' :: 'u' :: 'n' :: 't' :: '(' :: text)
  refine of_head ((flat_name f).balanced.append h.group) htrim (by simp) (fun mark hmark ↦ ?_) ?_
  · exact parts_append_left (flat_name f mark hmark) (parts_group (isMark_of_mem hmark).flat h)
  · cases f with
    | len => simp [Measure.name, isPlain, reserved, Text.isBlank]
    | count => simp [Measure.name, isPlain, reserved, Text.isBlank]

theorem undivided (h : Operand text) : Undivided text :=
  ⟨h.trimmed, h.ne_nil, fun mark hmark ↦ operands?_eq_none (h.whole mark hmark)⟩

theorem negated?_eq_none (h : Operand text) (more : List Char) :
    negated? (text ++ more) = none := by
  refine Condition.negated?_eq_none ?_
  rw [List.head?_append_of_ne_nil _ h.ne_nil]
  exact fun hhead ↦ (h.head '!' hhead).1 rfl

/-- The parentheses of an operand make no difference. -/
theorem compile_getD_group? (h : Operand text) :
    compile ((group? text).getD text) = compile text := by
  cases hgroup : group? text with
  | none => rfl
  | some inner =>
      have hnot := h.negated?_eq_none []
      rw [List.append_nil] at hnot
      exact (h.undivided.compile_group hnot hgroup).symm

/-- A negation is read back. -/
theorem compile_not (h : Operand text) : compile ('!' :: text) = .not (compile text) := by
  have hnot : negated? ('!' :: text) = some ((group? text).getD text) := by
    have hequals : text.head? ≠ some '=' := fun hhead ↦ (h.head '=' hhead).2 rfl
    simp [negated?, hequals, h.trimmed.trim_eq]
  have hflat : Flat ['!'] := by decide
  have hvisible : Text.Trimmed ['!'] := ⟨by simp [Text.isBlank], by simp [Text.isBlank]⟩
  have hundivided : Undivided ('!' :: text) :=
    ⟨hvisible.append h.trimmed (by simp) h.ne_nil [], List.cons_ne_nil _ _, fun mark hmark ↦
      operands?_eq_none (parts_append_left (hflat mark hmark) (h.whole mark hmark))⟩
  rw [hundivided.compile_not hnot, h.compile_getD_group?]

/-- Two operands with an operator between them are left whole by the connectives. -/
theorem undivided_join (hleft : Operand left) (hright : Operand right) (hsymbol : Flat symbol) :
    Undivided (left ++ (spaced symbol ++ right)) := by
  refine ⟨hleft.trimmed.append hright.trimmed hleft.ne_nil hright.ne_nil _,
    List.append_ne_nil_of_left_ne_nil hleft.ne_nil _, fun mark hmark ↦ operands?_eq_none ?_⟩
  exact parts_join (isMark_of_mem hmark).flat (List.cons_ne_nil _ _)
    (hsymbol.spaced mark hmark) hleft.balanced.total (hleft.whole mark hmark)
    (hright.whole mark hmark)

end Operand

/-! ### Operators -/

/-- What is found for an element and for none before it is found first. -/
theorem findSome?_of_takeWhile {α β : Type} [DecidableEq α] {f : α → Option β} {all : List α}
    {a : α} {b : β} (hmem : a ∈ all) (ha : f a = some b)
    (hearlier : ∀ earlier ∈ all.takeWhile (· ≠ a), f earlier = none) :
    all.findSome? f = some b := by
  induction all with
  | nil => exact absurd hmem List.not_mem_nil
  | cons first rest ih =>
      by_cases hfirst : first = a
      · rw [hfirst, List.findSome?_cons, ha]
      · have hrest : a ∈ rest := (List.mem_cons.mp hmem).resolve_left (Ne.symm hfirst)
        rw [List.takeWhile_cons_of_pos (by simpa using hfirst), List.forall_mem_cons] at hearlier
        rw [List.findSome?_cons, hearlier.1]
        exact ih hrest hearlier.2

/-- A mark without blanks stands between two operands only if it stands in the operator. -/
theorem infix_join {mark : List Char} (hmark : mark ≠ []) (hblank : ' ' ∉ mark) :
    mark <:+: left ++ (spaced symbol ++ right) ↔
      mark <:+: left ∨ mark <:+: symbol ∨ mark <:+: right := by
  rw [spaced, List.cons_append, List.append_assoc, Text.infix_append_cons hmark hblank,
    List.cons_append, Text.infix_append_cons hmark hblank, List.nil_append]

theorem cut?_join (hne : symbol ≠ []) (hblank : ' ' ∉ symbol)
    (hown : ¬ symbol <:+: left) :
    Text.cut? symbol (left ++ (spaced symbol ++ right)) = some (left ++ [' '], ' ' :: right) := by
  rw [spaced, List.cons_append, List.append_assoc]
  exact Text.cut?_append hne hblank hown _

theorem not_blank_mem_symbol (op : Comparison) : ' ' ∉ op.symbol := by
  cases op <;> decide

/-- No comparison is written in one that is searched for later. -/
theorem not_infix_symbol (op : Comparison) :
    ∀ earlier ∈ Comparison.all.takeWhile (· ≠ op), ¬ earlier.symbol <:+: op.symbol := by
  cases op <;> decide

theorem comparison?_join {op : Comparison}
    (hearlier : ∀ earlier ∈ Comparison.all.takeWhile (· ≠ op),
      ¬ earlier.symbol <:+: left ∧ ¬ earlier.symbol <:+: right)
    (hown : ¬ op.symbol <:+: left) :
    comparison? (left ++ (spaced op.symbol ++ right)) =
      some (op, left ++ [' '], ' ' :: right) := by
  refine findSome?_of_takeWhile (mem_all_comparison op) ?_ fun earlier hmem ↦ ?_
  · rw [cut?_join op.symbol_ne_nil (not_blank_mem_symbol op) hown, Option.map_some]
  · obtain ⟨hleft, hright⟩ := hearlier earlier hmem
    have hnone : ¬ earlier.symbol <:+: left ++ (spaced op.symbol ++ right) := by
      rw [infix_join earlier.symbol_ne_nil (not_blank_mem_symbol earlier)]
      simp only [hleft, hright, not_infix_symbol op earlier hmem, or_self, not_false_eq_true]
    rw [Text.cut?_eq_none.mpr hnone, Option.map_none]

theorem not_blank_mem_sign (op : Operation) : ' ' ∉ [op.sign] := by
  cases op <;> decide

theorem sign_ne (op : Operation) :
    ∀ earlier ∈ Operation.all.takeWhile (· ≠ op), earlier.sign ≠ op.sign := by
  cases op <;> decide

theorem operation?_join {op : Operation} (hne : left ≠ [])
    (hearlier : ∀ earlier ∈ Operation.all.takeWhile (· ≠ op),
      earlier.sign ∉ left ∧ earlier.sign ∉ right)
    (hown : op.sign ∉ left) :
    operation? (left ++ (spaced [op.sign] ++ right)) =
      some (op, left ++ [' '], ' ' :: right) := by
  have hhead : (left ++ (spaced [op.sign] ++ right)).head? ≠ some op.sign := by
    rw [List.head?_append_of_ne_nil _ hne]
    exact fun hhead ↦ hown (List.mem_of_mem_head? hhead)
  refine findSome?_of_takeWhile (mem_all_operation op) ?_ fun earlier hmem ↦ ?_
  · rw [if_neg hhead, cut?_join (List.cons_ne_nil _ _) (not_blank_mem_sign op)
      (by rwa [List.singleton_infix_iff]), Option.map_some]
  · obtain ⟨hleft, hright⟩ := hearlier earlier hmem
    have hnone : ¬ [earlier.sign] <:+: left ++ (spaced [op.sign] ++ right) := by
      rw [infix_join (List.cons_ne_nil _ _) (not_blank_mem_sign earlier)]
      simp only [List.singleton_infix_iff, List.mem_singleton, hleft, hright,
        sign_ne op earlier hmem, or_self, not_false_eq_true]
    rw [Text.cut?_eq_none.mpr hnone, Option.map_none]
    exact ite_self _

/-- No comparison is written with a sign. -/
theorem not_infix_sign (c : Comparison) (op : Operation) : ¬ c.symbol <:+: [op.sign] := by
  cases c <;> cases op <;> decide

namespace Operand

theorem compile_compare (hleft : Operand left) (hright : Operand right) {op : Comparison}
    (hearlier : ∀ earlier ∈ Comparison.all.takeWhile (· ≠ op),
      ¬ earlier.symbol <:+: left ∧ ¬ earlier.symbol <:+: right)
    (hown : ¬ op.symbol <:+: left) :
    compile (left ++ (spaced op.symbol ++ right)) =
      .compare op (compile left) (compile right) := by
  have hcompare := (hleft.undivided_join hright (flat_symbol op)).compile_compare
    (hleft.negated?_eq_none _) (hleft.apart _ (List.cons_ne_nil _ _))
    (comparison?_join hearlier hown)
  rw [hcompare, compile_append_right Text.allBlank_space]
  exact congrArg _ (compile_append_left Text.allBlank_space right)

theorem compile_arith (hleft : Operand left) (hright : Operand right) {op : Operation}
    (hcompare : ∀ c : Comparison, ¬ c.symbol <:+: left ∧ ¬ c.symbol <:+: right)
    (hearlier : ∀ earlier ∈ Operation.all.takeWhile (· ≠ op),
      earlier.sign ∉ left ∧ earlier.sign ∉ right)
    (hown : op.sign ∉ left) :
    compile (left ++ (spaced [op.sign] ++ right)) =
      .arith op (compile left) (compile right) := by
  have hnone : comparison? (left ++ (spaced [op.sign] ++ right)) = none := by
    refine comparison?_eq_none.mpr fun c ↦ ?_
    obtain ⟨hnotLeft, hnotRight⟩ := hcompare c
    rw [infix_join c.symbol_ne_nil (not_blank_mem_symbol c)]
    simp only [hnotLeft, hnotRight, not_infix_sign c op, or_self, not_false_eq_true]
  have harith := (hleft.undivided_join hright (flat_sign op)).compile_arith
    (hleft.negated?_eq_none _) (hleft.apart _ (List.cons_ne_nil _ _)) hnone
    (operation?_join hleft.ne_nil hearlier hown)
  rw [harith, compile_append_right Text.allBlank_space]
  exact congrArg _ (compile_append_left Text.allBlank_space right)

end Operand

/-- A call is read back if no operator stands in the argument. -/
theorem compile_call (f : Measure) (h : Balanced text)
    (hcompare : ∀ op : Comparison, ¬ op.symbol <:+: text)
    (harith : ∀ op : Operation, op.sign ∉ text) :
    compile (f.name ++ '(' :: (text ++ [')'])) = .measure f (compile text) := by
  have hnot : negated? (f.name ++ '(' :: (text ++ [')'])) = none := by
    cases f <;> rfl
  have hgroup : group? (f.name ++ '(' :: (text ++ [')'])) = none := by
    cases f <;> rfl
  have hnumber : number? (f.name ++ '(' :: (text ++ [')'])) = none := by
    refine number?_eq_none ?_
    cases f <;> simp [Measure.name]
  have hkeyword : keyword? (f.name ++ '(' :: (text ++ [')'])) = none :=
    keyword?_eq_none (List.mem_append_right _ List.mem_cons_self) (by decide)
  have hcomparison : comparison? (f.name ++ '(' :: (text ++ [')'])) = none := by
    refine comparison?_eq_none.mpr fun op ↦ ?_
    obtain ⟨hopen, hclose, hname⟩ :
        '(' ∉ op.symbol ∧ ')' ∉ op.symbol ∧ ¬ op.symbol <:+: f.name := by
      cases op <;> cases f <;> decide
    rw [Text.infix_append_cons op.symbol_ne_nil hopen,
      Text.infix_append_cons op.symbol_ne_nil hclose, List.infix_nil]
    simp only [hname, hcompare op, op.symbol_ne_nil, or_self, not_false_eq_true]
  have hoperation : operation? (f.name ++ '(' :: (text ++ [')'])) = none := by
    refine operation?_eq_none.mpr fun op hmem ↦ absurd hmem ?_
    obtain ⟨hopen, hclose, hname⟩ : op.sign ≠ '(' ∧ op.sign ≠ ')' ∧ op.sign ∉ f.name := by
      cases op <;> cases f <;> decide
    simp [hopen, hclose, hname, harith op]
  rw [(Operand.of_call f h).undivided.compile_leaf hnot hgroup hcomparison hoperation, leaf,
    hnumber, hkeyword, call?_call]

section

variable {texts : List (List Char)}

theorem operands?_spaced {mark : Char} (hmark : mark ∈ connectives) (hlength : 2 ≤ texts.length)
    (h : ∀ text ∈ texts, Operand text) :
    operands? mark ((spaced [mark, mark]).intercalate texts) = some texts :=
  operands?_intercalate (isMark_of_mem hmark) hlength
    (fun text htext ↦ ⟨(h text htext).balanced.total, (h text htext).trimmed,
      (h text htext).whole mark hmark⟩) fun hnil ↦ (h [] hnil).ne_nil rfl

/-- Operands joined by `||` are read back. -/
theorem compile_any_intercalate (hlength : 2 ≤ texts.length) (h : ∀ text ∈ texts, Operand text) :
    compile ((spaced ['|', '|']).intercalate texts) = .any (texts.map compile) :=
  compile_any (operands?_spaced (by decide) hlength h)

/-- Operands joined by `&&` are read back. -/
theorem compile_all_intercalate (hlength : 2 ≤ texts.length) (h : ∀ text ∈ texts, Operand text) :
    compile ((spaced ['&', '&']).intercalate texts) = .all (texts.map compile) := by
  have hor : operands? '|' ((spaced ['&', '&']).intercalate texts) = none :=
    operands?_eq_none (parts_intercalate isMark_or.flat (List.cons_ne_nil _ _) (by decide)
      fun text htext ↦ ⟨(h text htext).balanced.total, (h text htext).whole '|' (by decide)⟩)
  exact compile_all hor (operands?_spaced (by decide) hlength h)

end

end Chronicle.Condition

import Chronicle.Proofs.Condition.Operators

/-!
# Printing conditions

A condition is printed with every operand in parentheses that is not a leaf or a call. Connectives
respect the parentheses when a text is read again; comparisons and signs do not, so `Printable`
asks that none is found too early. Then the condition is read back: `compile_print`.
-/

namespace Chronicle.Condition

/-! ### Texts of conditions -/

/-- The text of a literal: null, a boolean, a natural number, or a quotation. -/
def literalText : Value → List Char
  | .null => "null".toList
  | .bool b => if b then "true".toList else "false".toList
  | .int n => Nat.toDigits 10 n.toNat
  | .str s => '"' :: (s.toList ++ ['"'])
  | _ => []

/-- The text of a condition as an operand, where its own text is given. -/
def enclose (c : Condition) (text : List Char) : List Char :=
  match c with
  | .empty | .literal _ | .name _ | .measure .. => text
  | .not _ | .any _ | .all _ | .compare .. | .arith .. => '(' :: (text ++ [')'])

mutual
/-- The text of a condition. -/
def print : Condition → List Char
  | .empty => []
  | .literal v => literalText v
  | .name n => n.text.toList
  | .not c => '!' :: c.enclose c.print
  | .any parts => (spaced ['|', '|']).intercalate (printOperands parts)
  | .all parts => (spaced ['&', '&']).intercalate (printOperands parts)
  | .compare op left right =>
    left.enclose left.print ++ (spaced op.symbol ++ right.enclose right.print)
  | .arith op left right =>
    left.enclose left.print ++ (spaced [op.sign] ++ right.enclose right.print)
  | .measure f argument => f.name ++ '(' :: (argument.print ++ [')'])

/-- The texts of operands. -/
def printOperands : List Condition → List (List Char)
  | [] => []
  | c :: rest => c.enclose c.print :: printOperands rest
end

/-- The text of a condition as an operand. -/
def operandText (c : Condition) : List Char := c.enclose c.print

theorem printOperands_eq (parts : List Condition) :
    printOperands parts = parts.map operandText := by
  induction parts with
  | nil => rfl
  | cons c rest ih => rw [printOperands, ih, List.map_cons, operandText]

/-- The leaves whose texts are read back. -/
inductive Leaf : Condition → Prop where
  | null : Leaf (.literal .null)
  | bool (b : Bool) : Leaf (.literal (.bool b))
  | int {n : Nat} (h : n < 2 ^ 63) : Leaf (.literal (.int n))
  | str {s : String} (h : ∀ c ∈ s.toList, isPlain c = true) : Leaf (.literal (.str s))
  | name {cs : List Char} (h : IsWord cs) : Leaf (.name (nameOf cs))

/-- The conditions whose texts are read back. No comparison that is searched for earlier, and no
sign where it is searched for, stands in the operands. -/
inductive Printable : Condition → Prop where
  | leaf {c : Condition} (h : Leaf c) : Printable c
  | not {c : Condition} (h : Printable c) : Printable (.not c)
  | any {parts : List Condition} (hlength : 2 ≤ parts.length) (h : ∀ c ∈ parts, Printable c) :
      Printable (.any parts)
  | all {parts : List Condition} (hlength : 2 ≤ parts.length) (h : ∀ c ∈ parts, Printable c) :
      Printable (.all parts)
  | compare {op : Comparison} {left right : Condition} (hleft : Printable left)
      (hright : Printable right)
      (hearlier : ∀ earlier ∈ Comparison.all.takeWhile (· ≠ op),
        ¬ earlier.symbol <:+: left.operandText ∧ ¬ earlier.symbol <:+: right.operandText)
      (hown : ¬ op.symbol <:+: left.operandText) : Printable (.compare op left right)
  | arith {op : Operation} {left right : Condition} (hleft : Printable left)
      (hright : Printable right)
      (hcompare : ∀ c : Comparison,
        ¬ c.symbol <:+: left.operandText ∧ ¬ c.symbol <:+: right.operandText)
      (hearlier : ∀ earlier ∈ Operation.all.takeWhile (· ≠ op),
        earlier.sign ∉ left.operandText ∧ earlier.sign ∉ right.operandText)
      (hown : op.sign ∉ left.operandText) : Printable (.arith op left right)
  | measure (f : Measure) {argument : Condition} (h : Printable argument)
      (hcompare : ∀ op : Comparison, ¬ op.symbol <:+: argument.print)
      (harith : ∀ op : Operation, op.sign ∉ argument.print) : Printable (.measure f argument)

/-! ### Reading back -/

variable {text : List Char} {c : Condition}

theorem balanced_enclose (h : Balanced text) : Balanced (c.enclose text) := by
  cases c with
  | empty | literal | name | measure => exact h
  | not | any | all | compare | arith => exact h.group

theorem balanced_join {sep : List Char} {parts : List Condition} (hsep : Balanced sep)
    (h : ∀ c ∈ parts, Balanced c.print) : Balanced (sep.intercalate (printOperands parts)) := by
  refine balanced_intercalate hsep fun text htext ↦ ?_
  rw [printOperands_eq] at htext
  obtain ⟨c, hc, rfl⟩ := List.mem_map.mp htext
  exact balanced_enclose (h c hc)

namespace Leaf

theorem atom (h : Leaf c) : Atom c.print := by
  cases h with
  | null => exact .of_all (by decide) (by decide)
  | bool b =>
      cases b with
      | false => exact .of_all (by decide) (by decide)
      | true => exact .of_all (by decide) (by decide)
  | int h => exact atom_toDigits _
  | str h => exact atom_quote h
  | name h =>
      rw [print, nameOf, String.toList_ofList]
      exact h.atom

theorem compile_eq (h : Leaf c) : compile c.print = c := by
  cases h with
  | null => exact compile_null
  | bool b =>
      cases b with
      | false => exact compile_false
      | true => exact compile_true
  | int h => exact compile_toDigits h
  | str h => rw [print, literalText, compile_quote h, String.ofList_toList]
  | name h =>
      rw [print, nameOf, String.toList_ofList]
      exact compile_word h

theorem operandText_eq (h : Leaf c) : c.operandText = c.print := by
  cases h <;> rfl

end Leaf

namespace Printable

/-- The parentheses in the text of a condition are even. -/
theorem balanced (h : Printable c) : Balanced c.print := by
  induction h with
  | leaf h => exact h.atom.balanced
  | not h ih =>
      have hnot : Flat ['!'] := by decide
      exact hnot.balanced.append (balanced_enclose ih)
  | any hlength h ih => exact balanced_join (by decide) ih
  | all hlength h ih => exact balanced_join (by decide) ih
  | @compare op left right hleft hright hearlier hown ihleft ihright =>
      exact (balanced_enclose ihleft).append
        ((flat_symbol op).spaced.balanced.append (balanced_enclose ihright))
  | @arith op left right hleft hright hcompare hearlier hown ihleft ihright =>
      exact (balanced_enclose ihleft).append
        ((flat_sign op).spaced.balanced.append (balanced_enclose ihright))
  | measure f h hcompare harith ih => exact (Operand.of_call f ih).balanced

theorem operand (h : Printable c) : Operand c.operandText := by
  have hbalanced := h.balanced
  cases h with
  | leaf h =>
      rw [h.operandText_eq]
      exact .of_atom h.atom
  | measure f h hcompare harith => exact .of_call f h.balanced
  | not | any | all | compare | arith => exact .of_group hbalanced

theorem compile_operandText (h : Printable c) (hprint : compile c.print = c) :
    compile c.operandText = c := by
  have hgroup := (compile_group h.balanced).trans hprint
  cases c with
  | empty | literal | name | measure => exact hprint
  | not | any | all | compare | arith => exact hgroup

section

variable {parts : List Condition}

theorem operands (h : ∀ c ∈ parts, Printable c) : ∀ text ∈ printOperands parts, Operand text := by
  intro text htext
  rw [printOperands_eq] at htext
  obtain ⟨c, hc, rfl⟩ := List.mem_map.mp htext
  exact (h c hc).operand

theorem compile_operands (h : ∀ c ∈ parts, Printable c)
    (hprint : ∀ c ∈ parts, compile c.print = c) :
    (printOperands parts).map compile = parts := by
  rw [printOperands_eq, List.map_map]
  have hid : ∀ c ∈ parts, (compile ∘ operandText) c = c := fun c hc ↦
    (h c hc).compile_operandText (hprint c hc)
  rw [List.map_congr_left hid, List.map_id']

end

end Printable

/-- Compiling the text of a condition gives the condition back. -/
theorem compile_print (h : Printable c) : compile c.print = c := by
  induction h with
  | leaf h => exact h.compile_eq
  | not h ih => exact h.operand.compile_not.trans (congrArg _ (h.compile_operandText ih))
  | @any parts hlength h ih =>
      have htexts : 2 ≤ (printOperands parts).length := by rwa [printOperands_eq, List.length_map]
      rw [print, compile_any_intercalate htexts (Printable.operands h),
        Printable.compile_operands h ih]
  | @all parts hlength h ih =>
      have htexts : 2 ≤ (printOperands parts).length := by rwa [printOperands_eq, List.length_map]
      rw [print, compile_all_intercalate htexts (Printable.operands h),
        Printable.compile_operands h ih]
  | compare hleft hright hearlier hown ihleft ihright =>
      rw [print, ← operandText, ← operandText,
        hleft.operand.compile_compare hright.operand hearlier hown,
        hleft.compile_operandText ihleft, hright.compile_operandText ihright]
  | arith hleft hright hcompare hearlier hown ihleft ihright =>
      rw [print, ← operandText, ← operandText,
        hleft.operand.compile_arith hright.operand hcompare hearlier hown,
        hleft.compile_operandText ihleft, hright.compile_operandText ihright]
  | measure f h hcompare harith ih => rw [print, compile_call f h.balanced hcompare harith, ih]

/-- A condition with every kind of node in it. -/
theorem compile_print_nested :
    let c : Condition := .all [
      .any [.compare .gt (.measure .len (.name (nameOf "items".toList))) (.literal (.int 3)),
        .not (.arith .div (.name (nameOf "curr.hp".toList)) (.literal (.int 100)))],
      .compare .ne (.literal (.str "boss_1")) (.literal .null), .literal (.bool true)]
    c.print = "((len(items) > 3) || (!(curr.hp / 100))) && (\"boss_1\" != null) && true".toList ∧
      compile c.print = c := by
  intro c
  refine ⟨by decide +kernel, compile_print ?_⟩
  have hitems : Printable (.name (nameOf "items".toList)) := .leaf (.name (by decide))
  have hhp : Printable (.name (nameOf "curr.hp".toList)) := .leaf (.name (by decide))
  have hsize : Printable (.measure .len (.name (nameOf "items".toList))) := by
    refine .measure .len hitems (fun op ↦ ?_) fun op ↦ ?_
    · cases op <;> decide +kernel
    · cases op <;> decide +kernel
  have hlarge : Printable (.compare .gt (.measure .len (.name (nameOf "items".toList)))
      (.literal (.int 3))) :=
    .compare hsize (.leaf (@Leaf.int 3 (by decide))) (by decide +kernel) (by decide +kernel)
  have hratio : Printable (.arith .div (.name (nameOf "curr.hp".toList))
      (.literal (.int 100))) := by
    refine .arith hhp (.leaf (@Leaf.int 100 (by decide))) (fun op ↦ ?_) (by decide +kernel)
      (by decide +kernel)
    cases op <;> decide +kernel
  have hboss : Printable (.compare .ne (.literal (.str "boss_1")) (.literal .null)) :=
    .compare (.leaf (.str (List.all_eq_true.mp (by decide)))) (.leaf .null) (by decide +kernel)
      (by decide +kernel)
  have hany := Printable.any (by simp) (List.forall_mem_cons.mpr ⟨hlarge,
    List.forall_mem_singleton.mpr hratio.not⟩)
  exact .all (by simp) (List.forall_mem_cons.mpr ⟨hany, List.forall_mem_cons.mpr ⟨hboss,
    List.forall_mem_singleton.mpr (.leaf (.bool true))⟩⟩)

end Chronicle.Condition

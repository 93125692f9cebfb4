import Chronicle.Json.Printer
import Chronicle.Condition.Evaluation
import Chronicle.Proofs.Condition.Arithmetic
import Chronicle.Proofs.Condition.Operators
import Chronicle.Proofs.Results

/-!
# Integers in conditions

An integer in decimal is the condition of that integer, and two integers with a sign between them
are an operation on them as long as the text is cut at that sign: `evaluate_written`. Signs are
searched for in the order of their list, so the sign of a negative integer can come first. One that
leads the text is passed over, but with it every further sign of its kind.
-/

namespace Chronicle

namespace Condition

open Value (intText)

variable {a b n : Int} {c : Char} {m : Nat} {cs text : List Char}

theorem sign_ne_blank (op : Operation) : op.sign ≠ ' ' := by
  cases op <;> decide

/-! ### The text of an integer -/

theorem intText_of_nonneg (h : 0 ≤ n) : intText n = Nat.toDigits 10 n.natAbs :=
  if_neg (Int.not_lt.mpr h)

theorem intText_of_neg (h : n < 0) : intText n = '-' :: Nat.toDigits 10 n.natAbs := if_pos h

/-- An integer is written with digits and perhaps a leading sign. -/
theorem mem_intText (h : c ∈ intText n) : c.isDigit = true ∨ (c = '-' ∧ n < 0) := by
  have hdigits : c ∈ Nat.toDigits 10 n.natAbs → c.isDigit = true :=
    Nat.isDigit_of_mem_toDigits (by decide) (by decide)
  by_cases hn : n < 0
  · rw [intText_of_neg hn] at h
    rcases List.mem_cons.mp h with rfl | h
    · exact .inr ⟨rfl, hn⟩
    · exact .inl (hdigits h)
  · rw [intText_of_nonneg (Int.not_lt.mp hn)] at h
    exact .inl (hdigits h)

theorem not_infix_intText (op : Comparison) (n : Int) : ¬ op.symbol <:+: intText n := by
  have hsymbol : (op.symbol.all fun c ↦ !c.isDigit && c != '-') = true := by
    cases op <;> decide
  obtain ⟨c, hc⟩ := List.exists_mem_of_ne_nil op.symbol op.symbol_ne_nil
  have hother := List.all_eq_true.mp hsymbol c hc
  intro hwithin
  rcases mem_intText (hwithin.subset hc) with hdigit | ⟨rfl, -⟩
  · rw [hdigit] at hother
    cases hother
  · exact absurd hother (by decide)

/-- The only sign in an integer is the leading one of a negative integer. -/
theorem sign_mem_intText {op : Operation} (h : op.sign ∈ intText n) : op = .sub ∧ n < 0 := by
  have hsign : op.sign.isDigit = false ∧ (op.sign = '-' → op = .sub) := by
    cases op <;> decide
  rcases mem_intText h with hdigit | ⟨hminus, hn⟩
  · rw [hsign.1] at hdigit
    cases hdigit
  · exact ⟨hsign.2 hminus, hn⟩

/-- A plain text with a sign in front stands next to an operator as it is. -/
theorem Operand.of_signed (h : Atom text) : Operand ('-' :: text) := by
  have hflat : Flat ['-'] := by decide
  have hvisible : Text.Trimmed ['-'] := ⟨by simp [Text.isBlank], by simp [Text.isBlank]⟩
  refine ⟨hflat.balanced.append h.balanced, ?_, List.cons_ne_nil _ _, fun mark hmark ↦ ?_, ?_, ?_⟩
  · exact hvisible.append h.trimmed (by simp) h.ne_nil []
  · exact parts_append_left (hflat mark hmark) (h.parts_eq hmark)
  · simp
  · exact fun more _ ↦ group?_eq_none (by simp)

theorem operand_intText (n : Int) : Operand (intText n) := by
  by_cases hn : n < 0
  · rw [intText_of_neg hn]
    exact .of_signed (atom_toDigits _)
  · rw [intText_of_nonneg (Int.not_lt.mp hn)]
    exact .of_atom (atom_toDigits _)

/-- An integer is read back. -/
theorem compile_intText (h : Numeric.Fits n) : compile (intText n) = .literal (.int n) := by
  obtain ⟨hleast, hgreatest⟩ : -0x8000000000000000 ≤ n ∧ n ≤ 0x7FFFFFFFFFFFFFFF := h
  by_cases hn : n < 0
  · have hwhole : compile (intText n) = leaf compile (intText n) := by
      have hnot := (operand_intText n).negated?_eq_none []
      have hgroup : group? (intText n) = none := by
        rw [intText_of_neg hn]
        exact group?_eq_none (by simp)
      rw [List.append_nil] at hnot
      refine (operand_intText n).undivided.compile_leaf hnot hgroup
        (comparison?_eq_none.mpr fun op ↦ not_infix_intText op n)
        (operation?_eq_none.mpr fun op hmem ↦ ?_)
      rw [(sign_mem_intText hmem).1, intText_of_neg hn]
      rfl
    have hnumber : number? (intText n) = some (.int n) := by
      rw [intText_of_neg hn, number?_negative (by omega)]
      congr 2
      omega
    rw [hwhole, leaf, hnumber]
  · rw [intText_of_nonneg (Int.not_lt.mp hn), compile_toDigits (by omega)]
    congr 2
    omega

/-! ### Cutting at a sign -/

/-- A text is cut at a sign that does not lead it if those searched for earlier are not found. -/
theorem operation?_eq_some {op : Operation} {parts : List Char × List Char}
    (hhead : cs.head? ≠ some op.sign)
    (hearlier : ∀ earlier ∈ Operation.all.takeWhile (· ≠ op),
      earlier.sign ∈ cs → cs.head? = some earlier.sign)
    (hcut : Text.cut? [op.sign] cs = some parts) : operation? cs = some (op, parts) := by
  refine findSome?_of_takeWhile (mem_all_operation op) ?_ fun earlier hmem ↦ ?_
  · rw [if_neg hhead, hcut, Option.map_some]
  · split
    · rfl
    · next hne =>
        have hnone : ¬ [earlier.sign] <:+: cs := by
          rw [List.singleton_infix_iff]
          exact mt (hearlier earlier hmem) hne
        rw [Text.cut?_eq_none.mpr hnone, Option.map_none]

theorem head?_intText_append (n : Int) (more : List Char) :
    (intText n ++ more).head? = (intText n).head? :=
  List.head?_append_of_ne_nil _ (operand_intText n).ne_nil

/-- A sign behind an integer is where the text is cut, unless that kind of sign leads the text or
another that is searched for earlier follows. One that leads the text does not count. -/
theorem operation?_intText {op : Operation} {right : List Char} (hsub : op = .sub → 0 ≤ a)
    (hearlier : ∀ earlier ∈ Operation.all.takeWhile (· ≠ op),
      earlier.sign ∈ right → earlier = .sub ∧ a < 0) :
    operation? (intText a ++ ' ' :: op.sign :: right) = some (op, intText a ++ [' '], right) := by
  have hown : op.sign ∉ intText a := by
    intro hmem
    obtain ⟨hop, hneg⟩ := sign_mem_intText hmem
    have hpos := hsub hop
    omega
  refine operation?_eq_some ?_ (fun earlier hmem hsign ↦ ?_) ?_
  · rw [head?_intText_append]
    exact fun hhead ↦ hown (List.mem_of_mem_head? hhead)
  · have hleads : earlier = .sub ∧ a < 0 := by
      rcases List.mem_append.mp hsign with hsign | hsign
      · exact sign_mem_intText hsign
      · rcases List.mem_cons.mp hsign with hsign | hsign
        · exact absurd hsign (sign_ne_blank earlier)
        · rcases List.mem_cons.mp hsign with hsign | hsign
          · exact absurd hsign (sign_ne op earlier hmem)
          · exact hearlier earlier hmem hsign
    rw [head?_intText_append, hleads.1, intText_of_neg hleads.2]
    rfl
  · exact Text.cut?_append (List.cons_ne_nil _ _) (not_blank_mem_sign op)
      (by rwa [List.singleton_infix_iff]) right

/-! ### An operation on two integers -/

/-- Two integers with a sign between them. -/
def written (a : Int) (op : Operation) (b : Int) : List Char :=
  intText a ++ ' ' :: op.sign :: ' ' :: intText b

/-- Two integers with a sign between them are an operation if they are cut at a sign. -/
theorem compile_written_of_operation? {op cut : Operation} {left right : List Char}
    (h : operation? (written a op b) = some (cut, left, right)) :
    compile (written a op b) = .arith cut (compile left) (compile right) := by
  have hnone : comparison? (written a op b) = none := by
    refine comparison?_eq_none.mpr fun c ↦ ?_
    show ¬ c.symbol <:+: intText a ++ (spaced [op.sign] ++ intText b)
    rw [infix_join c.symbol_ne_nil (not_blank_mem_symbol c)]
    simp only [not_infix_intText, not_infix_sign, or_self, not_false_eq_true]
  have hundivided : Undivided (written a op b) :=
    (operand_intText a).undivided_join (operand_intText b) (flat_sign op)
  exact hundivided.compile_arith ((operand_intText a).negated?_eq_none _)
    ((operand_intText a).apart _ (List.cons_ne_nil _ _)) hnone h

/-- Only the sign in the middle and those of negative integers stand in the text. -/
theorem sign_mem_written {op sign : Operation} (h : sign.sign ∈ written a op b) :
    sign = op ∨ sign = .sub ∧ (a < 0 ∨ b < 0) := by
  have hinj : sign.sign = op.sign → sign = op := by
    cases sign <;> cases op <;> decide
  simp only [written, List.mem_append, List.mem_cons, sign_ne_blank, false_or] at h
  rcases h with h | h | h
  · exact .inr ((sign_mem_intText h).imp_right .inl)
  · exact .inl (hinj h)
  · exact .inr ((sign_mem_intText h).imp_right .inr)

/-- The text is cut at the sign between the integers where none of them brings a sign that is found
before. -/
theorem compile_written {op : Operation} (ha : Numeric.Fits a) (hb : Numeric.Fits b)
    (hsub : op = .sub → 0 ≤ a)
    (hearlier : .sub ∈ Operation.all.takeWhile (· ≠ op) → b < 0 → a < 0) :
    compile (written a op b) = .arith op (.literal (.int a)) (.literal (.int b)) := by
  have hcut : operation? (written a op b) = some (op, intText a ++ [' '], ' ' :: intText b) := by
    refine operation?_intText hsub fun earlier hmem hsign ↦ ?_
    obtain ⟨rfl, hneg⟩ := sign_mem_intText ((List.mem_cons.mp hsign).resolve_left (sign_ne_blank _))
    exact ⟨rfl, hearlier hmem hneg⟩
  rw [compile_written_of_operation? hcut, compile_append_right Text.allBlank_space,
    compile_intText ha]
  exact congrArg _ ((compile_append_left Text.allBlank_space _).trans (compile_intText hb))

/-- A product whose second factor is missing. -/
theorem compile_mul_empty (ha : Numeric.Fits a) :
    compile (intText a ++ [' ', '*']) = .arith .mul (.literal (.int a)) .empty := by
  have hleft := operand_intText a
  have hstar : Text.Trimmed ['*'] := ⟨by simp [Text.isBlank], by simp [Text.isBlank]⟩
  have hundivided : Undivided (intText a ++ [' ', '*']) := by
    refine ⟨hleft.trimmed.append hstar hleft.ne_nil (by simp) [' '],
      List.append_ne_nil_of_left_ne_nil hleft.ne_nil _, fun mark hmark ↦ operands?_eq_none ?_⟩
    have hspace : Flat [' '] := by decide
    have hwhole : parts mark 0 ['*'] = [['*']] := by
      rcases List.mem_pair.mp hmark with rfl | rfl <;> decide
    exact parts_join (isMark_of_mem hmark).flat (List.cons_ne_nil _ _) (hspace mark hmark)
      hleft.balanced.total (hleft.whole mark hmark) hwhole
  have hnone : comparison? (intText a ++ [' ', '*']) = none := by
    refine comparison?_eq_none.mpr fun c ↦ ?_
    rw [Text.infix_append_cons c.symbol_ne_nil (not_blank_mem_symbol c)]
    exact not_or.mpr ⟨not_infix_intText c a, not_infix_sign c .mul⟩
  have hcut : operation? (intText a ++ [' ', Operation.mul.sign]) =
      some (.mul, intText a ++ [' '], []) :=
    operation?_intText (fun h ↦ absurd h (by decide)) fun _ _ hsign ↦
      absurd hsign List.not_mem_nil
  rw [hundivided.compile_arith (hleft.negated?_eq_none _) (hleft.apart _ (List.cons_ne_nil _ _))
    hnone hcut, compile_append_right Text.allBlank_space, compile_intText ha]
  rfl

/-- The sign of a negative second factor is found before that of the product. -/
theorem compile_mul_negative (ha : Numeric.Fits a) (hpos : 0 ≤ a) (hneg : b < 0) :
    compile (written a .mul b) =
      .arith .sub (.arith .mul (.literal (.int a)) .empty)
        (compile (Nat.toDigits 10 b.natAbs)) := by
  have hcut : operation? (written a .mul b) =
      some (.sub, intText a ++ [' ', '*'] ++ [' '], Nat.toDigits 10 b.natAbs) := by
    have hminus : '-' ∉ intText a := by
      intro hmem
      have hneg := (@sign_mem_intText a .sub hmem).2
      omega
    refine operation?_eq_some ?_ (fun earlier hmem hsign ↦ ?_) ?_
    · rw [written, head?_intText_append]
      exact fun hhead ↦ hminus (List.mem_of_mem_head? hhead)
    · have hadd : earlier = .add := by
        rwa [show Operation.all.takeWhile (· ≠ .sub) = [.add] by decide, List.mem_singleton] at hmem
      rcases sign_mem_written hsign with rfl | ⟨rfl, -⟩
      · cases hadd
      · cases hadd
    · have hbefore : ¬ ['-'] <:+: intText a ++ [' ', '*'] := by
        rw [List.singleton_infix_iff]
        simp [hminus]
      have hcut := Text.cut?_append (c := ' ') (List.cons_ne_nil _ _) (by decide) hbefore
        (Nat.toDigits 10 b.natAbs)
      rw [List.append_assoc] at hcut
      rw [written, intText_of_neg hneg]
      exact hcut
  rw [compile_written_of_operation? hcut, compile_append_right Text.allBlank_space,
    compile_mul_empty ha]

theorem compile_digits (n : Nat) :
    compile (Nat.toDigits 10 n) =
      .literal (if (n : Int) < 2 ^ 63 then .int n
        else .ofFloat? (Decimal.toBinary64 false ⟨n, 0⟩)) := by
  rw [(atom_toDigits n).compile_eq, leaf, number?_digits]

/-- The least integer is taken from zero as a float, because it does not fit without its sign. -/
theorem apply_sub_least :
    Operation.sub.apply (.int 0) (.ofFloat? (Decimal.toBinary64 false ⟨2 ^ 63, 0⟩)) =
      .ok (.float (.ofInt Numeric.least)) := by
  decide +kernel

/-- A product without its second factor is zero, so what is left is the negative integer. Its
digits alone are a float if it is the least one. -/
theorem evaluate_mul_negative (ctx : Context) (ha : Numeric.Fits a) (hb : Numeric.Fits b)
    (hpos : 0 ≤ a) (hneg : b < 0) :
    (compile (written a .mul b)).evaluate ctx =
      .ok (if b = Numeric.least then .float (.ofInt b) else .int b) := by
  have hproduct : Operation.mul.apply (.int a) (.bool false) = .ok (.int 0) := by
    have hfactor : Numeric.of? (Operation.operand (.int a)) = some (.int a) := Numeric.of?_int ha
    rw [Operation.apply_numeric (by decide) hfactor rfl,
      Operation.applyNumeric_int (n := a * 0) rfl, Int.mul_zero]
    rfl
  rw [compile_mul_negative ha hpos hneg, compile_digits]
  show (Operation.mul.apply (.int a) (.bool false) >>= fun v ↦ Operation.sub.apply v _) = _
  rw [hproduct, ok_bind]
  by_cases hleast : b = Numeric.least
  · subst hleast
    exact apply_sub_least
  · have hlower : -0x8000000000000000 ≤ b ∧ b ≠ -0x8000000000000000 := ⟨hb.1, hleast⟩
    have hfits : Numeric.Fits b.natAbs := by
      show -0x8000000000000000 ≤ _ ∧ _ ≤ 0x7FFFFFFFFFFFFFFF
      omega
    have hvalue : Operation.sub.result? 0 b.natAbs = some b := by
      show some (0 - (b.natAbs : Int)) = some b
      congr 1
      omega
    rw [if_pos (by omega), if_neg hleast, Operation.apply_int (by decide) hfits hvalue]
    exact if_pos hb

/-- The result of an operation on two integers is exact, or else an overflow, where the text is cut
at the sign between them. It is not if a negative integer leads a difference, as that sign leads the
text. Nor is it if a negative integer ends a product of one that is not, as that sign is found
before the one of the product: what stands before it is zero. -/
theorem evaluate_written (ctx : Context) (ha : Numeric.Fits a) (hb : Numeric.Fits b) :
    (∀ op n, op.result? a b = some n → ¬ (op = .sub ∧ a < 0) → ¬ (op = .mul ∧ 0 ≤ a ∧ b < 0) →
      (compile (written a op b)).evaluate ctx =
        if Numeric.Fits n then .ok (.int n) else .error (.overflow op)) ∧
    (0 ≤ a → b < 0 →
      (compile (written a .mul b)).evaluate ctx =
        .ok (if b = Numeric.least then .float (.ofInt b) else .int b)) := by
  refine ⟨fun op n hresult hsub hmul ↦ ?_, evaluate_mul_negative ctx ha hb⟩
  have hop := Operation.ne_div_of_result? hresult
  have hcompile : compile (written a op b) = .arith op (.literal (.int a)) (.literal (.int b)) := by
    refine compile_written ha hb (fun hop ↦ ?_) fun hmem hneg ↦ ?_
    · by_contra hlt
      exact hsub ⟨hop, by omega⟩
    · have hcase : op = .mul := by
        cases op with
        | mul => rfl
        | div => exact absurd rfl hop
        | add | sub => exact absurd hmem (by decide)
      by_contra hlt
      exact hmul ⟨hcase, by omega, hneg⟩
  rw [hcompile]
  show op.apply (.int a) (.int b) = _
  rw [Operation.apply_int ha hb hresult]

/-- With signs in both integers, at the end of the range, and beside a sign of its own kind. -/
theorem evaluate_written_signed :
    let ctx : Context := ⟨.null, .null, [], [], none⟩
    (Numeric.Fits (-7) ∧ Numeric.Fits (-3) ∧ Numeric.Fits 5 ∧ Numeric.Fits (-1) ∧
      Numeric.Fits Numeric.least) ∧
    (compile (written (-7) .mul (-3))).evaluate ctx = .ok (.int 21) ∧
    (compile (written 5 .sub (-3))).evaluate ctx = .ok (.int 8) ∧
    (compile (written Numeric.least .mul (-1))).evaluate ctx = .error (.overflow .mul) ∧
    (compile (written 5 .mul (-3))).evaluate ctx = .ok (.int (-3)) := by
  intro ctx
  have hfits : Numeric.Fits (-7) ∧ Numeric.Fits (-3) ∧ Numeric.Fits 5 ∧ Numeric.Fits (-1) ∧
      Numeric.Fits Numeric.least := by decide
  obtain ⟨hseven, hthree, hfive, hone, hleast⟩ := hfits
  refine ⟨⟨hseven, hthree, hfive, hone, hleast⟩, ?_, ?_, ?_, ?_⟩
  · exact (evaluate_written ctx hseven hthree).1 .mul 21 rfl (by decide) (by decide)
  · exact (evaluate_written ctx hfive hthree).1 .sub 8 rfl (by decide) (by decide)
  · exact (evaluate_written ctx hleast hone).1 .mul _ rfl (by decide) (by decide)
  · exact (evaluate_written ctx hfive hthree).2 (by decide) (by decide)

/-- The product of five and minus three is cut at the minus, and not minus fifteen. -/
theorem evaluate_written_cut :
    let ctx : Context := ⟨.null, .null, [], [], none⟩
    written 5 .mul (-3) = "5 * -3".toList ∧ Operation.mul.result? 5 (-3) = some (-15) ∧
    Numeric.Fits 5 ∧ Numeric.Fits (-3) ∧ Numeric.Fits (-15) ∧
    (compile (written 5 .mul (-3))).evaluate ctx ≠ .ok (.int (-15)) := by
  intro ctx
  have hfits : Numeric.Fits 5 ∧ Numeric.Fits (-3) := by decide
  refine ⟨by decide, rfl, hfits.1, hfits.2, by decide, ?_⟩
  rw [evaluate_mul_negative ctx hfits.1 hfits.2 (by decide) (by decide), if_neg (by decide)]
  exact fun h ↦ nomatch h

end Condition

end Chronicle

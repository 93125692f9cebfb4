import Chronicle.Proofs.Condition.Compilation
import Mathlib.Algebra.Group.Int.Defs
import Mathlib.Algebra.Group.Nat.Defs
import Mathlib.Data.List.Infix

/-!
# Texts without operators

Which steps of the compilation pass a text over can be read off its characters. All of them pass
over a text of plain characters and quotes, so it is a literal or a name: `Atom.compile_eq`.
-/

namespace Chronicle.Condition

/-- The characters that operators, groups, and quotations are written with. -/
def reserved : List Char :=
  ['(', ')', '!', '=', '<', '>', '+', '-', '*', '/', '|', '&', '"', '\'']

/-- A character that is neither blank nor reserved. Letters, digits, underscores, and points are
plain. -/
def isPlain (c : Char) : Bool := !Text.isBlank c && !reserved.contains c

variable {c : Char} {cs : List Char}

/-! ### Steps that pass over a text -/

theorem negated?_eq_none (h : cs.head? ≠ some '!') : negated? cs = none := by
  unfold negated?
  split
  · exact absurd rfl h
  · rfl

theorem group?_eq_none (h : cs.head? ≠ some '(') : group? cs = none := by
  unfold group?
  split
  · exact absurd rfl h
  · rfl

theorem mem_all_comparison (op : Comparison) : op ∈ Comparison.all := by
  cases op <;> decide

theorem mem_all_operation (op : Operation) : op ∈ Operation.all := by
  cases op <;> decide

theorem comparison?_eq_none : comparison? cs = none ↔ ∀ op : Comparison, ¬ op.symbol <:+: cs := by
  rw [comparison?, List.findSome?_eq_none_iff]
  constructor
  · intro h op
    exact Text.cut?_eq_none.mp (Option.map_eq_none_iff.mp (h op (mem_all_comparison op)))
  · intro h op _
    rw [Text.cut?_eq_none.mpr (h op), Option.map_none]

/-- No sign stands in the text but the one that leads it. -/
theorem operation?_eq_none :
    operation? cs = none ↔ ∀ op : Operation, op.sign ∈ cs → cs.head? = some op.sign := by
  rw [operation?, List.findSome?_eq_none_iff]
  constructor
  · intro h op hmem
    by_contra hhead
    have hcut := h op (mem_all_operation op)
    rw [if_neg hhead, Option.map_eq_none_iff, Text.cut?_eq_none, List.singleton_infix_iff] at hcut
    exact hcut hmem
  · intro h op _
    split
    · rfl
    · next hhead =>
        have hwithin : ¬ [op.sign] <:+: cs := by
          rw [List.singleton_infix_iff]
          exact mt (h op) hhead
        rw [Text.cut?_eq_none.mpr hwithin, Option.map_none]

theorem isDigits_cons (h : c.isDigit = false) (cs : List Char) : isDigits (c :: cs) = false := by
  simp [isDigits, h]

theorem number?_unsigned (h : cs.head? ≠ some '-') :
    number? cs =
      if isDigits cs then
        let n : Int := Nat.ofDigitChars 10 cs 0
        some (if -2 ^ 63 ≤ n ∧ n < 2 ^ 63 then .int n
          else .ofFloat? (Decimal.toBinary64 false ⟨Nat.ofDigitChars 10 cs 0, 0⟩))
      else match Text.cut? ['.'] cs with
        | some (whole, fraction) =>
          if isDigits (whole ++ fraction) then
            some (.ofFloat? (Decimal.toBinary64 false
              ⟨Nat.ofDigitChars 10 (whole ++ fraction) 0, -fraction.length⟩))
          else none
        | none => none := by
  rw [number?]
  · rfl
  · rintro rest rfl
    exact h rfl

/-- A number begins with a digit, a sign, or a point. -/
theorem number?_eq_none (h : ∀ d ∈ cs.head?, d.isDigit = false ∧ d ≠ '-' ∧ d ≠ '.') :
    number? cs = none := by
  cases cs with
  | nil => rfl
  | cons d rest =>
      obtain ⟨hdigit, hsign, hpoint⟩ := h d rfl
      rw [number?_unsigned (by simpa using hsign), isDigits_cons hdigit]
      cases hcut : Text.cut? ['.'] (d :: rest) with
      | none => rfl
      | some parts =>
          obtain ⟨whole, fraction⟩ := parts
          have heq := Text.cut?_eq_some hcut
          cases whole with
          | nil => exact absurd (List.cons.inj heq).1 hpoint
          | cons w whole =>
              obtain ⟨rfl, -⟩ := List.cons.inj heq
              simp [isDigits_cons hdigit]

/-- A keyword consists of letters. -/
theorem keyword?_eq_none (hmem : c ∈ cs) (hc : c.isAlpha = false) : keyword? cs = none := by
  have hword : ∀ word : List Char, word.all Char.isAlpha = true → cs ≠ word := by
    rintro word hword rfl
    rw [List.all_eq_true.mp hword c hmem] at hc
    cases hc
  unfold keyword?
  rw [if_neg, if_neg, if_neg]
  · exact not_or.mpr ⟨hword _ (by decide), hword _ (by decide)⟩
  · exact not_or.mpr ⟨hword _ (by decide), hword _ (by decide)⟩
  · exact not_or.mpr ⟨hword _ (by decide), hword _ (by decide)⟩

theorem call?_eq_none (h : '(' ∉ cs) : call? cs = none := by
  refine List.findSome?_eq_none_iff.mpr fun f _ ↦ if_neg ?_
  rintro ⟨hhead, -⟩
  have hstart := List.isPrefixOf_iff_prefix.mp hhead
  exact h (hstart.subset (by simp))

theorem quotation?_eq_none (h : ∀ d ∈ cs.head?, d ≠ '"' ∧ d ≠ '\'') : quotation? cs = none := by
  cases cs with
  | nil => rfl
  | cons d rest =>
      obtain ⟨hdouble, hsingle⟩ := h d rfl
      exact if_neg fun hquote ↦ hquote.1.elim hdouble hsingle

/-! ### Leaves -/

theorem isDigits_toDigits (n : Nat) : isDigits (Nat.toDigits 10 n) = true := by
  have hall : ∀ d ∈ Nat.toDigits 10 n, d.isDigit = true := fun d hd ↦
    Nat.isDigit_of_mem_toDigits (by decide) (by decide) hd
  simpa [isDigits] using hall

/-- The digits of a natural number stand for it if it has 63 bits, and for a float otherwise. -/
theorem number?_digits (n : Nat) :
    number? (Nat.toDigits 10 n) =
      some (if (n : Int) < 2 ^ 63 then .int n
        else .ofFloat? (Decimal.toBinary64 false ⟨n, 0⟩)) := by
  have hdigits := isDigits_toDigits n
  have hvalue := @Nat.ofDigitChars_ten_toDigits n
  generalize Nat.toDigits 10 n = cs at hdigits hvalue
  have hsign : cs.head? ≠ some '-' := by
    intro hhead
    cases cs with
    | nil => cases hhead
    | cons d rest =>
        cases hhead
        cases hdigits
  rw [number?_unsigned hsign, if_pos hdigits, hvalue]
  have hrange : (-2 ^ 63 ≤ (n : Int) ∧ (n : Int) < 2 ^ 63) ↔ (n : Int) < 2 ^ 63 :=
    and_iff_right (by omega)
  simp only [hrange]

theorem number?_toDigits {n : Nat} (h : n < 2 ^ 63) :
    number? (Nat.toDigits 10 n) = some (.int n) := by
  rw [number?_digits, if_pos (by omega)]

/-- A sign in front of digits stands for the negative number. -/
theorem number?_negative {n : Nat} (h : n ≤ 2 ^ 63) :
    number? ('-' :: Nat.toDigits 10 n) = some (.int (-n)) := by
  have hrange : -2 ^ 63 ≤ -(n : Int) ∧ -(n : Int) < 2 ^ 63 := by omega
  simp only [number?, isDigits_toDigits, Nat.ofDigitChars_ten_toDigits]
  exact congrArg some (if_pos hrange)

theorem call?_call (f : Measure) (argument : List Char) :
    call? (f.name ++ '(' :: (argument ++ [')'])) = some (f, argument) := by
  cases f with
  | len => simp [call?, Measure.all, Measure.name]
  | count => simp [call?, Measure.all, Measure.name]

theorem quotation?_quote (cs : List Char) :
    quotation? ('"' :: (cs ++ ['"'])) = some (String.ofList cs) := by
  have hlast : ('"' :: (cs ++ ['"'])).getLast? = some '"' := by
    rw [← List.cons_append, List.getLast?_concat]
  rw [quotation?, if_pos ⟨.inl rfl, hlast⟩, List.dropLast_concat]

/-! ### Plain characters -/

theorem isPlain_of_isAlphanum (h : c.isAlphanum = true) : isPlain c = true := by
  have hrange : 48 ≤ c.toNat ∧ c.toNat ≤ 122 := by
    have hcases : (c.isUpper || c.isLower || c.isDigit) = true := h
    rw [Bool.or_eq_true, Bool.or_eq_true] at hcases
    rcases hcases with (hupper | hlower) | hdigit
    · have hbounds : 65 ≤ c.toNat ∧ c.toNat ≤ 90 := of_decide_eq_true hupper
      omega
    · have hbounds : (decide (97 ≤ c.toNat) && decide (c.toNat ≤ 122)) = true := hlower
      rw [Bool.and_eq_true, decide_eq_true_eq, decide_eq_true_eq] at hbounds
      omega
    · have hbounds : 48 ≤ c.toNat ∧ c.toNat ≤ 57 := Char.isDigit_iff_toNat.mp hdigit
      omega
  have hblank : Text.isBlank c = false := by
    simp [Text.isBlank]
    omega
  have hnone : reserved.all (fun d ↦ !d.isAlphanum) = true := by decide
  have hreserved : reserved.contains c = false := by
    simp only [List.contains_eq_mem, decide_eq_false_iff_not]
    intro hmem
    have hc := List.all_eq_true.mp hnone c hmem
    rw [h] at hc
    cases hc
  rw [isPlain, hblank, hreserved]
  rfl

theorem isBlank_of_isPlain (h : isPlain c = true) : Text.isBlank c = false := by
  rw [isPlain, Bool.and_eq_true, Bool.not_eq_true'] at h
  exact h.1

theorem not_plain_symbol (op : Comparison) : ∀ c ∈ op.symbol, isPlain c = false ∧ c ≠ '"' := by
  cases op <;> simp [Comparison.symbol, isPlain, reserved]

theorem not_plain_sign (op : Operation) : isPlain op.sign = false ∧ op.sign ≠ '"' := by
  cases op <;> decide

/-- A text of plain characters and quotes. -/
structure Atom (cs : List Char) : Prop where
  ne_nil : cs ≠ []
  plain : ∀ c ∈ cs, isPlain c = true ∨ c = '"'

namespace Atom

theorem of_all (hne : cs ≠ []) (h : cs.all isPlain = true) : Atom cs :=
  ⟨hne, fun c hc ↦ .inl (List.all_eq_true.mp h c hc)⟩

theorem not_mem (h : Atom cs) (hc : isPlain c = false ∧ c ≠ '"') : c ∉ cs := by
  intro hmem
  rcases h.plain c hmem with hplain | hquote
  · rw [hc.1] at hplain
    cases hplain
  · exact hc.2 hquote

theorem isBlank (h : Atom cs) (hmem : c ∈ cs) : Text.isBlank c = false := by
  rcases h.plain c hmem with hplain | rfl
  · exact isBlank_of_isPlain hplain
  · rfl

theorem head?_ne (h : Atom cs) (hc : isPlain c = false ∧ c ≠ '"') : cs.head? ≠ some c :=
  fun hhead ↦ h.not_mem hc (List.mem_of_mem_head? hhead)

theorem balanced (h : Atom cs) : Balanced cs :=
  .of_forall fun c hc ↦ depth_singleton (fun hopen ↦ h.not_mem (by decide) (hopen ▸ hc))
    (fun hclose ↦ h.not_mem (by decide) (hclose ▸ hc))

theorem trimmed (h : Atom cs) : Text.Trimmed cs :=
  ⟨fun _ hc ↦ h.isBlank (List.mem_of_mem_head? hc),
    fun _ hc ↦ h.isBlank (List.mem_of_mem_getLast? hc)⟩

theorem parts_eq (h : Atom cs) {mark : Char} (hmark : mark ∈ connectives) :
    parts mark 0 cs = [cs] := by
  refine parts_of_not_mem (h.not_mem ?_) 0
  rcases List.mem_pair.mp hmark with rfl | rfl
  · decide
  · decide

theorem undivided (h : Atom cs) : Undivided cs :=
  ⟨h.trimmed, h.ne_nil, fun _ hmark ↦ operands?_eq_none (h.parts_eq hmark)⟩

/-- No operator stands in an atom. -/
theorem compile_eq (h : Atom cs) : compile cs = leaf compile cs := by
  refine h.undivided.compile_leaf (negated?_eq_none (h.head?_ne (by decide)))
    (group?_eq_none (h.head?_ne (by decide))) (comparison?_eq_none.mpr fun op hwithin ↦ ?_)
    (operation?_eq_none.mpr fun op hmem ↦ absurd hmem (h.not_mem (not_plain_sign op)))
  obtain ⟨c, hc⟩ := List.exists_mem_of_ne_nil op.symbol op.symbol_ne_nil
  exact h.not_mem (not_plain_symbol op c hc) (hwithin.subset hc)

end Atom

/-! ### The conditions of leaves -/

theorem atom_toDigits (n : Nat) : Atom (Nat.toDigits 10 n) := by
  refine ⟨Nat.toDigits_ne_nil, fun c hc ↦ .inl (isPlain_of_isAlphanum ?_)⟩
  have hdigit : c.isDigit = true := Nat.isDigit_of_mem_toDigits (by decide) (by decide) hc
  rw [Char.isAlphanum, hdigit, Bool.or_true]

theorem compile_toDigits {n : Nat} (h : n < 2 ^ 63) :
    compile (Nat.toDigits 10 n) = .literal (.int n) := by
  rw [(atom_toDigits n).compile_eq, leaf, number?_toDigits h]

theorem compile_null : compile "null".toList = .literal .null := rfl

theorem compile_true : compile "true".toList = .literal (.bool true) := rfl

theorem compile_false : compile "false".toList = .literal (.bool false) := rfl

theorem atom_quote (h : ∀ c ∈ cs, isPlain c = true) : Atom ('"' :: (cs ++ ['"'])) := by
  refine ⟨List.cons_ne_nil _ _, fun c hc ↦ ?_⟩
  rcases List.mem_cons.mp hc with rfl | hc
  · exact .inr rfl
  · rcases List.mem_append.mp hc with hc | hc
    · exact .inl (h c hc)
    · exact .inr (List.mem_singleton.mp hc)

theorem compile_quote (h : ∀ c ∈ cs, isPlain c = true) :
    compile ('"' :: (cs ++ ['"'])) = .literal (.str (String.ofList cs)) := by
  have hatom := atom_quote h
  rw [hatom.compile_eq, leaf, number?_eq_none (by simp),
    keyword?_eq_none List.mem_cons_self (by decide), call?_eq_none (hatom.not_mem (by decide)),
    quotation?_quote]

/-- A text that is a name. -/
structure IsWord (cs : List Char) : Prop where
  ne_nil : cs ≠ []
  plain : ∀ c ∈ cs, isPlain c = true
  head : ∀ c ∈ cs.head?, c.isDigit = false ∧ c ≠ '.'
  not_keyword : keyword? cs = none

theorem isWord_iff :
    IsWord cs ↔ cs ≠ [] ∧ cs.all isPlain = true ∧
      cs.head?.all (fun c ↦ !c.isDigit && c != '.') = true ∧ keyword? cs = none := by
  simp only [List.all_eq_true, Option.all_eq_true, Bool.and_eq_true, Bool.not_eq_true', bne_iff_ne]
  constructor
  · rintro ⟨hne, hplain, hhead, hkeyword⟩
    exact ⟨hne, hplain, hhead, hkeyword⟩
  · rintro ⟨hne, hplain, hhead, hkeyword⟩
    exact ⟨hne, hplain, hhead, hkeyword⟩

instance : Decidable (IsWord cs) := decidable_of_iff _ isWord_iff.symm

theorem IsWord.head?_ne (h : IsWord cs) (hc : isPlain c = false) {d : Char} (hd : d ∈ cs.head?) :
    d ≠ c := by
  rintro rfl
  rw [h.plain d (List.mem_of_mem_head? hd)] at hc
  cases hc

theorem IsWord.atom (h : IsWord cs) : Atom cs := ⟨h.ne_nil, fun c hc ↦ .inl (h.plain c hc)⟩

theorem compile_word (h : IsWord cs) : compile cs = .name (nameOf cs) := by
  have hnumber : number? cs = none := number?_eq_none fun d hd ↦
    ⟨(h.head d hd).1, h.head?_ne (by decide) hd, (h.head d hd).2⟩
  have hquotation : quotation? cs = none := quotation?_eq_none fun d hd ↦
    ⟨h.head?_ne (by decide) hd, h.head?_ne (by decide) hd⟩
  rw [h.atom.compile_eq, leaf, hnumber, h.not_keyword, call?_eq_none (h.atom.not_mem (by decide)),
    hquotation]

end Chronicle.Condition

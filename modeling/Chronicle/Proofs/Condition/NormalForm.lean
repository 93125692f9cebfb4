import Chronicle.Proofs.Condition.Reference

/-!
# The normal form of conditions

What conditions that are compiled from texts have in common: every connective has an operand, every
name is a text that no step takes apart, and a quoted text has neither comparisons nor signs in it.
So no text is a condition that asks for an event or for a value whose name has an operator in it:
`Condition.compile_normal`.
-/

namespace Chronicle

/-- How a root is written. -/
def Root.spellings : Root → List String
  | curr => ["curr"]
  | prev => ["prev"]
  | action => ["action_result", "actionResult"]
  | computed => ["computed"]

theorem Root.ofSegment?_eq_some {s : String} {root : Root} :
    Root.ofSegment? s.toList = some root ↔ s ∈ root.spellings := by
  simp only [ofSegment?, String.toList_inj]
  cases root with
  | curr | prev | action | computed => grind [spellings]

theorem Root.point_not_mem {s : String} {root : Root} (h : s ∈ root.spellings) :
    '.' ∉ s.toList := by
  revert s
  cases root with
  | curr | prev | action | computed => decide

/-- What can be seen without the value and the event of a name. -/
def Context.without (ctx : Context) (name : String) : Context :=
  { ctx with
    computed := Keyed.erase name ctx.computed
    fired := ctx.fired.filter (· ≠ name) }

namespace Condition

variable {cs front : List Char}

/-! ### Texts without operators -/

/-- No comparison stands in the text. -/
structure Uncompared (cs : List Char) : Prop where
  less : '<' ∉ cs
  greater : '>' ∉ cs
  equal : ¬ ['=', '='] <:+: cs
  unequal : ¬ ['!', '='] <:+: cs

/-- The characters that arithmetic is written with. -/
def signs : List Char := ['+', '-', '*', '/']

/-- No operator stands in the text, apart from connectives in parentheses. A sign can stand in it if
it leads the text. -/
structure OperatorFree (cs : List Char) : Prop extends Uncompared cs where
  sign : ∀ c ∈ signs, c ∈ cs → cs.head? = some c
  connective : ∀ mark ∈ connectives, ¬ StandsOutside mark cs

theorem uncompared_of_symbols (h : ∀ op : Comparison, ¬ op.symbol <:+: cs) : Uncompared cs where
  less := mt (List.singleton_infix_iff _ _).mpr (h .lt)
  greater := mt (List.singleton_infix_iff _ _).mpr (h .gt)
  equal := h .eq
  unequal := h .ne

theorem Uncompared.of_part {part : List Char} (h : Uncompared cs) (hpart : part <:+: cs) :
    Uncompared part where
  less hmem := h.less (hpart.subset hmem)
  greater hmem := h.greater (hpart.subset hmem)
  equal hwithin := h.equal (hwithin.trans hpart)
  unequal hwithin := h.unequal (hwithin.trans hpart)

theorem operatorFree_nil : OperatorFree [] where
  less := List.not_mem_nil
  greater := List.not_mem_nil
  equal := by simp
  unequal := by simp
  sign c _ hmem := absurd hmem List.not_mem_nil
  connective mark _ := by
    intro ⟨before, after, heq, _⟩
    simp at heq

theorem exists_sign {c : Char} (h : c ∈ signs) : ∃ op : Operation, op.sign = c := by
  simp only [signs, List.mem_cons, List.not_mem_nil, or_false] at h
  obtain rfl | rfl | rfl | rfl := h
  · exact ⟨.add, rfl⟩
  · exact ⟨.sub, rfl⟩
  · exact ⟨.mul, rfl⟩
  · exact ⟨.div, rfl⟩

theorem IsReference.operatorFree (h : IsReference cs) : OperatorFree cs where
  toUncompared := uncompared_of_symbols h.comparison
  sign c hc hmem := by
    obtain ⟨op, rfl⟩ := exists_sign hc
    exact h.sign op hmem
  connective := h.connective

/-- What stands behind a text without parentheses that no sign leads is free of operators, and of
signs at all. -/
theorem OperatorFree.of_append (h : OperatorFree (front ++ cs)) (hne : front ≠ [])
    (hhead : ∀ c ∈ signs, front.head? ≠ some c) (hdepth : depth front = 0) : OperatorFree cs where
  toUncompared := h.toUncompared.of_part (List.suffix_append front cs).isInfix
  sign c hc hmem := by
    have hlead := h.sign c hc (List.mem_append_right front hmem)
    rw [List.head?_append_of_ne_nil _ hne] at hlead
    exact absurd hlead (hhead c hc)
  connective mark hmark := by
    intro ⟨before, after, heq, hbefore⟩
    refine h.connective mark hmark ⟨front ++ before, after, ?_, ?_⟩
    · rw [heq, List.append_assoc]
    · rw [depth_append, hdepth, hbefore]
      rfl

/-! ### Literals -/

/-- The text is a number: digits, with a minus sign in front of them or with a point at some place
among them. -/
inductive IsNumeral : List Char → Prop where
  | natural {digits : List Char} (h : isDigits digits = true) : IsNumeral digits
  | negative {digits : List Char} (h : isDigits digits = true) : IsNumeral ('-' :: digits)
  | decimal {whole fraction : List Char} (h : isDigits (whole ++ fraction) = true) :
      IsNumeral (whole ++ '.' :: fraction)

/-- The words that are literals. -/
def keywords : List (List Char) :=
  ["null", "None", "true", "True", "false", "False"].map String.toList

/-- The text begins and ends with quotes of one kind. -/
def IsQuoted (cs : List Char) : Prop :=
  ∃ quote ∈ ['"', '\''], cs.head? = some quote ∧ cs.getLast? = some quote

theorem isDigits_iff : isDigits cs = true ↔ cs ≠ [] ∧ ∀ c ∈ cs, c.isDigit = true := by
  simp [isDigits]

/-- No text of digits is led by another character. -/
theorem head?_ne_of_digits {c : Char} (h : ∀ d ∈ cs, d.isDigit = true) (hc : c.isDigit = false) :
    cs.head? ≠ some c := by
  intro hhead
  rw [h c (List.mem_of_mem_head? hhead)] at hc
  cases hc

theorem IsNumeral.number?_ne_none (h : IsNumeral cs) : number? cs ≠ none := by
  cases h with
  | natural h =>
      have hsign := head?_ne_of_digits (isDigits_iff.mp h).2 (c := '-') (by decide)
      rw [number?_unsigned hsign, if_pos h]
      exact Option.some_ne_none _
  | negative h => simp [number?, h]
  | @decimal whole fraction h =>
      obtain ⟨hne, hdigits⟩ := isDigits_iff.mp h
      obtain ⟨hwhole, hfraction⟩ := List.forall_mem_append.mp hdigits
      have hpoint : '.' ∉ whole := fun hmem ↦ absurd (hwhole _ hmem) (by decide)
      have hsign : (whole ++ '.' :: fraction).head? ≠ some '-' := by
        cases whole with
        | nil => simp
        | cons d whole =>
            show (d :: whole).head? ≠ some '-'
            exact head?_ne_of_digits hwhole (by decide)
      have hnot : ¬ isDigits (whole ++ '.' :: fraction) = true := by
        intro hall
        exact absurd ((isDigits_iff.mp hall).2 '.' (by simp)) (by decide)
      rw [number?_unsigned hsign, if_neg hnot, Text.cut?_singleton hpoint]
      simp only [if_pos h]
      exact Option.some_ne_none _

theorem keyword?_ne_none (h : cs ∈ keywords) : keyword? cs ≠ none := by
  have hall : ∀ word ∈ keywords, (keyword? word).isSome = true := by decide
  exact Option.isSome_iff_ne_none.mp (hall cs h)

theorem IsQuoted.quotation?_ne_none (h : IsQuoted cs) : quotation? cs ≠ none := by
  obtain ⟨quote, hquote, hhead, hlast⟩ := h
  cases cs with
  | nil => cases hhead
  | cons c rest =>
      cases hhead
      rw [quotation?, if_pos ⟨List.mem_pair.mp hquote, hlast⟩]
      exact Option.some_ne_none _

/-- A number is no text. -/
theorem number?_ne_str {v : Value} (h : number? cs = some v) (s : String) : v ≠ .str s := by
  have hfloat : ∀ x : Option Binary64, Value.ofFloat? x ≠ .str s := by
    intro x
    cases x with
    | none => nofun
    | some x => nofun
  unfold number? at h
  grind

theorem keyword?_ne_str {v : Value} (h : keyword? cs = some v) (s : String) : v ≠ .str s := by
  unfold keyword? at h
  rintro rfl
  split at h
  · cases h
  · split at h
    · cases h
    · split at h
      · cases h
      · cases h

/-- What is quoted stands in the text behind a quote. -/
theorem quotation?_eq_some {s : String} (h : quotation? cs = some s) :
    s.toList <:+: cs ∧ ∀ c ∈ signs, cs.head? ≠ some c := by
  cases cs with
  | nil => cases h
  | cons c rest =>
      rw [quotation?, Option.ite_none_right_eq_some] at h
      obtain ⟨⟨hquote, -⟩, heq⟩ := h
      rw [← Option.some.inj heq, String.toList_ofList]
      refine ⟨(List.dropLast_prefix rest).isInfix.trans (List.suffix_cons c rest).isInfix, ?_⟩
      intro sign hsign hhead
      cases hhead
      obtain rfl | rfl := hquote
      · exact absurd hsign (by decide)
      · exact absurd hsign (by decide)

/-! ### Names -/

variable {root : Root} {segments : List String}

theorem path_eq_some_pieces :
    (nameOf cs).path = some (root, segments) ↔
      ∃ first ∈ root.spellings, Text.pieces '.' cs = (first :: segments).map String.toList := by
  rw [nameOf]
  cases hpieces : Text.pieces '.' cs with
  | nil => exact absurd hpieces (Text.pieces_ne_nil '.' cs)
  | cons p rest =>
      simp only [Option.map_eq_some_iff, Prod.mk.injEq, List.map_cons, List.cons.injEq]
      constructor
      · rintro ⟨_, hroot, rfl, rfl⟩
        refine ⟨String.ofList p, ?_, by simp, by simp⟩
        rwa [← Root.ofSegment?_eq_some, String.toList_ofList]
      · rintro ⟨first, hfirst, rfl, rfl⟩
        exact ⟨root, Root.ofSegment?_eq_some.mpr hfirst, rfl, by simp⟩

theorem path_eq_some :
    (nameOf cs).path = some (root, segments) ↔
      ∃ first ∈ root.spellings, String.ofList cs = ".".intercalate (first :: segments) ∧
        ∀ segment ∈ segments, '.' ∉ segment.toList := by
  rw [path_eq_some_pieces]
  refine exists_congr fun first ↦ and_congr_right fun hfirst ↦ ?_
  have hpoint := Root.point_not_mem hfirst
  have htext : String.ofList cs = ".".intercalate (first :: segments) ↔
      ['.'].intercalate ((first :: segments).map String.toList) = cs := by
    rw [← String.toList_inj, String.toList_ofList, String.toList_intercalate]
    exact eq_comm
  rw [Text.pieces_eq_iff, htext, List.forall_mem_map, List.forall_mem_cons]
  simp [hpoint]

/-- No operator takes the text apart, and it is no literal. -/
structure IsIdentifier (cs : List Char) : Prop where
  ne_nil : cs ≠ []
  trimmed : Text.Trimmed cs
  operatorFree : OperatorFree cs
  head : cs.head? ≠ some '!'
  not_numeral : ¬ IsNumeral cs
  not_keyword : cs ∉ keywords
  not_quoted : ¬ IsQuoted cs

/-- What a name in a condition is like. It has a path just if its first segment is a root, and the
path leads along the other segments. -/
structure NormalName (n : Name) : Prop where
  text : IsIdentifier n.text.toList
  path : ∀ root segments, n.path = some (root, segments) ↔
    ∃ first ∈ root.spellings, n.text = ".".intercalate (first :: segments) ∧
      ∀ segment ∈ segments, '.' ∉ segment.toList

theorem IsReference.isIdentifier (h : IsReference cs) : IsIdentifier cs where
  ne_nil := h.ne_nil
  trimmed := h.trimmed
  operatorFree := h.operatorFree
  head := h.head
  not_numeral hnumeral := hnumeral.number?_ne_none h.number
  not_keyword hkeyword := keyword?_ne_none hkeyword h.keyword
  not_quoted hquoted := hquoted.quotation?_ne_none h.quotation

theorem IsReference.normal (h : IsReference cs) : NormalName (nameOf cs) where
  text := by
    rw [nameOf, String.toList_ofList]
    exact h.isIdentifier
  path _ _ := path_eq_some

/-! ### Conditions -/

mutual
/-- What a condition is like that is compiled from a text. -/
def Normal : Condition → Prop
  | .empty => True
  | .literal v => ∀ s, v = .str s → Uncompared s.toList ∧ ∀ c ∈ signs, c ∉ s.toList
  | .name n => NormalName n
  | .not c | .measure _ c => c.Normal
  | .any parts | .all parts => parts ≠ [] ∧ NormalParts parts
  | .compare _ left right | .arith _ left right => left.Normal ∧ right.Normal

/-- What the parts of a connective are like. -/
def NormalParts : List Condition → Prop
  | [] => True
  | c :: rest => c.Normal ∧ NormalParts rest
end

variable {c : Condition}

theorem normalParts_iff {parts : List Condition} :
    NormalParts parts ↔ ∀ c ∈ parts, c.Normal := by
  induction parts with
  | nil => simp [NormalParts]
  | cons c rest ih => simp [NormalParts, ih]

theorem normal_literal {v : Value} (h : ∀ s, v ≠ .str s) : (literal v).Normal := by
  rw [Normal]
  exact fun s hs ↦ absurd hs (h s)

/-- The operands of a connective are normal if the conditions of shorter texts are. -/
theorem normal_operands {mark : Char} {texts : List (List Char)}
    (h : operands? mark cs = some texts)
    (hparts : ∀ part : List Char, part.length < cs.length → (compile part).Normal) :
    texts.map compile ≠ [] ∧ NormalParts (texts.map compile) := by
  refine ⟨mt List.map_eq_nil_iff.mp (operands_ne_nil h), normalParts_iff.mpr ?_⟩
  rw [List.forall_mem_map]
  exact fun text htext ↦ hparts text (length_lt_of_mem_operands h htext)

/-- One step leads to a normal condition if all shorter texts have one. -/
theorem Taken.normal (h : Taken cs c)
    (hparts : ∀ part : List Char, part.length < cs.length → (compile part).Normal) : c.Normal := by
  cases h with
  | empty => trivial
  | any h | all h =>
      rw [Normal]
      exact normal_operands h hparts
  | not h =>
      rw [Normal]
      exact hparts _ (length_lt_of_negated? h)
  | group h => exact hparts _ (length_lt_of_group? h)
  | compare h =>
      obtain ⟨hleft, hright⟩ := length_lt_of_comparison? h
      rw [Normal]
      exact ⟨hparts _ hleft, hparts _ hright⟩
  | arith h =>
      obtain ⟨hleft, hright⟩ := length_lt_of_operation? h
      rw [Normal]
      exact ⟨hparts _ hleft, hparts _ hright⟩
  | number h => exact normal_literal (number?_ne_str h)
  | keyword h => exact normal_literal (keyword?_ne_str h)
  | measure h =>
      rw [Normal]
      exact hparts _ (length_lt_of_call? h)
  | quotation hcompare hsign h =>
      obtain ⟨hwithin, hhead⟩ := quotation?_eq_some h
      rw [Normal]
      intro s hs
      cases hs
      refine ⟨(uncompared_of_symbols hcompare).of_part hwithin, fun c hc hmem ↦ ?_⟩
      -- A sign that stands in the text leads it, and a quote does so already.
      obtain ⟨op, rfl⟩ := exists_sign hc
      exact hhead _ hc (hsign op (hwithin.subset hmem))
  | name h =>
      rw [Normal]
      exact h.normal

theorem normal_compile (cs : List Char) : (compile cs).Normal :=
  compile_induction (fun _ _ h hparts ↦ h.normal hparts) cs

/-! ### Names that no condition asks for -/

namespace NormalName

variable {n : Name}

/-- The name of a value to which a path leads has no operator in it. -/
theorem operatorFree_of_path {segments : List String} (hn : NormalName n)
    (h : n.path = some (.computed, segments)) :
    OperatorFree (".".intercalate segments).toList := by
  obtain ⟨first, hfirst, htext, -⟩ := (hn.path _ _).mp h
  obtain rfl := List.mem_singleton.mp hfirst
  cases segments with
  | nil => exact operatorFree_nil
  | cons segment rest =>
      have hfree := hn.text.operatorFree
      rw [htext, String.intercalate_cons_cons, String.toList_append] at hfree
      exact hfree.of_append (by decide) (by simp [signs]) (by decide)

/-- A name in a condition stands for nothing that has an operator in its own name. -/
theorem resolve_without (hn : NormalName n) {name : String} (hname : ¬ OperatorFree name.toList)
    (ctx : Context) : (ctx.without name).resolve n = ctx.resolve n := by
  have hne : n.text ≠ name := by
    rintro rfl
    exact hname hn.text.operatorFree
  have hvalue : (ctx.without name).computed.lookup n.text = ctx.computed.lookup n.text :=
    Keyed.lookup_erase_of_ne hne ctx.computed
  have hfired : (ctx.without name).fired.contains n.text = ctx.fired.contains n.text := by
    simp [Context.without, List.mem_filter, hne]
  have hpath : ∀ root segments, n.path = some (root, segments) →
      (ctx.without name).follow root segments = ctx.follow root segments := by
    intro root segments h
    cases root with
    | curr | prev | action => rfl
    | computed =>
        refine Keyed.lookup_erase_of_ne ?_ ctx.computed
        rintro rfl
        exact hname (hn.operatorFree_of_path h)
  rw [Context.resolve, Context.resolve, hvalue, hfired]
  cases hn : n.path with
  | none => rfl
  | some path =>
      obtain ⟨root, segments⟩ := path
      simp only [hpath root segments hn]

end NormalName

/-- Every condition that is compiled from a text is in normal form. So it has the same value whether
or not there are a value and an event by a name with an operator in it. -/
theorem compile_normal (source : List Char) :
    (compile source).Normal ∧
      ∀ name : String, ¬ OperatorFree name.toList → ∀ ctx : Context,
        (compile source).evaluate (ctx.without name) = (compile source).evaluate ctx := by
  refine ⟨normal_compile source, fun name hname ctx ↦ evaluate_congr fun n hn ↦ ?_⟩
  obtain ⟨part, hpart, rfl⟩ := exists_isReference hn
  exact hpart.normal.resolve_without hname ctx

/-- The condition is a difference although there are both a value and an event by its name. -/
theorem compile_normal_hyphen :
    let source := "is-weak || computed.is-weak".toList
    ¬ OperatorFree "is-weak".toList ∧ (compile source).Normal ∧
      (compile source).evaluate ⟨.null, .null, [], [], none⟩ =
        (compile source).evaluate
          ⟨.null, .null, [("is-weak", .bool true)], ["is-weak"], none⟩ := by
  intro source
  have hhyphen : ¬ OperatorFree "is-weak".toList := fun h ↦
    absurd (h.sign '-' (by decide) (by decide)) (by decide)
  obtain ⟨hnormal, hsame⟩ := compile_normal source
  exact ⟨hhyphen, hnormal, hsame "is-weak" hhyphen
    ⟨.null, .null, [("is-weak", .bool true)], ["is-weak"], none⟩⟩

end Condition

end Chronicle

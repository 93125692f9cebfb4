import Chronicle.Proofs.Condition.Grouping

/-!
# Parts and operands

The parts of a text are what stands between its connectives outside parentheses. Where two texts
meet at a character that is no mark, their parts are put together, `parts_append`, and a connective
between two texts separates the parts of one from those of the other, `trimmedParts_join`.
-/

namespace Chronicle.Condition

/-- A connective stands outside parentheses. -/
def StandsOutside (mark : Char) (cs : List Char) : Prop :=
  ∃ before after, cs = before ++ mark :: mark :: after ∧ depth before = 0

/-- A character that connectives can be made of: neither a parenthesis nor a blank. -/
structure IsMark (mark : Char) : Prop where
  flat : depth [mark] = 0
  visible : Text.isBlank mark = false

theorem isMark_or : IsMark '|' := ⟨by decide, by decide⟩

theorem isMark_and : IsMark '&' := ⟨by decide, by decide⟩

/-- The characters that connectives are made of. -/
def connectives : List Char := ['|', '&']

/-- Neither the mark nor a parenthesis stands in the text. -/
def Clear (mark : Char) (cs : List Char) : Prop := ∀ c ∈ cs, c ≠ mark ∧ depth [c] = 0

instance (mark : Char) (cs : List Char) : Decidable (Clear mark cs) := List.decidableBAll _ _

theorem isMark_of_mem {mark : Char} (h : mark ∈ connectives) : IsMark mark := by
  rcases List.mem_pair.mp h with rfl | rfl
  · exact isMark_or
  · exact isMark_and

variable {mark c : Char} {a b cs rest front back : List Char}

/-! ### Parts -/

/-- Two lists of parts, where the last of one and the first of the other belong together. -/
def glue : List (List Char) → List (List Char) → List (List Char)
  | [], more => more
  | [last], more => more.modifyHead (last ++ ·)
  | first :: next :: others, more => first :: glue (next :: others) more

theorem glue_cons {ps qs : List (List Char)} (h : ps ≠ []) (p : List Char) :
    glue (p :: ps) qs = p :: glue ps qs := by
  cases ps with
  | nil => exact absurd rfl h
  | cons next others => rfl

theorem glue_modifyHead {ps qs : List (List Char)} (h : ps ≠ []) (c : Char) :
    glue (ps.modifyHead (c :: ·)) qs = (glue ps qs).modifyHead (c :: ·) := by
  cases ps with
  | nil => exact absurd rfl h
  | cons first others =>
      cases others with
      | nil =>
          cases qs with
          | nil => rfl
          | cons q qs => rfl
      | cons next others => rfl

theorem parts_ne_nil (mark : Char) (d : Int) (cs : List Char) : parts mark d cs ≠ [] := by
  fun_induction parts mark d cs with
  | case1 => simp
  | case2 => simp
  | case3 => simp
  | case4 d c e rest hmark ih => simpa [List.modifyHead_eq_nil_iff] using ih

theorem parts_cons_of_ne (h : c ≠ mark) (d : Int) (rest : List Char) :
    parts mark d (c :: rest) = (parts mark (d + depth [c]) rest).modifyHead (c :: ·) := by
  cases rest with
  | nil => rfl
  | cons e rest =>
      rw [parts, if_neg (by simp [h]), depthAfter_eq]

/-- Parts are put together where a text goes on with another character than the mark. -/
theorem parts_append (hmark : depth [mark] = 0) (hc : c ≠ mark) (d : Int) (a rest : List Char) :
    parts mark d (a ++ c :: rest) =
      glue (parts mark d a) (parts mark (d + depth a) (c :: rest)) := by
  fun_induction parts mark d a with
  | case1 d =>
      rw [depth_nil, Int.add_zero]
      obtain ⟨p, ps, hparts⟩ := List.exists_cons_of_ne_nil (parts_ne_nil mark d (c :: rest))
      simp [glue, hparts]
  | case2 d e =>
      show parts mark d (e :: c :: rest) = _
      rw [parts, if_neg (by simp [hc]), depthAfter_eq]
      rfl
  | case3 d e f more hmatch ih =>
      obtain ⟨hd, he, hf⟩ := hmatch
      have hdepth : depth (e :: f :: more) = depth more := by
        rw [depth_cons, depth_cons f, he, hf, hmark]
        omega
      rw [List.cons_append, List.cons_append, parts, if_pos ⟨hd, he, hf⟩, ih,
        glue_cons (parts_ne_nil _ _ _), hdepth]
  | case4 d e f more hmatch ih =>
      have hdepth : depthAfter d e + depth (f :: more) = d + depth (e :: f :: more) := by
        rw [depthAfter_eq, depth_cons e (f :: more), Int.add_assoc]
      rw [List.cons_append, List.cons_append, parts, if_neg hmatch, ← List.cons_append, ih,
        glue_modifyHead (parts_ne_nil _ _ _), hdepth]

/-- A text in which the connective does not stand outside parentheses is its own only part. -/
theorem parts_eq_singleton {d : Int}
    (h : ∀ before after, cs = before ++ mark :: mark :: after → d + depth before ≠ 0) :
    parts mark d cs = [cs] := by
  fun_induction parts mark d cs with
  | case1 => rfl
  | case2 => rfl
  | case3 d e f rest hmatch =>
      obtain ⟨rfl, rfl, rfl⟩ := hmatch
      exact absurd rfl (h [] rest rfl)
  | case4 d e f rest hmatch ih =>
      rw [ih]
      · rfl
      · intro before after heq
        have hne := h (e :: before) after (by rw [heq, List.cons_append])
        rwa [depth_cons, ← Int.add_assoc, ← depthAfter_eq] at hne

theorem parts_of_not_standsOutside (h : ¬ StandsOutside mark cs) : parts mark 0 cs = [cs] :=
  parts_eq_singleton fun before after heq hdepth ↦
    h ⟨before, after, heq, by rwa [Int.zero_add] at hdepth⟩

/-- A text in which the connective stands outside parentheses has several parts. -/
theorem one_lt_length_parts {d : Int}
    (h : ∃ before after, cs = before ++ mark :: mark :: after ∧ d + depth before = 0) :
    1 < (parts mark d cs).length := by
  fun_induction parts mark d cs with
  | case1 => simp at h
  | case2 d e =>
      obtain ⟨before, after, heq, -⟩ := h
      have hlength := congrArg List.length heq
      simp at hlength
      omega
  | case3 d e f rest hmatch =>
      have hpos := List.length_pos_iff.mpr (parts_ne_nil mark d rest)
      rw [List.length_cons]
      omega
  | case4 d e f rest hmatch ih =>
      obtain ⟨before, after, heq, hdepth⟩ := h
      cases before with
      | nil =>
          obtain ⟨rfl, hrest⟩ := List.cons.inj heq
          obtain ⟨rfl, -⟩ := List.cons.inj hrest
          exact absurd ⟨by simpa using hdepth, rfl, rfl⟩ hmatch
      | cons b before =>
          obtain ⟨rfl, hrest⟩ := List.cons.inj heq
          rw [List.length_modifyHead]
          refine ih ⟨before, after, hrest, ?_⟩
          rw [depthAfter_eq, Int.add_assoc, ← depth_cons]
          exact hdepth

theorem standsOutside_iff : StandsOutside mark cs ↔ parts mark 0 cs ≠ [cs] := by
  constructor
  · rintro ⟨before, after, heq, hdepth⟩ hparts
    have hlength : 1 < (parts mark 0 cs).length :=
      one_lt_length_parts ⟨before, after, heq, by rwa [Int.zero_add]⟩
    rw [hparts] at hlength
    exact Nat.lt_irrefl 1 hlength
  · intro hparts
    by_contra hnot
    exact hparts (parts_of_not_standsOutside hnot)

instance : Decidable (StandsOutside mark cs) := decidable_of_iff _ standsOutside_iff.symm

theorem parts_of_not_mem (h : mark ∉ cs) (d : Int) : parts mark d cs = [cs] :=
  parts_eq_singleton fun _ _ heq ↦ absurd (heq ▸ by simp) h

/-- What is in parentheses is not taken apart. -/
theorem parts_group (hmark : depth [mark] = 0) (h : Balanced cs) :
    parts mark 0 ('(' :: (cs ++ [')'])) = ['(' :: (cs ++ [')'])] := by
  refine parts_eq_singleton fun before after heq ↦ ?_
  rw [Int.zero_add]
  rcases h.prefix_group ⟨_, heq.symm⟩ with rfl | rfl | hdepth
  · obtain ⟨rfl, -⟩ := List.cons.inj heq
    exact absurd hmark (by decide)
  · simp at heq
  · omega

/-- Characters in front that are neither marks nor parentheses do not take a text apart. -/
theorem parts_append_left (hfront : Clear mark front)
    (h : parts mark 0 cs = [cs]) : parts mark 0 (front ++ cs) = [front ++ cs] := by
  induction front with
  | nil => exact h
  | cons c front ih =>
      obtain ⟨⟨hne, hflat⟩, hrest⟩ := List.forall_mem_cons.mp hfront
      rw [List.cons_append, parts_cons_of_ne hne, hflat, Int.add_zero, ih hrest]
      rfl

/-- Two texts that are not taken apart, nor by what joins them, are not taken apart together. -/
theorem parts_join {sep : List Char} (hmark : depth [mark] = 0) (hne : sep ≠ [])
    (hsep : Clear mark sep) (ha : depth a = 0)
    (hleft : parts mark 0 a = [a]) (hright : parts mark 0 b = [b]) :
    parts mark 0 (a ++ (sep ++ b)) = [a ++ (sep ++ b)] := by
  cases sep with
  | nil => exact absurd rfl hne
  | cons c more =>
      have hrest := parts_append_left hsep hright
      rw [List.cons_append] at hrest ⊢
      rw [parts_append hmark (hsep c List.mem_cons_self).1, ha, Int.add_zero, hleft, hrest]
      rfl

theorem parts_intercalate {sep : List Char} {texts : List (List Char)}
    (hmark : depth [mark] = 0) (hne : sep ≠ []) (hsep : Clear mark sep)
    (h : ∀ text ∈ texts, depth text = 0 ∧ parts mark 0 text = [text]) :
    parts mark 0 (sep.intercalate texts) = [sep.intercalate texts] := by
  induction texts with
  | nil => rfl
  | cons first others ih =>
      obtain ⟨⟨hdepth, hfirst⟩, hothers⟩ := List.forall_mem_cons.mp h
      cases others with
      | nil => rw [List.intercalate_singleton, hfirst]
      | cons next others =>
          rw [List.intercalate_cons_cons, List.append_assoc]
          exact parts_join hmark hne hsep hdepth hfirst (ih hothers)

theorem intercalate_modifyHead {ps : List (List Char)} (h : ps ≠ []) (sep : List Char) (c : Char) :
    sep.intercalate (ps.modifyHead (c :: ·)) = c :: sep.intercalate ps := by
  cases ps with
  | nil => exact absurd rfl h
  | cons first others =>
      cases others with
      | nil => simp
      | cons next others => simp [List.intercalate_cons_cons]

/-- The connective joins the parts. -/
theorem intercalate_parts (mark : Char) (d : Int) (cs : List Char) :
    [mark, mark].intercalate (parts mark d cs) = cs := by
  fun_induction parts mark d cs with
  | case1 => rfl
  | case2 => rfl
  | case3 d e f rest hmatch ih =>
      obtain ⟨-, he, hf⟩ := hmatch
      obtain ⟨p, ps, hparts⟩ := List.exists_cons_of_ne_nil (parts_ne_nil mark d rest)
      rw [hparts, List.intercalate_cons_cons, ← hparts, ih, he, hf]
      rfl
  | case4 d e f rest hmatch ih => rw [intercalate_modifyHead (parts_ne_nil _ _ _), ih]

theorem length_le_intercalate {p sep : List Char} {ps : List (List Char)} (h : p ∈ ps) :
    p.length ≤ (sep.intercalate ps).length := by
  induction ps with
  | nil => exact absurd h List.not_mem_nil
  | cons first others ih =>
      cases others with
      | nil => simp [List.mem_singleton.mp h]
      | cons next others =>
          rw [List.intercalate_cons_cons, List.length_append, List.length_append]
          rcases List.mem_cons.mp h with rfl | h
          · omega
          · have hlength := ih h
            omega

/-- Where there are several parts, each is shorter than the text. -/
theorem length_lt_of_mem_parts {d : Int} {p : List Char} (hp : p ∈ parts mark d cs)
    (hseveral : (parts mark d cs).length ≠ 1) : p.length < cs.length := by
  have hjoin := congrArg List.length (intercalate_parts mark d cs)
  cases hparts : parts mark d cs with
  | nil => exact absurd hparts (parts_ne_nil _ _ _)
  | cons first others =>
      rw [hparts] at hp hseveral hjoin
      cases others with
      | nil => exact absurd rfl hseveral
      | cons next others =>
          rw [List.intercalate_cons_cons, List.length_append, List.length_append,
            List.length_cons, List.length_singleton] at hjoin
          rcases List.mem_cons.mp hp with rfl | hp
          · omega
          · have hlength := @length_le_intercalate p [mark, mark] _ hp
            omega

/-! ### Operands of a connective -/

/-- The parts without blanks around them. -/
def trimmedParts (mark : Char) (cs : List Char) : List (List Char) :=
  (parts mark 0 cs).map Text.trim

/-- The texts without a blank last one. -/
def withoutBlankLast (texts : List (List Char)) : List (List Char) :=
  if texts.getLast? = some [] then texts.dropLast else texts

theorem withoutBlankLast_subset (texts : List (List Char)) : withoutBlankLast texts ⊆ texts := by
  unfold withoutBlankLast
  split
  · exact List.dropLast_subset texts
  · exact List.Subset.refl texts

theorem trimmedParts_ne_nil (mark : Char) (cs : List Char) : trimmedParts mark cs ≠ [] := by
  simpa [trimmedParts] using parts_ne_nil mark 0 cs

theorem operands?_eq (mark : Char) (cs : List Char) :
    operands? mark cs =
      if (trimmedParts mark cs).length = 1 then none
      else some (withoutBlankLast (trimmedParts mark cs)) := by
  unfold operands?
  rw [← trimmedParts]
  cases htexts : trimmedParts mark cs with
  | nil => exact absurd htexts (trimmedParts_ne_nil mark cs)
  | cons first others =>
      cases others with
      | nil => rfl
      | cons next others => simp [withoutBlankLast]

theorem operands?_eq_none (h : parts mark 0 cs = [cs]) : operands? mark cs = none := by
  rw [operands?_eq, if_pos (by rw [trimmedParts, h]; rfl)]

/-- A text is not taken apart just if no connective stands outside parentheses. -/
theorem operands?_eq_none_iff : operands? mark cs = none ↔ ¬ StandsOutside mark cs := by
  constructor
  · rintro hnone ⟨before, after, heq, hdepth⟩
    have hseveral : 1 < (parts mark 0 cs).length :=
      one_lt_length_parts ⟨before, after, heq, by rwa [Int.zero_add]⟩
    rw [operands?_eq, trimmedParts, List.length_map, if_neg (by omega)] at hnone
    cases hnone
  · intro h
    exact operands?_eq_none (parts_of_not_standsOutside h)

theorem ne_nil_of_operands? {texts : List (List Char)} (h : operands? mark cs = some texts) :
    cs ≠ [] := by
  rintro rfl
  rw [operands?_eq_none rfl] at h
  cases h

/-- A connective has an operand, since only the last one of several parts can be left out. -/
theorem operands_ne_nil {texts : List (List Char)} (h : operands? mark cs = some texts) :
    texts ≠ [] := by
  rw [operands?_eq, Option.ite_none_left_eq_some] at h
  obtain ⟨hseveral, heq⟩ := h
  rw [← Option.some.inj heq, withoutBlankLast]
  intro hnil
  split at hnil
  · have hlength := congrArg List.length hnil
    rw [List.length_dropLast, List.length_nil] at hlength
    have hpos := List.length_pos_iff.mpr (trimmedParts_ne_nil mark cs)
    omega
  · exact trimmedParts_ne_nil mark cs hnil

theorem length_lt_of_mem_operands {operands : List (List Char)}
    (h : operands? mark cs = some operands) {operand : List Char} (hmem : operand ∈ operands) :
    operand.length < cs.length := by
  rw [operands?_eq] at h
  split at h
  · cases h
  · next hseveral =>
      cases h
      obtain ⟨part, hpart, rfl⟩ := List.mem_map.mp (withoutBlankLast_subset _ hmem)
      rw [trimmedParts, List.length_map] at hseveral
      have htrim := Text.length_trim_le part
      have hlength := length_lt_of_mem_parts hpart hseveral
      omega

/-! ### Blanks around a text -/

theorem IsMark.not_mem_of_allBlank (hmark : IsMark mark) (h : Text.AllBlank cs) : mark ∉ cs := by
  intro hmem
  have hblank := h mark hmem
  rw [hmark.visible] at hblank
  cases hblank

theorem map_trim_glue {ps qs : List (List Char)} (hps : ps ≠ []) (h : Text.AllBlank back) :
    (glue ps (back :: qs)).map Text.trim = ps.map Text.trim ++ qs.map Text.trim := by
  induction ps with
  | nil => exact absurd rfl hps
  | cons p ps ih =>
      cases ps with
      | nil => simp [glue, Text.trim_append_right h]
      | cons next others =>
          rw [glue_cons (by simp), List.map_cons, ih (by simp), ← List.cons_append, ← List.map_cons]

theorem trimmedParts_append_left (hmark : IsMark mark) (h : Text.AllBlank front)
    (cs : List Char) : trimmedParts mark (front ++ cs) = trimmedParts mark cs := by
  induction front with
  | nil => rfl
  | cons c front ih =>
      obtain ⟨hc, hfront⟩ := List.forall_mem_cons.mp h
      have hne : c ≠ mark := by
        rintro rfl
        exact absurd (hmark.visible ▸ hc) (by simp)
      have hblank : Text.AllBlank [c] := List.forall_mem_singleton.mpr hc
      rw [← ih hfront, List.cons_append, trimmedParts, trimmedParts, parts_cons_of_ne hne,
        depth_isBlank hc, Int.add_zero]
      cases parts mark 0 (front ++ cs) with
      | nil => rfl
      | cons p ps =>
          rw [List.modifyHead_cons, List.map_cons, List.map_cons]
          exact congrArg (· :: _) (Text.trim_append_left hblank p)

theorem trimmedParts_append_right (hmark : IsMark mark) (h : Text.AllBlank back)
    (cs : List Char) : trimmedParts mark (cs ++ back) = trimmedParts mark cs := by
  cases back with
  | nil => rw [List.append_nil]
  | cons c rest =>
      have hmem := hmark.not_mem_of_allBlank h
      rw [trimmedParts, parts_append hmark.flat (Ne.symm (List.ne_of_not_mem_cons hmem)),
        parts_of_not_mem hmem, map_trim_glue (parts_ne_nil _ _ _) h, List.map_nil,
        List.append_nil, trimmedParts]

theorem trimmedParts_trim (hmark : IsMark mark) (cs : List Char) :
    trimmedParts mark (Text.trim cs) = trimmedParts mark cs := by
  obtain ⟨front, back, hcs, hfront, hback, -⟩ := Text.exists_trim cs
  conv_rhs => rw [hcs]
  rw [trimmedParts_append_right hmark hback, trimmedParts_append_left hmark hfront]

theorem operands?_trim (hmark : IsMark mark) (cs : List Char) :
    operands? mark (Text.trim cs) = operands? mark cs := by
  rw [operands?_eq, operands?_eq, trimmedParts_trim hmark]

/-! ### Parts of joined texts -/

/-- Where a connective joins two texts, the parts are those of one and those of the other. -/
theorem trimmedParts_join (hmark : IsMark mark) (ha : depth a = 0) (b : List Char) :
    trimmedParts mark (a ++ ' ' :: mark :: mark :: ' ' :: b) =
      trimmedParts mark a ++ trimmedParts mark b := by
  have hspace : ' ' ≠ mark := by
    rintro rfl
    exact absurd hmark.visible (by decide)
  have hjoint : parts mark 0 (' ' :: mark :: mark :: ' ' :: b) =
      [' '] :: parts mark 0 (' ' :: b) := by
    rw [parts_cons_of_ne hspace, depth_isBlank (by decide), Int.add_zero, parts,
      if_pos ⟨rfl, rfl, rfl⟩]
    rfl
  rw [trimmedParts, parts_append hmark.flat hspace, ha, Int.add_zero, hjoint,
    map_trim_glue (parts_ne_nil _ _ _) Text.allBlank_space]
  exact congrArg _ (trimmedParts_append_left hmark Text.allBlank_space b)

/-- The last part stands behind a connective, unless it is the only one. -/
theorem exists_append_intercalate {ps : List (List Char)} (hps : ps ≠ []) (sep p : List Char) :
    ∃ front, sep.intercalate (ps ++ [p]) = front ++ sep ++ p := by
  induction ps with
  | nil => exact absurd rfl hps
  | cons first others ih =>
      cases others with
      | nil => exact ⟨first, by simp [List.intercalate_cons_cons]⟩
      | cons next others =>
          obtain ⟨front, hfront⟩ := ih (by simp)
          refine ⟨first ++ sep ++ front, ?_⟩
          rw [List.cons_append, List.cons_append, List.intercalate_cons_cons, ← List.cons_append,
            hfront]
          simp only [List.append_assoc]

/-- Where the last part is blank, the text ends with the connective. -/
theorem suffix_of_getLast?_trimmedParts (hmark : IsMark mark)
    (hseveral : (trimmedParts mark cs).length ≠ 1)
    (hlast : (trimmedParts mark cs).getLast? = some []) : [mark, mark] <:+ Text.trim cs := by
  have hparts : (parts mark 0 cs).dropLast ++ [(parts mark 0 cs).getLast (parts_ne_nil _ _ _)] =
      parts mark 0 cs := List.dropLast_append_getLast _
  generalize (parts mark 0 cs).dropLast = others at hparts
  generalize (parts mark 0 cs).getLast _ = last at hparts
  have hothers : others ≠ [] := by
    rintro rfl
    rw [trimmedParts, ← hparts] at hseveral
    exact hseveral rfl
  have hblank : Text.AllBlank last := by
    rw [trimmedParts, ← hparts, List.map_append, List.map_singleton, List.getLast?_concat] at hlast
    exact Text.allBlank_of_trim (Option.some.inj hlast)
  obtain ⟨front, hjoin⟩ := exists_append_intercalate hothers [mark, mark] last
  rw [hparts, intercalate_parts] at hjoin
  have hvisible : Text.Trimmed [mark, mark] := ⟨by simp [hmark.visible], by simp [hmark.visible]⟩
  rw [hjoin, Text.trim_append_right hblank]
  exact hvisible.suffix_trim_append front

/-! ### The whole text as an operand -/

/-- The operands of a connective, or the whole text where there is none. -/
def operands (mark : Char) (cs : List Char) : List (List Char) :=
  (operands? mark cs).getD [Text.trim cs]

theorem trimmedParts_of_length (h : (trimmedParts mark cs).length = 1) :
    trimmedParts mark cs = [Text.trim cs] := by
  have hjoin := intercalate_parts mark 0 cs
  rw [trimmedParts, List.length_map] at h
  obtain ⟨part, hpart⟩ := List.length_eq_one_iff.mp h
  rw [hpart, List.intercalate_singleton] at hjoin
  rw [trimmedParts, hpart, hjoin, List.map_singleton]

theorem operands_eq (h : Text.trim cs ≠ []) :
    operands mark cs = withoutBlankLast (trimmedParts mark cs) := by
  rw [operands, operands?_eq]
  by_cases hsingle : (trimmedParts mark cs).length = 1
  · rw [if_pos hsingle, trimmedParts_of_length hsingle, withoutBlankLast, if_neg (by simpa using h)]
    rfl
  · rw [if_neg hsingle]
    rfl

/-- The operands are the parts where the text does not end with the connective. -/
theorem operands_eq_trimmedParts (hmark : IsMark mark) (h : ¬ [mark, mark] <:+ Text.trim cs) :
    operands mark cs = trimmedParts mark cs := by
  rw [operands, operands?_eq]
  by_cases hsingle : (trimmedParts mark cs).length = 1
  · rw [if_pos hsingle, trimmedParts_of_length hsingle]
    rfl
  · have hlast := mt (suffix_of_getLast?_trimmedParts hmark hsingle) h
    rw [if_neg hsingle, withoutBlankLast, if_neg hlast]
    rfl

/-! ### Operands of joined texts -/

theorem withoutBlankLast_append {xs ys : List (List Char)} (h : ys ≠ []) :
    withoutBlankLast (xs ++ ys) = xs ++ withoutBlankLast ys := by
  unfold withoutBlankLast
  rw [List.getLast?_append_of_ne_nil _ h, List.dropLast_append_of_ne_nil h]
  split
  · rfl
  · rfl

theorem operands?_join (hmark : IsMark mark) (ha : depth a = 0) (b : List Char) :
    operands? mark (a ++ ' ' :: mark :: mark :: ' ' :: b) =
      some (trimmedParts mark a ++ withoutBlankLast (trimmedParts mark b)) := by
  have hleft := List.length_pos_iff.mpr (trimmedParts_ne_nil mark a)
  have hright := List.length_pos_iff.mpr (trimmedParts_ne_nil mark b)
  rw [operands?_eq, trimmedParts_join hmark ha, List.length_append, if_neg (by omega),
    withoutBlankLast_append (trimmedParts_ne_nil mark b)]

/-- The operands that a connective joins are found again. -/
theorem trimmedParts_intercalate (hmark : IsMark mark) {texts : List (List Char)} (hne : texts ≠ [])
    (h : ∀ text ∈ texts, depth text = 0 ∧ Text.Trimmed text ∧ parts mark 0 text = [text]) :
    trimmedParts mark ([' ', mark, mark, ' '].intercalate texts) = texts := by
  induction texts with
  | nil => exact absurd rfl hne
  | cons first others ih =>
      obtain ⟨⟨hdepth, htrim, hfirst⟩, hothers⟩ := List.forall_mem_cons.mp h
      have hone : trimmedParts mark first = [first] := by
        rw [trimmedParts, hfirst, List.map_singleton, htrim.trim_eq]
      cases others with
      | nil => rw [List.intercalate_singleton, hone]
      | cons next others =>
          have hjoin := trimmedParts_join hmark hdepth
            ([' ', mark, mark, ' '].intercalate (next :: others))
          rw [hone, ih (by simp) hothers] at hjoin
          rw [List.intercalate_cons_cons, List.append_assoc]
          exact hjoin

theorem operands?_intercalate (hmark : IsMark mark) {texts : List (List Char)}
    (hlength : 2 ≤ texts.length)
    (h : ∀ text ∈ texts, depth text = 0 ∧ Text.Trimmed text ∧ parts mark 0 text = [text])
    (hblank : [] ∉ texts) :
    operands? mark ([' ', mark, mark, ' '].intercalate texts) = some texts := by
  have hne : texts ≠ [] := List.length_pos_iff.mp (by omega)
  have hlast : texts.getLast? ≠ some [] := fun hlast ↦ hblank (List.mem_of_mem_getLast? hlast)
  rw [operands?_eq, trimmedParts_intercalate hmark hne h, if_neg (by omega), withoutBlankLast,
    if_neg hlast]

/-- A conjunction does not become a disjunction by what it joins. -/
theorem operands?_or_join (ha : depth a = 0) (hleft : ¬ StandsOutside '|' a)
    (hright : ¬ StandsOutside '|' b) :
    operands? '|' (a ++ ' ' :: '&' :: '&' :: ' ' :: b) = none := by
  have hsep : Clear '|' [' ', '&', '&', ' '] := by decide
  exact operands?_eq_none (parts_join isMark_or.flat (by simp) hsep ha
    (parts_of_not_standsOutside hleft) (parts_of_not_standsOutside hright))

end Chronicle.Condition

import Chronicle.Text.Blank
import Chronicle.Text.Split
import Mathlib.Data.List.DropRight

/-!
# Trimming and cutting

`trim` leaves what stands between the blanks at the ends of a text, and there is only one such text:
`trim_eq`. A text is cut at a mark that stands behind something in which it does not: `cut?_append`.
The pieces between the places of a character are what it joins to the text: `pieces_eq_iff`.
-/

namespace Chronicle.Text

/-! ### Trimming -/

/-- There is no blank at either end. -/
structure Trimmed (cs : List Char) : Prop where
  head : ∀ c ∈ cs.head?, isBlank c = false
  last : ∀ c ∈ cs.getLast?, isBlank c = false

/-- All characters are blank. -/
def AllBlank (cs : List Char) : Prop := ∀ c ∈ cs, isBlank c = true

instance (cs : List Char) : Decidable (AllBlank cs) := List.decidableBAll _ _

theorem allBlank_nil : AllBlank [] := fun _ h ↦ absurd h List.not_mem_nil

theorem allBlank_space : AllBlank [' '] := by decide

theorem AllBlank.append {front more : List Char} (h : AllBlank front) (hmore : AllBlank more) :
    AllBlank (front ++ more) := List.forall_mem_append.mpr ⟨h, hmore⟩

variable {front cs back : List Char}

theorem trimmed_wrap {c d : Char} (hc : isBlank c = false) (hd : isBlank d = false)
    (cs : List Char) : Trimmed (c :: (cs ++ [d])) := by
  refine ⟨?_, ?_⟩
  · simpa using hc
  · rw [← List.cons_append, List.getLast?_concat]
    simpa using hd

theorem Trimmed.append {before after : List Char} (hbefore : Trimmed before)
    (hafter : Trimmed after) (hne : before ≠ []) (hne' : after ≠ []) (between : List Char) :
    Trimmed (before ++ (between ++ after)) := by
  have hrest : between ++ after ≠ [] := List.append_ne_nil_of_right_ne_nil between hne'
  refine ⟨?_, ?_⟩
  · rw [List.head?_append_of_ne_nil _ hne]
    exact hbefore.head
  · rw [List.getLast?_append_of_ne_nil _ hrest, List.getLast?_append_of_ne_nil _ hne']
    exact hafter.last

theorem trimStart_append (hfront : AllBlank front)
    (hhead : ∀ c ∈ cs.head?, isBlank c = false) : trimStart (front ++ cs) = cs := by
  rw [trimStart, List.dropWhile_append_of_pos hfront]
  cases cs with
  | nil => rfl
  | cons c rest => rw [List.dropWhile_cons_of_neg (by simp [hhead c rfl])]

theorem trimEnd_append (hback : AllBlank back)
    (hlast : ∀ c ∈ cs.getLast?, isBlank c = false) : trimEnd (cs ++ back) = cs := by
  have hstart : trimStart (back.reverse ++ cs.reverse) = cs.reverse := by
    refine trimStart_append (fun c hc ↦ hback c (List.mem_reverse.mp hc)) ?_
    rwa [List.head?_reverse]
  rw [trimStart] at hstart
  rw [trimEnd, List.reverse_append, hstart, List.reverse_reverse]

/-- What stands between blanks is left. -/
theorem trim_eq (hfront : AllBlank front) (h : Trimmed cs) (hback : AllBlank back) :
    trim (front ++ cs ++ back) = cs := by
  cases cs with
  | nil =>
      have hstart : trimStart (front ++ back ++ []) = [] :=
        trimStart_append (hfront.append hback) (by simp)
      rw [List.append_nil] at hstart ⊢
      rw [trim, hstart]
      rfl
  | cons c rest =>
      have hhead : ∀ d ∈ (c :: rest ++ back).head?, isBlank d = false := h.head
      rw [trim, List.append_assoc, trimStart_append hfront hhead, trimEnd_append hback h.last]

/-- What stays in front is not dropped. -/
theorem head?_dropWhile {p : Char → Bool} {c : Char} (h : c ∈ (cs.dropWhile p).head?) :
    p c = false := by
  have hnot := List.head?_dropWhile_not p cs
  rw [h] at hnot
  exact hnot

/-- A text is what is left of it between blanks. -/
theorem exists_trim (cs : List Char) :
    ∃ front back, cs = front ++ trim cs ++ back ∧ AllBlank front ∧ AllBlank back ∧
      Trimmed (trim cs) := by
  refine ⟨cs.takeWhile isBlank, (trimStart cs).rtakeWhile isBlank, ?_, ?_, ?_, ?_, ?_⟩
  · have hend : trim cs ++ (trimStart cs).rtakeWhile isBlank = trimStart cs :=
      List.rdropWhile_append_rtakeWhile
    rw [List.append_assoc, hend, trimStart, List.takeWhile_append_dropWhile]
  · exact fun c hc ↦ List.mem_takeWhile_imp hc
  · exact fun c hc ↦ List.mem_rtakeWhile_imp hc
  · -- What is left begins as the text without the blanks at its front.
    intro c hc
    obtain ⟨rest, hrest⟩ : trim cs <+: cs.dropWhile isBlank := List.rdropWhile_prefix _ _
    have hfirst : (cs.dropWhile isBlank).head? = some c := by
      rw [← hrest, List.head?_append, hc]
      rfl
    exact head?_dropWhile hfirst
  · intro c hc
    rw [trim, trimEnd, List.getLast?_reverse] at hc
    exact head?_dropWhile hc

theorem trim_append_left (h : AllBlank front) (cs : List Char) : trim (front ++ cs) = trim cs := by
  obtain ⟨first, back, hcs, hfirst, hback, htrim⟩ := exists_trim cs
  rw [hcs, ← List.append_assoc, ← List.append_assoc, trim_eq (h.append hfirst) htrim hback,
    trim_eq hfirst htrim hback]

theorem trim_append_right (h : AllBlank back) (cs : List Char) : trim (cs ++ back) = trim cs := by
  obtain ⟨front, last, hcs, hfront, hlast, htrim⟩ := exists_trim cs
  rw [hcs, List.append_assoc, trim_eq hfront htrim (hlast.append h), trim_eq hfront htrim hlast]

theorem allBlank_of_trim (h : trim cs = []) : AllBlank cs := by
  obtain ⟨front, back, hcs, hfront, hback, -⟩ := exists_trim cs
  rw [hcs, h, List.append_nil]
  exact hfront.append hback

/-- A text without blanks at its ends stays as it is. -/
theorem Trimmed.trim_eq (h : Trimmed cs) : trim cs = cs := by
  have heq := Text.trim_eq allBlank_nil h allBlank_nil
  rwa [List.nil_append, List.append_nil] at heq

theorem trimmed_trim (cs : List Char) : Trimmed (trim cs) := by
  obtain ⟨-, -, -, -, -, htrim⟩ := exists_trim cs
  exact htrim

theorem trim_trim (cs : List Char) : trim (trim cs) = trim cs := (trimmed_trim cs).trim_eq

/-- What a text ends with stays if it has no blanks at its own ends. -/
theorem Trimmed.suffix_trim_append (h : Trimmed cs) (before : List Char) :
    cs <:+ trim (before ++ cs) := by
  have hstart : cs <:+ trimStart (before ++ cs) := by
    rw [trimStart, List.dropWhile_append]
    split
    · have hcs : trimStart ([] ++ cs) = cs := trimStart_append allBlank_nil h.head
      exact ⟨[], hcs.symm⟩
    · exact List.suffix_append _ _
  obtain ⟨more, hmore⟩ := hstart
  cases cs with
  | nil => exact List.nil_suffix
  | cons c rest =>
      have hlast : ∀ d ∈ (more ++ c :: rest).getLast?, isBlank d = false := by
        rw [List.getLast?_append_of_ne_nil _ (List.cons_ne_nil c rest)]
        exact h.last
      have hend := trimEnd_append allBlank_nil hlast
      rw [List.append_nil] at hend
      rw [trim, ← hmore, hend]
      exact List.suffix_append _ _

theorem length_trim_le (cs : List Char) : (trim cs).length ≤ cs.length := by
  obtain ⟨front, back, hcs, -, -, -⟩ := exists_trim cs
  have hlength := congrArg List.length hcs
  rw [List.length_append, List.length_append] at hlength
  omega

/-! ### Cutting -/

section

variable {mark before after : List Char} {c : Char}

/-- A text cannot be cut just if the mark does not stand in it. -/
theorem cut?_eq_none : cut? mark cs = none ↔ ¬ mark <:+: cs := by
  constructor
  · intro hnone
    induction cs with
    | nil =>
        rw [cut?] at hnone
        split at hnone
        · cases hnone
        · next hmark => simpa using hmark
    | cons c cs ih =>
        rw [cut?] at hnone
        split at hnone
        · cases hnone
        · next hstart =>
            rw [List.infix_cons_iff, not_or, ← List.isPrefixOf_iff_prefix]
            exact ⟨hstart, ih (Option.map_eq_none_iff.mp hnone)⟩
  · intro h
    cases hcut : cut? mark cs with
    | none => rfl
    | some parts => exact absurd ⟨parts.1, parts.2, (cut?_eq_some hcut).symm⟩ h

theorem cut?_append_self (hmark : mark ≠ []) (after : List Char) :
    cut? mark (mark ++ after) = some ([], after) := by
  cases mark with
  | nil => exact absurd rfl hmark
  | cons m rest =>
      have hprefix : (m :: rest).isPrefixOf (m :: (rest ++ after)) = true :=
        List.isPrefixOf_iff_prefix.mpr (List.prefix_append _ _)
      rw [List.cons_append, cut?, if_pos hprefix, ← List.cons_append, List.drop_left]

/-- A mark does not reach over a character that is not in it. -/
theorem prefix_of_prefix_append (hc : c ∉ mark) (h : mark <+: before ++ c :: after) :
    mark <+: before := by
  obtain ⟨rest, hrest⟩ := h
  rcases List.append_eq_append_iff.mp hrest with ⟨more, hmore, -⟩ | ⟨more, hmore, hafter⟩
  · exact ⟨more, hmore.symm⟩
  · cases more with
    | nil => exact ⟨[], by rw [hmore, List.append_nil, List.append_nil]⟩
    | cons d more =>
        obtain ⟨rfl, -⟩ := List.cons.inj hafter
        exact absurd (hmore ▸ by simp) hc

theorem infix_append_cons (hmark : mark ≠ []) (hc : c ∉ mark) :
    mark <:+: before ++ c :: after ↔ mark <:+: before ∨ mark <:+: after := by
  constructor
  · intro h
    induction before with
    | nil =>
        rcases List.infix_cons_iff.mp h with h | h
        · have hnil : mark <+: [] := prefix_of_prefix_append hc h
          exact absurd (List.prefix_nil.mp hnil) hmark
        · exact .inr h
    | cons b before ih =>
        rcases List.infix_cons_iff.mp h with h | h
        · have hprefix : mark <+: b :: before := prefix_of_prefix_append hc h
          exact .inl hprefix.isInfix
        · exact (ih h).imp_left (List.infix_cons)
  · rintro (h | h)
    · exact h.trans (List.prefix_append _ _).isInfix
    · exact h.trans ((List.suffix_cons _ _).trans (List.suffix_append _ _)).isInfix

/-- The first place of a mark is the one behind a text in which it does not stand. -/
theorem cut?_append (hmark : mark ≠ []) (hc : c ∉ mark) (hbefore : ¬ mark <:+: before)
    (after : List Char) :
    cut? mark (before ++ c :: (mark ++ after)) = some (before ++ [c], after) := by
  induction before with
  | nil =>
      have hprefix : ¬ mark.isPrefixOf (c :: (mark ++ after)) = true := by
        rw [List.isPrefixOf_iff_prefix]
        intro h
        have hnil : mark <+: [] := prefix_of_prefix_append hc h
        exact hmark (List.prefix_nil.mp hnil)
      rw [List.nil_append, cut?, if_neg hprefix, cut?_append_self hmark]
      rfl
  | cons b before ih =>
      have hprefix : ¬ mark.isPrefixOf (b :: (before ++ c :: (mark ++ after))) = true := by
        rw [List.isPrefixOf_iff_prefix]
        intro h
        have hinner : mark <+: b :: before := prefix_of_prefix_append hc h
        exact hbefore hinner.isInfix
      rw [List.cons_append, cut?, if_neg hprefix, ih (fun h ↦ hbefore (List.infix_cons h))]
      rfl

/-- A text is cut at a character that does not stand before it. -/
theorem cut?_singleton (h : c ∉ before) (after : List Char) :
    cut? [c] (before ++ c :: after) = some (before, after) := by
  induction before with
  | nil => exact cut?_append_self (List.cons_ne_nil c []) after
  | cons b before ih =>
      obtain ⟨hne, hrest⟩ := List.ne_and_not_mem_of_not_mem_cons h
      rw [List.cons_append, cut?, if_neg (by simpa using hne), ih hrest]
      rfl

end

/-! ### Pieces -/

section

variable {mark : Char} {texts : List (List Char)}

theorem pieces_eq_splitOn (mark : Char) (cs : List Char) : pieces mark cs = cs.splitOn mark := by
  induction cs with
  | nil => rfl
  | cons c cs ih =>
      rw [pieces, ih, List.splitOn_cons_eq_if_modifyHead]
      simp only [beq_iff_eq]
      cases hpieces : cs.splitOn mark with
      | nil => exact absurd hpieces (List.splitOn_ne_nil mark cs)
      | cons first rest => rfl

theorem not_mem_of_mem_pieces {piece : List Char} (h : piece ∈ pieces mark cs) : mark ∉ piece := by
  fun_induction pieces mark cs generalizing piece with
  | case1 => simp [List.mem_singleton.mp h]
  | case2 cs ih =>
      rcases List.mem_cons.mp h with rfl | h
      · exact List.not_mem_nil
      · exact ih h
  | case3 c cs hc hpieces => exact absurd hpieces (pieces_ne_nil mark cs)
  | case4 c cs hc first rest hpieces ih =>
      rw [hpieces] at ih
      rcases List.mem_cons.mp h with rfl | h
      · exact List.not_mem_cons_of_ne_of_not_mem (Ne.symm hc) (ih List.mem_cons_self)
      · exact ih (List.mem_cons_of_mem first h)

/-- The pieces of a text are those that the mark does not stand in and that it joins to the text. -/
theorem pieces_eq_iff :
    pieces mark cs = texts ↔
      texts ≠ [] ∧ [mark].intercalate texts = cs ∧ ∀ text ∈ texts, mark ∉ text := by
  constructor
  · rintro rfl
    refine ⟨pieces_ne_nil mark cs, ?_, fun text ↦ not_mem_of_mem_pieces⟩
    rw [pieces_eq_splitOn, List.intercalate_splitOn]
  · rintro ⟨hne, rfl, hfree⟩
    rw [pieces_eq_splitOn, List.splitOn_intercalate mark hfree hne]

end

end Chronicle.Text

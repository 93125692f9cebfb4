import Chronicle.Proofs.Condition.Operands

/-!
# Where a text is cut

A text is cut at the places where a connective stands outside parentheses, from the left and without
those that reach into the connective before. There is one such choice of places, `Leftmost.unique`.
The parts are what stands between them, so the connective joins the parts to the text again and
stands outside parentheses in none of them: `cuts_leftmost`.
-/

namespace Chronicle.Condition

/-- The connective stands outside parentheses at a place of a text that begins at the given
depth. -/
def StandsAt (mark : Char) (d : Int) (cs : List Char) (n : Nat) : Prop :=
  [mark, mark] <+: cs.drop n ∧ d + depth (cs.take n) = 0

instance (mark : Char) (d : Int) (cs : List Char) (n : Nat) : Decidable (StandsAt mark d cs n) :=
  inferInstanceAs (Decidable (_ ∧ _))

/-- The places of a connective that are taken from the left: no two of them overlap, and a place is
left out only if the connective there begins within one that is taken. -/
structure Leftmost (stands : Nat → Prop) (places : List Nat) : Prop where
  found : ∀ n ∈ places, stands n
  apart : places.Pairwise fun m n ↦ m + 2 ≤ n
  covers : ∀ n, stands n → ∃ m ∈ places, m ≤ n ∧ n < m + 2

/-- What stands from a start on before, between, and behind the connectives at the given places. -/
def piecesFrom (cs : List Char) (start : Nat) : List Nat → List (List Char)
  | [] => [cs.drop start]
  | n :: places => (cs.take n).drop start :: piecesFrom cs (n + 2) places

variable {mark c e : Char} {d : Int} {cs rest : List Char} {n : Nat}

/-! ### Places of a connective -/

theorem StandsAt.add_two_le (h : StandsAt mark d cs n) : n + 2 ≤ cs.length := by
  have hlength := h.1.length_le
  rw [List.length_drop, List.length_cons, List.length_singleton] at hlength
  omega

theorem not_standsAt (h : cs.length < 2) (n : Nat) : ¬ StandsAt mark d cs n := by
  intro hn
  have hend := hn.add_two_le
  omega

theorem standsAt_zero : StandsAt mark d (c :: e :: rest) 0 ↔ d = 0 ∧ c = mark ∧ e = mark := by
  simp only [StandsAt, List.drop_zero, List.take_zero, depth_nil, Int.add_zero,
    List.cons_prefix_cons, List.nil_prefix, and_true]
  constructor
  · rintro ⟨⟨hc, he⟩, hd⟩
    exact ⟨hd, hc.symm, he.symm⟩
  · rintro ⟨hd, hc, he⟩
    exact ⟨⟨hc.symm, he.symm⟩, hd⟩

theorem standsAt_succ :
    StandsAt mark d (c :: cs) (n + 1) ↔ StandsAt mark (depthAfter d c) cs n := by
  rw [StandsAt, StandsAt, List.drop_succ_cons, List.take_succ_cons, depth_cons, ← Int.add_assoc,
    depthAfter_eq]

theorem standsOutside_iff_standsAt : StandsOutside mark cs ↔ ∃ n, StandsAt mark 0 cs n := by
  constructor
  · rintro ⟨before, after, rfl, hdepth⟩
    refine ⟨before.length, ?_, ?_⟩
    · rw [List.drop_left]
      exact ⟨after, rfl⟩
    · rw [List.take_left, Int.zero_add, hdepth]
  · rintro ⟨n, ⟨after, hafter⟩, hdepth⟩
    refine ⟨cs.take n, after, ?_, by rwa [Int.zero_add] at hdepth⟩
    exact (List.take_append_drop n cs).symm.trans (congrArg _ hafter.symm)

/-! ### Places taken from the left -/

namespace Leftmost

variable {stands : Nat → Prop} {places others : List Nat} {m : Nat}

theorem nil (h : ∀ n, ¬ stands n) : Leftmost stands [] :=
  ⟨fun _ hn ↦ absurd hn List.not_mem_nil, .nil, fun n hn ↦ absurd hn (h n)⟩

/-- A connective at the start is taken, and then those behind it. -/
theorem cons (hzero : stands 0) (h : Leftmost (fun n ↦ stands (2 + n)) places) :
    Leftmost stands (0 :: places.map (2 + ·)) := by
  refine ⟨?_, List.pairwise_cons.mpr ⟨?_, ?_⟩, fun n hn ↦ ?_⟩
  · exact List.forall_mem_cons.mpr ⟨hzero, List.forall_mem_map.mpr h.found⟩
  · rw [List.forall_mem_map]
    intro n _
    omega
  · exact List.pairwise_map.mpr (h.apart.imp fun hmn ↦ by omega)
  · by_cases hearly : n < 2
    · exact ⟨0, List.mem_cons_self, Nat.zero_le n, hearly⟩
    · obtain ⟨k, rfl⟩ := Nat.exists_eq_add_of_le (Nat.le_of_not_lt hearly)
      obtain ⟨m, hm, hle, hlt⟩ := h.covers k hn
      exact ⟨2 + m, List.mem_cons_of_mem 0 (List.mem_map_of_mem hm), by omega, by omega⟩

/-- Where no connective stands at the start, those behind it are taken. -/
theorem skip (hzero : ¬ stands 0) (h : Leftmost (fun n ↦ stands (1 + n)) places) :
    Leftmost stands (places.map (1 + ·)) := by
  refine ⟨List.forall_mem_map.mpr h.found, ?_, fun n hn ↦ ?_⟩
  · exact List.pairwise_map.mpr (h.apart.imp fun hmn ↦ by omega)
  · cases n with
    | zero => exact absurd hn hzero
    | succ k =>
        rw [Nat.add_comm] at hn
        obtain ⟨m, hm, hle, hlt⟩ := h.covers k hn
        exact ⟨1 + m, List.mem_map_of_mem hm, by omega, by omega⟩

/-- Behind the first place, those are taken that the connective there does not reach into. -/
theorem tail (h : Leftmost stands (m :: places)) :
    Leftmost (fun n ↦ stands n ∧ m + 2 ≤ n) places := by
  obtain ⟨hbehind, hapart⟩ := List.pairwise_cons.mp h.apart
  refine ⟨fun n hn ↦ ⟨h.found n (List.mem_cons_of_mem m hn), hbehind n hn⟩, hapart, ?_⟩
  rintro n ⟨hn, hle⟩
  obtain ⟨k, hk, hfrom, hto⟩ := h.covers n hn
  rcases List.mem_cons.mp hk with rfl | hk
  · omega
  · exact ⟨k, hk, hfrom, hto⟩

/-- No connective stands before the first place that is taken. -/
theorem head_le (h : Leftmost stands (m :: places)) (hn : stands n) : m ≤ n := by
  obtain ⟨k, hk, hfrom, -⟩ := h.covers n hn
  rcases List.mem_cons.mp hk with rfl | hk
  · exact hfrom
  · have hbehind := (List.pairwise_cons.mp h.apart).1 k hk
    omega

/-- There is only one way to take places from the left. -/
theorem unique (h : Leftmost stands places) (hothers : Leftmost stands others) :
    others = places := by
  induction places generalizing stands others with
  | nil =>
      cases others with
      | nil => rfl
      | cons n others =>
          obtain ⟨m, hm, -⟩ := h.covers n (hothers.found n List.mem_cons_self)
          exact absurd hm List.not_mem_nil
  | cons m places ih =>
      cases others with
      | nil =>
          obtain ⟨n, hn, -⟩ := hothers.covers m (h.found m List.mem_cons_self)
          exact absurd hn List.not_mem_nil
      | cons n others =>
          have hle := h.head_le (hothers.found n List.mem_cons_self)
          have hge := hothers.head_le (h.found m List.mem_cons_self)
          obtain rfl := Nat.le_antisymm hge hle
          rw [ih h.tail hothers.tail]

end Leftmost

/-! ### The parts as pieces -/

/-- What stands in front of a text moves the places in it. -/
theorem piecesFrom_append (front cs : List Char) (start : Nat) (places : List Nat) :
    piecesFrom (front ++ cs) (front.length + start) (places.map (front.length + ·)) =
      piecesFrom cs start places := by
  induction places generalizing start with
  | nil =>
      show [(front ++ cs).drop (front.length + start)] = [cs.drop start]
      rw [List.drop_length_add_append]
  | cons n places ih =>
      show ((front ++ cs).take (front.length + n)).drop (front.length + start) ::
          piecesFrom (front ++ cs) (front.length + n + 2) (places.map (front.length + ·)) =
        (cs.take n).drop start :: piecesFrom cs (n + 2) places
      rw [List.take_length_add_append, List.drop_length_add_append, Nat.add_assoc, ih]

theorem piecesFrom_cons (c : Char) (cs : List Char) (places : List Nat) :
    piecesFrom (c :: cs) 0 (places.map (1 + ·)) =
      (piecesFrom cs 0 places).modifyHead (c :: ·) := by
  cases places with
  | nil => rfl
  | cons n places =>
      have hrest := piecesFrom_append [c] cs (n + 2) places
      rw [List.length_singleton, ← Nat.add_assoc] at hrest
      show ((c :: cs).take (1 + n)).drop 0 :: piecesFrom ([c] ++ cs) (1 + n + 2) _ = _
      rw [hrest, Nat.add_comm 1 n, List.take_succ_cons]
      rfl

/-- The parts of a text are what stands between the connectives that are taken from the left. -/
theorem exists_leftmost (hmark : depth [mark] = 0) (d : Int) (cs : List Char) :
    ∃ places, Leftmost (StandsAt mark d cs) places ∧ parts mark d cs = piecesFrom cs 0 places := by
  fun_induction parts mark d cs with
  | case1 d => exact ⟨[], .nil (not_standsAt (by simp)), rfl⟩
  | case2 d c => exact ⟨[], .nil (not_standsAt (by simp)), rfl⟩
  | case3 d c e rest hmatch ih =>
      obtain ⟨places, hplaces, hparts⟩ := ih
      refine ⟨0 :: places.map (2 + ·), .cons (standsAt_zero.mpr hmatch) ?_, ?_⟩
      · obtain ⟨-, rfl, rfl⟩ := hmatch
        have hdepth : depthAfter (depthAfter d e) e = d := by
          rw [depthAfter_eq, depthAfter_eq, hmark]
          omega
        simpa only [Nat.add_comm 2, standsAt_succ, hdepth] using hplaces
      · have hrest := piecesFrom_append [c, e] rest 0 places
        rw [hparts, ← hrest]
        rfl
  | case4 d c e rest hmatch ih =>
      obtain ⟨places, hplaces, hparts⟩ := ih
      refine ⟨places.map (1 + ·), .skip (mt standsAt_zero.mp hmatch) ?_, ?_⟩
      · simpa only [Nat.add_comm 1, standsAt_succ] using hplaces
      · rw [hparts, piecesFrom_cons]

/-- A part begins as the text does. -/
theorem eq_of_parts_cons {first : List Char} {others : List (List Char)}
    (h : parts mark d (e :: rest) = (c :: first) :: others) : c = e := by
  have hjoin := intercalate_parts mark d (e :: rest)
  rw [h] at hjoin
  cases others with
  | nil =>
      rw [List.intercalate_singleton] at hjoin
      exact (List.cons.inj hjoin).1
  | cons next others =>
      rw [List.intercalate_cons_cons] at hjoin
      exact (List.cons.inj hjoin).1

/-- Parts are not taken apart any more. -/
theorem parts_of_parts {first : List Char} {others : List (List Char)}
    (h : parts mark d cs = first :: others) :
    parts mark d first = [first] ∧ ∀ part ∈ others, parts mark 0 part = [part] := by
  fun_induction parts mark d cs generalizing first others with
  | case1 d =>
      obtain ⟨rfl, rfl⟩ := List.cons.inj h
      exact ⟨rfl, fun part hpart ↦ absurd hpart List.not_mem_nil⟩
  | case2 d c =>
      obtain ⟨rfl, rfl⟩ := List.cons.inj h
      exact ⟨rfl, fun part hpart ↦ absurd hpart List.not_mem_nil⟩
  | case3 d c e rest hmatch ih =>
      obtain ⟨rfl, rfl⟩ := List.cons.inj h
      obtain ⟨rfl, -, -⟩ := hmatch
      obtain ⟨next, more, hparts⟩ := List.exists_cons_of_ne_nil (parts_ne_nil mark 0 rest)
      rw [hparts]
      exact ⟨rfl, List.forall_mem_cons.mpr (ih hparts)⟩
  | case4 d c e rest hmatch ih =>
      obtain ⟨inner, more, hparts⟩ :=
        List.exists_cons_of_ne_nil (parts_ne_nil mark (depthAfter d c) (e :: rest))
      obtain ⟨hinner, hmore⟩ := ih hparts
      rw [hparts] at h
      obtain ⟨rfl, rfl⟩ := List.cons.inj h
      refine ⟨?_, hmore⟩
      cases inner with
      | nil => rfl
      | cons f inner =>
          -- No connective stands across the first two characters, here or in the part.
          obtain rfl := eq_of_parts_cons hparts
          rw [parts, if_neg hmatch, hinner]
          rfl

theorem parts_of_mem_parts (mark : Char) (cs : List Char) :
    ∀ part ∈ parts mark 0 cs, parts mark 0 part = [part] := by
  obtain ⟨first, others, hparts⟩ := List.exists_cons_of_ne_nil (parts_ne_nil mark 0 cs)
  rw [hparts]
  exact List.forall_mem_cons.mpr (parts_of_parts hparts)

/-- A text is taken apart just if the connective stands outside parentheses. The operands are then
what stands between its places, taken from the left, without blanks and without a blank last one.
The connective joins the pieces to the text, and no operand is taken apart by it again. -/
theorem cuts_leftmost (hmark : mark ∈ connectives) (cs : List Char) :
    (operands? mark cs = none ↔ ∀ n, ¬ StandsAt mark 0 cs n) ∧
    ∀ texts, operands? mark cs = some texts →
      (∃ places, (∀ others, Leftmost (StandsAt mark 0 cs) others ↔ others = places) ∧
        [mark, mark].intercalate (piecesFrom cs 0 places) = cs ∧
        texts = withoutBlankLast ((piecesFrom cs 0 places).map Text.trim)) ∧
      ∀ text ∈ texts, operands? mark text = none := by
  refine ⟨?_, fun texts htexts ↦ ?_⟩
  · rw [operands?_eq_none_iff, standsOutside_iff_standsAt, not_exists]
  rw [operands?_eq, Option.ite_none_left_eq_some] at htexts
  obtain ⟨-, heq⟩ := htexts
  cases Option.some.inj heq
  refine ⟨?_, fun text htext ↦ ?_⟩
  · obtain ⟨places, hplaces, hparts⟩ := exists_leftmost (isMark_of_mem hmark).flat 0 cs
    have hjoin := intercalate_parts mark 0 cs
    rw [hparts] at hjoin
    refine ⟨places, fun others ↦ ⟨hplaces.unique, fun heq ↦ heq ▸ hplaces⟩, hjoin, ?_⟩
    rw [trimmedParts, hparts]
  · obtain ⟨part, hpart, rfl⟩ := List.mem_map.mp (withoutBlankLast_subset _ htext)
    rw [operands?_trim (isMark_of_mem hmark)]
    exact operands?_eq_none (parts_of_mem_parts mark cs part hpart)

/-- A connective at either end, in parentheses, with a mark too many, and where more parentheses are
closed than opened. -/
theorem cuts_leftmost_overlapping :
    let cs := "||(a || b)||| c) || d (|| e ||".toList
    let texts := ["", "(a || b)", "| c) || d (", "e"].map String.toList
    '|' ∈ connectives ∧ operands? '|' cs = some texts ∧
      Leftmost (StandsAt '|' 0 cs) [0, 10, 23, 28] ∧
      ['|', '|'].intercalate (piecesFrom cs 0 [0, 10, 23, 28]) = cs ∧
      texts = withoutBlankLast ((piecesFrom cs 0 [0, 10, 23, 28]).map Text.trim) ∧
      ∀ text ∈ texts, operands? '|' text = none := by
  intro cs texts
  have hmark : '|' ∈ connectives := by decide
  have htexts : operands? '|' cs = some texts := by decide
  have hplaces : Leftmost (StandsAt '|' 0 cs) [0, 10, 23, 28] := by
    refine ⟨by decide, by decide, fun n hn ↦ ?_⟩
    have hcovers : ∀ n < 29, StandsAt '|' 0 cs n →
        ∃ m ∈ [0, 10, 23, 28], m ≤ n ∧ n < m + 2 := by decide
    have hend : n + 2 ≤ 30 := hn.add_two_le
    exact hcovers n (by omega) hn
  obtain ⟨-, hcut⟩ := cuts_leftmost hmark cs
  obtain ⟨⟨places, hunique, hjoin, htrimmed⟩, hwhole⟩ := hcut texts htexts
  obtain rfl := (hunique _).mp hplaces
  exact ⟨hmark, htexts, hplaces, hjoin, htrimmed, hwhole⟩

end Chronicle.Condition

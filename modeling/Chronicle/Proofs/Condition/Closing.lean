import Chronicle.Proofs.Condition.Compilation
import Mathlib.Data.Nat.Find

/-!
# Which parenthesis closes the first

The parenthesis that a text begins with is closed where the depth first returns to zero. A group is
a text between parentheses whose first is not closed before its last: `group?_eq_some`. Where the
text closes as many parentheses as it opens, this says that the last one closes the first. Where it
opens more, the first may not be closed at all, and the text is a group nevertheless.
-/

namespace Chronicle.Condition

variable {cs inner : List Char} {n k : Nat}

/-- The text begins with a parenthesis that is closed at the given place, which is the first one
behind which the depth is zero. -/
structure ClosesAt (n : Nat) (cs : List Char) : Prop where
  head : cs.head? = some '('
  lt : n < cs.length
  zero : depth (cs.take (n + 1)) = 0
  first : ∀ m < n, depth (cs.take (m + 1)) ≠ 0

theorem closesAt_iff :
    ClosesAt n cs ↔ cs.head? = some '(' ∧ n < cs.length ∧ depth (cs.take (n + 1)) = 0 ∧
      ∀ m < n, depth (cs.take (m + 1)) ≠ 0 :=
  ⟨fun ⟨hhead, hlt, hzero, hfirst⟩ ↦ ⟨hhead, hlt, hzero, hfirst⟩,
    fun ⟨hhead, hlt, hzero, hfirst⟩ ↦ ⟨hhead, hlt, hzero, hfirst⟩⟩

instance : Decidable (ClosesAt n cs) := decidable_of_iff _ closesAt_iff.symm

/-- The text stands between parentheses in the other one, whose first parenthesis is not closed
before its last. -/
structure Encloses (cs inner : List Char) : Prop where
  eq : cs = '(' :: (inner ++ [')'])
  last : ∀ n, ClosesAt n cs → n + 1 = cs.length

/-! ### Depth at a place -/

/-- No character closes more than one parenthesis. -/
theorem le_depth_singleton (c : Char) : -1 ≤ depth [c] := by
  by_cases hopen : c = '('
  · rw [hopen, depth_open]
    omega
  · by_cases hclose : c = ')'
    · rw [hclose]
      exact Int.le_of_eq depth_close.symm
    · rw [depth_singleton hopen hclose]
      omega

theorem depth_take_succ (cs : List Char) (n : Nat) :
    depth (cs.take n) - 1 ≤ depth (cs.take (n + 1)) := by
  rw [List.take_add_one, depth_append]
  cases cs[n]? with
  | none =>
      show depth (cs.take n) - 1 ≤ depth (cs.take n) + depth []
      rw [depth_nil]
      omega
  | some c =>
      have hc := le_depth_singleton c
      show depth (cs.take n) - 1 ≤ depth (cs.take n) + depth [c]
      omega

theorem staysInside_iff_take :
    staysInside 0 cs = true ↔ ∀ n ≤ cs.length, 0 ≤ depth (cs.take n) := by
  rw [staysInside_iff]
  constructor
  · intro h n _
    by_cases hnil : cs.take n = []
    · rw [hnil]
      exact Int.le_of_eq depth_nil.symm
    · have hdepth := h (cs.take n) (List.take_prefix n cs) hnil
      omega
  · intro h before hbefore _
    have hdepth := h before.length hbefore.length_le
    rw [← List.prefix_iff_eq_take.mp hbefore] at hdepth
    omega

/-- The depth behind a place inside the parentheses counts the first one. -/
theorem depth_take_enclosed (hn : n ≤ inner.length) :
    depth (('(' :: (inner ++ [')'])).take (n + 1)) = 1 + depth (inner.take n) := by
  rw [List.take_succ_cons, List.take_append_of_le_length hn, depth_cons, depth_open]

/-- Where a text goes below the depth it starts with, it first does so by one. -/
theorem exists_first_below (h : ¬ staysInside 0 cs = true) :
    ∃ n ≤ cs.length, depth (cs.take n) = -1 ∧ ∀ m < n, 0 ≤ depth (cs.take m) := by
  rw [staysInside_iff_take] at h
  simp only [not_forall, Int.not_le] at h
  obtain ⟨k, hk, hbelow⟩ := h
  have hexists : ∃ n, depth (cs.take n) < 0 := ⟨k, hbelow⟩
  have hfirst : ∀ m < Nat.find hexists, 0 ≤ depth (cs.take m) := fun m hm ↦
    Int.not_lt.mp (Nat.find_min hexists hm)
  have hspec := Nat.find_spec hexists
  refine ⟨Nat.find hexists, (Nat.find_min' hexists hbelow).trans hk, ?_, hfirst⟩
  generalize Nat.find hexists = n at hfirst hspec
  cases n with
  | zero => exact absurd hspec (by simp)
  | succ n =>
      have hbefore := hfirst n (Nat.lt_succ_self n)
      have hstep := depth_take_succ cs n
      omega

/-! ### Groups -/

/-- A group is a text between parentheses whose first is not closed before its last. -/
theorem group?_eq_some : group? cs = some inner ↔ Encloses cs inner := by
  constructor
  · intro h
    obtain rfl := eq_of_group? h
    have hinside := staysInside_iff_take.mp (group?_enclosed.mp h)
    refine ⟨rfl, fun n hn ↦ ?_⟩
    have hlt := hn.lt
    have hzero := hn.zero
    simp only [List.length_cons, List.length_append, List.length_nil] at hlt ⊢
    by_cases hlast : n ≤ inner.length
    · have hdepth := hinside n hlast
      rw [depth_take_enclosed hlast] at hzero
      omega
    · omega
  · rintro ⟨rfl, hlast⟩
    refine group?_enclosed.mpr (Decidable.byContradiction fun hbelow ↦ ?_)
    obtain ⟨n, hn, hdepth, hfirst⟩ := exists_first_below hbelow
    -- The first place below the depth inside the parentheses closes the one in front.
    have hcloses : ClosesAt n ('(' :: (inner ++ [')'])) := by
      refine ⟨rfl, ?_, ?_, fun m hm ↦ ?_⟩
      · simp only [List.length_cons, List.length_append, List.length_nil]
        omega
      · rw [depth_take_enclosed hn, hdepth]
        rfl
      · have hpos := hfirst m hm
        rw [depth_take_enclosed (by omega)]
        omega
    have hend := hlast n hcloses
    simp only [List.length_cons, List.length_append, List.length_nil] at hend
    omega

/-- Where as many parentheses are closed as opened, the first one of a group is closed by the
last. -/
theorem encloses_iff (heven : depth cs = 0) :
    Encloses cs inner ↔ cs = '(' :: (inner ++ [')']) ∧ ClosesAt (cs.length - 1) cs := by
  constructor
  · intro h
    obtain rfl := h.eq
    have hinside := staysInside_iff_take.mp (group?_enclosed.mp (group?_eq_some.mpr h))
    refine ⟨rfl, rfl, by simp, ?_, fun m hm ↦ ?_⟩
    · rw [Nat.sub_add_cancel (by simp), List.take_length, heven]
    · simp only [List.length_cons, List.length_append, List.length_nil] at hm
      have hdepth := hinside m (by omega)
      rw [depth_take_enclosed (by omega)]
      omega
  · rintro ⟨heq, hlast⟩
    refine ⟨heq, fun n hn ↦ ?_⟩
    have hlt := hn.lt
    by_cases hbefore : n < cs.length - 1
    · exact absurd hn.zero (hlast.first n hbefore)
    · omega

theorem group?_eq_none_iff : group? cs = none ↔ ∀ inner, ¬ Encloses cs inner := by
  rw [Option.eq_none_iff_forall_not_mem]
  exact forall_congr' fun inner ↦ not_congr group?_eq_some

/-- A text whose last character closes its first closes all that it opens. -/
theorem ClosesAt.depth_eq_zero (h : ClosesAt (cs.length - 1) cs) : depth cs = 0 := by
  have hzero := h.zero
  have hlt := h.lt
  rwa [Nat.sub_add_cancel (by omega), List.take_length] at hzero

/-- The groups are the texts whose last character closes the first, except where a group is not
closed at all. -/
theorem group?_closes_iff :
    (∀ inner, group? cs = some inner ↔ cs = '(' :: (inner ++ [')']) ∧ ClosesAt (cs.length - 1) cs) ↔
      depth cs = 0 ∨ group? cs = none := by
  constructor
  · intro h
    cases hgroup : group? cs with
    | none => exact .inr rfl
    | some inner => exact .inl ((h inner).mp hgroup).2.depth_eq_zero
  · rintro (heven | hnone) inner
    · rw [group?_eq_some, encloses_iff heven]
    · rw [hnone]
      refine ⟨nofun, fun ⟨heq, hlast⟩ ↦ ?_⟩
      have hencloses := (encloses_iff hlast.depth_eq_zero).mpr ⟨heq, hlast⟩
      exact absurd hencloses (group?_eq_none_iff.mp hnone inner)

/-! ### Conditions without their parentheses -/

/-- A text without a group is taken apart as it stands. -/
theorem Undivided.compile_of_not_encloses (h : Undivided cs) (hnot : negated? cs = none)
    (hgroup : ∀ inner, ¬ Encloses cs inner) :
    compile cs =
      match comparison? cs with
      | some (op, left, right) => .compare op (compile left) (compile right)
      | none =>
      match operation? cs with
      | some (op, left, right) => .arith op (compile left) (compile right)
      | none => leaf compile cs := by
  have hcompile := h.compile_eq
  rw [hnot, group?_eq_none_iff.mpr hgroup] at hcompile
  exact hcompile

theorem negated?_cons {rest : List Char} (h : rest.head? ≠ some '=') :
    negated? ('!' :: rest) = some ((group? (Text.trim rest)).getD (Text.trim rest)) := by
  rw [negated?, if_neg h]

/-- Parentheses are taken off a text, and off what is negated, just if the first is not closed
before the last. The last closes the first then, unless the first is not closed at all. -/
theorem strips_enclosed (cs : List Char) :
    (∀ inner, group? cs = some inner ↔ Encloses cs inner) ∧
    ((∀ inner, group? cs = some inner ↔
        cs = '(' :: (inner ++ [')']) ∧ ClosesAt (cs.length - 1) cs) ↔
      depth cs = 0 ∨ group? cs = none) ∧
    (Undivided cs → negated? cs = none →
      (∀ inner, Encloses cs inner → compile cs = compile inner) ∧
      ((∀ inner, ¬ Encloses cs inner) → compile cs =
        match comparison? cs with
        | some (op, left, right) => .compare op (compile left) (compile right)
        | none =>
        match operation? cs with
        | some (op, left, right) => .arith op (compile left) (compile right)
        | none => leaf compile cs)) ∧
    (Undivided ('!' :: cs) → cs.head? ≠ some '=' →
      (∀ inner, Encloses (Text.trim cs) inner → compile ('!' :: cs) = .not (compile inner)) ∧
      ((∀ inner, ¬ Encloses (Text.trim cs) inner) →
        compile ('!' :: cs) = .not (compile (Text.trim cs)))) := by
  refine ⟨fun inner ↦ group?_eq_some, group?_closes_iff, fun h hnot ↦ ⟨?_, ?_⟩,
    fun h hequals ↦ ⟨?_, ?_⟩⟩
  · intro inner hencloses
    exact h.compile_group hnot (group?_eq_some.mpr hencloses)
  · exact h.compile_of_not_encloses hnot
  · intro inner hencloses
    rw [h.compile_not (negated?_cons hequals), group?_eq_some.mpr hencloses, Option.getD_some]
  · intro hgroup
    rw [h.compile_not (negated?_cons hequals), group?_eq_none_iff.mpr hgroup, Option.getD_none]

/-- Groups inside a group, side by side, and behind a negation. -/
theorem strips_enclosed_nested :
    (ClosesAt 10 "((a) + (b))".toList ∧ group? "((a) + (b))".toList = some "(a) + (b)".toList ∧
      compile "((a) + (b))".toList = compile "(a) + (b)".toList) ∧
    (ClosesAt 2 "(a) + (b)".toList ∧
      compile "(a) + (b)".toList = .arith .add (compile "(a) ".toList) (compile " (b)".toList)) ∧
    compile "! (a)".toList = .not (compile "a".toList) ∧
    compile "!(a)(b)".toList = .not (compile "(a)(b)".toList) := by
  have heven : ∀ cs inner, depth cs = 0 →
      (Encloses cs inner ↔ cs = '(' :: (inner ++ [')']) ∧ ClosesAt (cs.length - 1) cs) := by
    intro cs inner hdepth
    obtain ⟨hgroup, hcloses, -, -⟩ := strips_enclosed cs
    rw [← hgroup, hcloses.mpr (.inl hdepth)]
  have hencloses : Encloses "((a) + (b))".toList "(a) + (b)".toList :=
    (heven _ _ (by decide)).mpr ⟨by decide, by decide⟩
  have hinner : Encloses "(a)".toList "a".toList :=
    (heven _ _ (by decide)).mpr ⟨by decide, by decide⟩
  have hapart : ∀ inner, ¬ Encloses "(a) + (b)".toList inner := fun inner h ↦
    absurd ((heven _ inner (by decide)).mp h).2 (by decide)
  have hbeside : ∀ inner, ¬ Encloses "(a)(b)".toList inner := fun inner h ↦
    absurd ((heven _ inner (by decide)).mp h).2 (by decide)
  have hundivided : ∀ cs, Text.trim cs = cs → cs ≠ [] → operands? '|' cs = none →
      operands? '&' cs = none → Undivided cs :=
    fun cs htrim hne hor hand ↦ ⟨htrim ▸ Text.trimmed_trim cs, hne,
      List.forall_mem_cons.mpr ⟨hor, List.forall_mem_singleton.mpr hand⟩⟩
  refine ⟨⟨by decide, ((strips_enclosed _).1 _).mpr hencloses, ?_⟩, ⟨by decide, ?_⟩, ?_, ?_⟩
  · refine ((strips_enclosed _).2.2.1 (hundivided _ ?_ ?_ ?_ ?_) (by decide)).1 _ hencloses
    all_goals decide
  · refine ((strips_enclosed _).2.2.1 (hundivided _ ?_ ?_ ?_ ?_) (by decide)).2 hapart
    all_goals decide
  · have hnegated := (strips_enclosed " (a)".toList).2.2.2
    refine (hnegated (hundivided _ ?_ ?_ ?_ ?_) (by decide)).1 _ hinner
    all_goals decide
  · have hnegated := (strips_enclosed "(a)(b)".toList).2.2.2
    refine (hnegated (hundivided _ ?_ ?_ ?_ ?_) (by decide)).2 hbeside
    all_goals decide

/-- The first parenthesis of a group need not be closed at all. -/
theorem group?_unclosed :
    group? "((a)".toList = some "(a".toList ∧ (∀ n, ¬ ClosesAt n "((a)".toList) ∧
      compile "((a)".toList = .name (nameOf "(a".toList) := by
  have hnever : ∀ n < 4, ¬ ClosesAt n "((a)".toList := by decide
  exact ⟨by decide, fun n h ↦ hnever n h.lt h, by decide +kernel⟩

end Chronicle.Condition

import Chronicle.Condition.Grouping
import Chronicle.Proofs.Text

/-!
# Depth and groups

A text is balanced if it closes every parenthesis and none before it is opened. A balanced text in
parentheses is a group, `group?_group`, and not if something follows, `group?_group_append`.
-/

namespace Chronicle.Condition

/-- The number of opening less the number of closing parentheses. -/
def depth (cs : List Char) : Int := cs.count '(' - cs.count ')'

/-- Every parenthesis is closed, and none is closed before it is opened. -/
structure Balanced (cs : List Char) : Prop where
  total : depth cs = 0
  inside : ∀ before, before <+: cs → 0 ≤ depth before

/-! ### Depth -/

variable {c : Char} {a b cs rest : List Char}

@[simp]
theorem depth_nil : depth [] = 0 := rfl

@[simp]
theorem depth_append (a b : List Char) : depth (a ++ b) = depth a + depth b := by
  simp only [depth, List.count_append]
  omega

theorem depth_cons (c : Char) (cs : List Char) : depth (c :: cs) = depth [c] + depth cs :=
  depth_append [c] cs

@[simp]
theorem depth_open : depth ['('] = 1 := rfl

@[simp]
theorem depth_close : depth [')'] = -1 := rfl

theorem depth_singleton (hopen : c ≠ '(') (hclose : c ≠ ')') : depth [c] = 0 := by
  simp [depth, hopen, hclose]

theorem depthAfter_eq (d : Int) (c : Char) : depthAfter d c = d + depth [c] := by
  unfold depthAfter
  by_cases hopen : c = '('
  · rw [if_pos hopen, hopen, depth_open]
  · by_cases hclose : c = ')'
    · rw [if_neg hopen, if_pos hclose, hclose, depth_close]
      rfl
    · rw [if_neg hopen, if_neg hclose, depth_singleton hopen hclose, Int.add_zero]

theorem depth_of_forall (h : ∀ c ∈ cs, depth [c] = 0) : depth cs = 0 := by
  induction cs with
  | nil => rfl
  | cons c rest ih =>
      obtain ⟨hc, hrest⟩ := List.forall_mem_cons.mp h
      rw [depth_cons, hc, ih hrest]
      rfl

theorem depth_isBlank (h : Text.isBlank c = true) : depth [c] = 0 := by
  refine depth_singleton ?_ ?_
  · rintro rfl
    exact absurd h (by decide)
  · rintro rfl
    exact absurd h (by decide)

namespace Balanced

theorem of_forall (h : ∀ c ∈ cs, depth [c] = 0) : Balanced cs :=
  ⟨depth_of_forall h, fun _ hbefore ↦
    Int.le_of_eq (depth_of_forall fun c hc ↦ h c (hbefore.subset hc)).symm⟩

theorem append (ha : Balanced a) (hb : Balanced b) : Balanced (a ++ b) := by
  refine ⟨by rw [depth_append, ha.total, hb.total]; rfl, fun before hbefore ↦ ?_⟩
  obtain ⟨rest, hrest⟩ := hbefore
  rcases List.append_eq_append_iff.mp hrest with ⟨more, hmore, -⟩ | ⟨more, hmore, hb'⟩
  · exact ha.inside before ⟨more, hmore.symm⟩
  · rw [hmore, depth_append, ha.total, Int.zero_add]
    exact hb.inside more ⟨rest, hb'.symm⟩

/-- A prefix of a balanced text in parentheses is inside the parentheses, or at one of the ends. -/
theorem prefix_group (h : Balanced cs) (hbefore : before <+: '(' :: (cs ++ [')'])) :
    before = [] ∨ before = '(' :: (cs ++ [')']) ∨ 1 ≤ depth before := by
  rcases List.prefix_cons_iff.mp hbefore with rfl | ⟨inner, rfl, hinner⟩
  · exact .inl rfl
  · rcases List.prefix_concat_iff.mp hinner with rfl | hinner
    · exact .inr (.inl rfl)
    · have hdepth := h.inside inner hinner
      rw [depth_cons, depth_open]
      exact .inr (.inr (by omega))

theorem group (h : Balanced cs) : Balanced ('(' :: (cs ++ [')'])) := by
  have htotal : depth ('(' :: (cs ++ [')'])) = 0 := by
    rw [depth_cons, depth_append, h.total]
    rfl
  refine ⟨htotal, fun before hbefore ↦ ?_⟩
  rcases h.prefix_group hbefore with rfl | rfl | hdepth
  · exact Int.le_refl 0
  · exact Int.le_of_eq htotal.symm
  · omega

end Balanced

/-! ### Groups -/

theorem staysInside_iff {d : Int} :
    staysInside d cs = true ↔ ∀ before, before <+: cs → before ≠ [] → 0 ≤ d + depth before := by
  induction cs generalizing d with
  | nil =>
      refine iff_of_true rfl fun before hbefore hne ↦ ?_
      exact absurd (List.prefix_nil.mp hbefore) hne
  | cons c rest ih =>
      rw [staysInside, Bool.and_eq_true, decide_eq_true_iff, ih, depthAfter_eq]
      constructor
      · rintro ⟨hc, hrest⟩ before hbefore hne
        rcases List.prefix_cons_iff.mp hbefore with rfl | ⟨inner, rfl, hinner⟩
        · exact absurd rfl hne
        · by_cases hnil : inner = []
          · rwa [hnil]
          · rw [depth_cons, ← Int.add_assoc]
            exact hrest inner hinner hnil
      · intro h
        refine ⟨h [c] (by simp) (by simp), fun before hbefore hne ↦ ?_⟩
        have hdepth := h (c :: before) (List.cons_prefix_cons.mpr ⟨rfl, hbefore⟩) (by simp)
        rwa [depth_cons, ← Int.add_assoc] at hdepth

theorem balanced_iff : Balanced cs ↔ depth cs = 0 ∧ staysInside 0 cs = true := by
  rw [staysInside_iff]
  simp only [Int.zero_add]
  constructor
  · intro h
    exact ⟨h.total, fun before hbefore _ ↦ h.inside before hbefore⟩
  · rintro ⟨htotal, hinside⟩
    refine ⟨htotal, fun before hbefore ↦ ?_⟩
    by_cases hnil : before = []
    · rw [hnil]
      exact Int.le_refl 0
    · exact hinside before hbefore hnil

instance : Decidable (Balanced cs) := decidable_of_iff _ balanced_iff.symm

/-- A text in parentheses is a group if none of them is closed before the last character. -/
theorem group?_enclosed : group? ('(' :: (cs ++ [')'])) = some cs ↔ staysInside 0 cs = true := by
  simp [group?]

/-- A balanced text in parentheses is a group. -/
theorem group?_group (h : Balanced cs) : group? ('(' :: (cs ++ [')'])) = some cs :=
  group?_enclosed.mpr (balanced_iff.mp h).2

/-- A balanced text in parentheses with something behind them is not a group. -/
theorem group?_group_append (h : Balanced cs) (hrest : rest ≠ []) :
    group? ('(' :: (cs ++ ')' :: rest)) = none := by
  have hinner : (cs ++ ')' :: rest).dropLast = cs ++ ')' :: rest.dropLast := by
    rw [List.dropLast_append_of_ne_nil (by simp), List.dropLast_cons_of_ne_nil hrest]
  have houtside : ¬ staysInside 0 (cs ++ ')' :: rest.dropLast) = true := by
    intro hinside
    have hdepth := staysInside_iff.mp hinside (cs ++ [')']) ⟨rest.dropLast, by simp⟩ (by simp)
    rw [depth_append, h.total, depth_close] at hdepth
    omega
  simp [group?, hinner, houtside]

/-- Nothing but a text in parentheses is a group. -/
theorem eq_of_group? {inner : List Char} (h : group? cs = some inner) :
    cs = '(' :: (inner ++ [')']) := by
  unfold group? at h
  split at h
  · next rest =>
      split at h
      · next hends =>
          cases h
          rw [List.dropLast_append_getLast? _ hends.1]
      · cases h
  · cases h

theorem length_lt_of_group? {inner : List Char} (h : group? cs = some inner) :
    inner.length < cs.length := by
  rw [eq_of_group? h, List.length_cons, List.length_append]
  omega

end Chronicle.Condition

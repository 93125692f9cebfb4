import Chronicle.Condition.Arithmetic
import Mathlib.Data.List.Forall2
import Mathlib.Data.List.Perm.Subperm

/-!
# Equality and order

Equality and order of values fit together: `Comparison.coherent`. The order of two values is turned
around with them, and where there is one it is that of equal values just if the values are equal.
Objects count as equal if each member of the one has a partner in the other, and if there are as
many. Where every name stands once, no member of the other is then left without a partner.
-/

namespace Chronicle

/-! ### Numbers -/

namespace Numeric

theorem order_swap (x y : Numeric) : y.order x = (x.order y).swap := by
  cases x with
  | int m =>
      cases y with
      | int n => exact Std.OrientedOrd.eq_swap
      | float y => exact Std.OrientedOrd.eq_swap
  | float x =>
      cases y with
      | int n => exact Std.OrientedOrd.eq_swap
      | float y => exact Std.OrientedOrd.eq_swap

theorem order_self (x : Numeric) : x.order x = .eq := by
  cases x with
  | int m => exact Std.ReflOrd.compare_self
  | float x => exact Std.ReflOrd.compare_self

theorem order_eq_comm {x y : Numeric} : x.order y = .eq ↔ y.order x = .eq := by
  rw [order_swap x y, Ordering.swap_eq_eq]

end Numeric

namespace Value

/-! ### Trees of data -/

/-- The value has no items and no members. -/
def IsLeaf (v : Value) : Prop := (∀ items, v ≠ .list items) ∧ ∀ members, v ≠ .object members

/-- What holds of leaves, of a list whose items it holds of, and of an object whose members it holds
of, holds of all values. -/
@[elab_as_elim]
theorem induct {motive : Value → Prop} (leaf : ∀ v, v.IsLeaf → motive v)
    (list : ∀ items, (∀ v ∈ items, motive v) → motive (.list items))
    (object : ∀ members : Attributes, (∀ m ∈ members, motive m.2) → motive (.object members))
    (v : Value) : motive v :=
  Value.rec (leaf _ ⟨nofun, nofun⟩) (fun _ ↦ leaf _ ⟨nofun, nofun⟩) (fun _ ↦ leaf _ ⟨nofun, nofun⟩)
    (fun _ ↦ leaf _ ⟨nofun, nofun⟩) (fun _ ↦ leaf _ ⟨nofun, nofun⟩) list object
    (fun _ h ↦ absurd h List.not_mem_nil)
    (fun _ _ hhead htail ↦ List.forall_mem_cons.mpr ⟨hhead, htail⟩)
    (fun _ h ↦ absurd h List.not_mem_nil)
    (fun _ _ hhead htail ↦ List.forall_mem_cons.mpr ⟨hhead, htail⟩)
    (fun _ _ h ↦ h) v

mutual
/-- Every name stands once in an object, at any depth. -/
def Distinct : Value → Prop
  | .list items => DistinctItems items
  | .object members => (Keyed.keys members).Nodup ∧ DistinctMembers members
  | _ => True

/-- Every name stands once in the objects among the items. -/
def DistinctItems : List Value → Prop
  | [] => True
  | v :: rest => v.Distinct ∧ DistinctItems rest

/-- Every name stands once in the objects among the members. -/
def DistinctMembers : List (String × Value) → Prop
  | [] => True
  | (_, v) :: rest => v.Distinct ∧ DistinctMembers rest
end

theorem distinct_list {items : List Value} : (list items).Distinct ↔ ∀ v ∈ items, v.Distinct := by
  rw [Distinct]
  induction items with
  | nil => simp [DistinctItems]
  | cons v rest ih => simp [DistinctItems, ih]

theorem distinct_object {members : Attributes} :
    (object members).Distinct ↔ (Keyed.keys members).Nodup ∧ ∀ m ∈ members, m.2.Distinct := by
  rw [Distinct]
  have hmembers : DistinctMembers members ↔ ∀ m ∈ members, m.2.Distinct := by
    induction members with
    | nil => simp [DistinctMembers]
    | cons m rest ih => simp [DistinctMembers, ih]
  rw [hmembers]

/-! ### Equality -/

/-- How values can be equal: as numbers, or as two values of one kind with equal parts. -/
inductive Alike : Value → Value → Prop where
  | number {a b : Value} {x y : Numeric} (ha : Numeric.of? a = some x) (hb : Numeric.of? b = some y)
      (h : x.order y = .eq) : Alike a b
  | null : Alike .null .null
  | str (s : String) : Alike (.str s) (.str s)
  | list {xs ys : List Value} (h : List.Forall₂ (fun v w ↦ v.equal w = true) xs ys) :
      Alike (.list xs) (.list ys)
  | object {ms ns : Attributes} (hlength : ms.length = ns.length)
      (h : ∀ m ∈ ms, ∃ w, ns.lookup m.1 = some w ∧ m.2.equal w = true) :
      Alike (.object ms) (.object ns)

variable {a b : Value} {x y : Numeric}

theorem equal_of_numeric (ha : Numeric.of? a = some x) (hb : Numeric.of? b = some y) :
    a.equal b = (x.order y == .eq) := by
  rw [equal.eq_def, ha, hb]

theorem equalItems_iff {xs ys : List Value} :
    equalItems xs ys = true ↔ List.Forall₂ (fun v w ↦ v.equal w = true) xs ys := by
  induction xs generalizing ys with
  | nil => cases ys <;> simp [equalItems]
  | cons v xs ih => cases ys <;> simp [equalItems, ih]

theorem equalMembers_iff {ms ns : Attributes} :
    equalMembers ms ns = true ↔ ∀ m ∈ ms, ∃ w, ns.lookup m.1 = some w ∧ m.2.equal w = true := by
  induction ms with
  | nil => simp [equalMembers]
  | cons m ms ih =>
      rw [equalMembers, Bool.and_eq_true, ih, List.forall_mem_cons]
      refine and_congr_left fun _ ↦ ?_
      cases ns.lookup m.1 <;> simp

/-- Values are equal just if they are so in one of these ways. -/
theorem equal_iff : a.equal b = true ↔ Alike a b := by
  constructor
  · intro h
    rw [equal.eq_def] at h
    split at h
    · next ha hb => exact .number ha hb (eq_of_beq h)
    · split at h
      · exact .null
      · exact eq_of_beq h ▸ .str _
      · exact .list (equalItems_iff.mp h)
      · rw [Bool.and_eq_true] at h
        exact .object (eq_of_beq h.1) (equalMembers_iff.mp h.2)
      · cases h
  · intro h
    cases h with
    | number ha hb h => rw [equal_of_numeric ha hb, h, beq_self_eq_true]
    | null => rfl
    | str s => exact beq_self_eq_true s
    | list h => exact equalItems_iff.mpr h
    | object hlength h =>
        exact Bool.and_eq_true_iff.mpr ⟨beq_iff_eq.mpr hlength, equalMembers_iff.mpr h⟩

/-- A value is equal to itself. -/
theorem equal_self {v : Value} (h : v.Distinct) : v.equal v = true := by
  induction v using induct with
  | leaf v hleaf =>
      cases v with
      | null => rfl
      | bool | int | float => exact equal_iff.mpr (.number rfl rfl (Numeric.order_self _))
      | str s => exact equal_iff.mpr (.str s)
      | list items => exact absurd rfl (hleaf.1 items)
      | object members => exact absurd rfl (hleaf.2 members)
  | list items ih =>
      have hitems := distinct_list.mp h
      exact equal_iff.mpr (.list (List.forall₂_same.mpr fun v hv ↦ ih v hv (hitems v hv)))
  | object members ih =>
      obtain ⟨hkeys, hmembers⟩ := distinct_object.mp h
      refine equal_iff.mpr (.object rfl fun m hm ↦ ⟨m.2, ?_, ih m hm (hmembers m hm)⟩)
      exact Keyed.lookup_eq_some_of_mem hkeys hm

/-- What relates the items of two lists can be turned around if it can for each pair of them. -/
theorem forall₂_symm {R : Value → Value → Prop} {xs ys : List Value} (h : List.Forall₂ R xs ys)
    (hsymm : ∀ v ∈ xs, ∀ w ∈ ys, R v w → R w v) : List.Forall₂ R ys xs := by
  induction h with
  | nil => exact .nil
  | cons hvw _ ih =>
      refine .cons (hsymm _ List.mem_cons_self _ List.mem_cons_self hvw) (ih fun v hv w hw ↦ ?_)
      exact hsymm v (List.mem_cons_of_mem _ hv) w (List.mem_cons_of_mem _ hw)

/-- Where all of some distinct names are among as many others, there are no further ones. -/
theorem keys_subset {ms ns : Attributes} (hms : (Keyed.keys ms).Nodup)
    (hlength : ms.length = ns.length) (h : Keyed.keys ms ⊆ Keyed.keys ns) :
    Keyed.keys ns ⊆ Keyed.keys ms := by
  have hkeys : (Keyed.keys ns).length ≤ (Keyed.keys ms).length := by
    rw [Keyed.keys, Keyed.keys, List.length_map, List.length_map]
    exact Nat.le_of_eq hlength.symm
  exact ((hms.subperm h).perm_of_length_le hkeys).symm.subset

/-- Where each member of an object has a partner of its name among as many others, each of those is
the partner of one. -/
theorem partners {alike : Value → Value → Bool} {ms ns : Attributes}
    (hms : (Keyed.keys ms).Nodup) (hns : (Keyed.keys ns).Nodup) (hlength : ms.length = ns.length)
    (h : ∀ m ∈ ms, ∃ w, (m.1, w) ∈ ns ∧ alike m.2 w = true) :
    ∀ n ∈ ns, ∃ v, (n.1, v) ∈ ms ∧ alike v n.2 = true := by
  have hsubset : Keyed.keys ms ⊆ Keyed.keys ns := by
    intro name hname
    obtain ⟨m, hm, rfl⟩ := List.mem_map.mp hname
    obtain ⟨w, hw, -⟩ := h m hm
    exact List.mem_map.mpr ⟨_, hw, rfl⟩
  intro n hn
  obtain ⟨m, hm, hname⟩ := List.mem_map.mp
    (keys_subset hms hlength hsubset (List.mem_map_of_mem hn))
  obtain ⟨w, hw, halike⟩ := h m hm
  -- No name stands twice in the second object, so the partner of that member is the one at hand.
  have hpartner := Keyed.lookup_eq_some_of_mem hns hw
  rw [hname, Keyed.lookup_eq_some_of_mem hns hn] at hpartner
  cases hpartner
  exact ⟨m.2, hname ▸ hm, halike⟩

/-- Equality can be turned around. -/
theorem equal_symm (ha : a.Distinct) (hb : b.Distinct) (h : a.equal b = true) :
    b.equal a = true := by
  induction a using induct generalizing b with
  | leaf a hleaf =>
      cases equal_iff.mp h with
      | number hx hy horder => exact equal_iff.mpr (.number hy hx (Numeric.order_eq_comm.mp horder))
      | null => exact h
      | str => exact h
      | list => exact absurd rfl (hleaf.1 _)
      | object => exact absurd rfl (hleaf.2 _)
  | list xs ih =>
      cases equal_iff.mp h with
      | number hx => cases hx
      | list hitems =>
          have hxs := distinct_list.mp ha
          have hys := distinct_list.mp hb
          exact equal_iff.mpr (.list (forall₂_symm hitems fun v hv w hw ↦
            ih v hv (hxs v hv) (hys w hw)))
  | object ms ih =>
      cases equal_iff.mp h with
      | number hx => cases hx
      | @object _ ns hlength hmembers =>
          obtain ⟨hmsKeys, hms⟩ := distinct_object.mp ha
          obtain ⟨hnsKeys, hns⟩ := distinct_object.mp hb
          refine equal_iff.mpr (.object hlength.symm fun n hn ↦ ?_)
          have hpartners : ∀ m ∈ ms, ∃ w, (m.1, w) ∈ ns ∧ m.2.equal w = true := by
            simpa only [Keyed.lookup_eq_some_iff hnsKeys] using hmembers
          obtain ⟨v, hv, hequal⟩ := partners hmsKeys hnsKeys hlength hpartners n hn
          refine ⟨v, Keyed.lookup_eq_some_of_mem hmsKeys hv, ?_⟩
          exact ih (n.1, v) hv (hms _ hv) (hns n hn) hequal

theorem equal_comm (ha : a.Distinct) (hb : b.Distinct) : a.equal b = b.equal a :=
  Bool.eq_iff_iff.mpr ⟨equal_symm ha hb, equal_symm hb ha⟩

/-! ### Order -/

/-- How values can be ordered: as numbers, as texts, or as lists. -/
inductive Ordered : Value → Value → Ordering → Prop where
  | number {a b : Value} {x y : Numeric} (ha : Numeric.of? a = some x)
      (hb : Numeric.of? b = some y) : Ordered a b (x.order y)
  | str (s t : String) : Ordered (.str s) (.str t) (compare s t)
  | list {xs ys : List Value} {o : Ordering} (h : orderItems? xs ys = some o) :
      Ordered (.list xs) (.list ys) o

variable {o : Ordering} {xs ys : List Value}

theorem order?_of_numeric (ha : Numeric.of? a = some x) (hb : Numeric.of? b = some y) :
    a.order? b = some (x.order y) := by
  rw [order?.eq_def, ha, hb]

/-- Values are ordered just if they are so in one of these ways. -/
theorem order?_eq_some : a.order? b = some o ↔ Ordered a b o := by
  constructor
  · intro h
    rw [order?.eq_def] at h
    split at h
    · next ha hb => exact Option.some.inj h ▸ .number ha hb
    · split at h
      · exact Option.some.inj h ▸ .str _ _
      · exact .list h
      · cases h
  · intro h
    cases h with
    | number ha hb => exact order?_of_numeric ha hb
    | str s t => rfl
    | list h => exact h

/-- The order of two lists is turned around where it is for each pair of items. -/
theorem orderItems?_swap (hequal : ∀ v ∈ xs, ∀ w ∈ ys, v.equal w = w.equal v)
    (horder : ∀ v ∈ xs, ∀ w ∈ ys, ∀ o, v.order? w = some o → w.order? v = some o.swap)
    (h : orderItems? xs ys = some o) : orderItems? ys xs = some o.swap := by
  induction xs generalizing ys with
  | nil =>
      cases ys with
      | nil => cases h; rfl
      | cons w ys => cases h; rfl
  | cons v xs ih =>
      cases ys with
      | nil => cases h; rfl
      | cons w ys =>
          rw [orderItems?] at h ⊢
          rw [← hequal v List.mem_cons_self w List.mem_cons_self]
          split at h
          · next heq =>
              rw [if_pos heq]
              exact ih (fun v hv w hw ↦ hequal v (.tail _ hv) w (.tail _ hw))
                (fun v hv w hw ↦ horder v (.tail _ hv) w (.tail _ hw)) h
          · next hne =>
              rw [if_neg hne]
              exact horder v List.mem_cons_self w List.mem_cons_self o h

theorem order?_swap_of_some (ha : a.Distinct) (hb : b.Distinct) (h : a.order? b = some o) :
    b.order? a = some o.swap := by
  induction a using induct generalizing b o with
  | leaf a hleaf =>
      cases order?_eq_some.mp h with
      | number hx hy => rw [order?_of_numeric hy hx, Numeric.order_swap]
      | str s t => exact congrArg some Std.OrientedOrd.eq_swap
      | list => exact absurd rfl (hleaf.1 _)
  | list xs ih =>
      cases order?_eq_some.mp h with
      | number hx => cases hx
      | list hitems =>
          have hxs := distinct_list.mp ha
          have hys := distinct_list.mp hb
          exact orderItems?_swap (fun v hv w hw ↦ equal_comm (hxs v hv) (hys w hw))
            (fun v hv w hw o ↦ ih v hv (hxs v hv) (hys w hw)) hitems
  | object ms ih =>
      cases order?_eq_some.mp h with
      | number hx => cases hx

/-- The order of two values is turned around with them. -/
theorem order?_swap (ha : a.Distinct) (hb : b.Distinct) :
    b.order? a = (a.order? b).map Ordering.swap := by
  cases h : a.order? b with
  | some o => exact order?_swap_of_some ha hb h
  | none =>
      cases h' : b.order? a with
      | none => rfl
      | some o =>
          rw [order?_swap_of_some hb ha h'] at h
          cases h

/-- Lists of equal items are ordered as equal. -/
theorem orderItems?_of_equal (h : List.Forall₂ (fun v w ↦ v.equal w = true) xs ys) :
    orderItems? xs ys = some .eq := by
  induction h with
  | nil => rfl
  | cons hvw _ ih => rw [orderItems?, if_pos hvw, ih]

/-- Equal values are not ordered otherwise. -/
theorem eq_of_equal (hequal : a.equal b = true) (h : a.order? b = some o) : o = .eq := by
  cases equal_iff.mp hequal with
  | number hx hy horder =>
      rw [order?_of_numeric hx hy, horder] at h
      exact (Option.some.inj h).symm
  | null => cases h
  | str s =>
      rw [← Option.some.inj h]
      exact Std.ReflOrd.compare_self
  | list hitems => exact Option.some.inj (h.symm.trans (orderItems?_of_equal hitems))
  | object => cases h

/-- Lists that are ordered as equal have equal items where values that are so are equal. -/
theorem forall₂_of_orderItems? (hitems : ∀ v ∈ xs, ∀ w, v.order? w = some .eq → v.equal w = true)
    (h : orderItems? xs ys = some .eq) :
    List.Forall₂ (fun v w ↦ v.equal w = true) xs ys := by
  induction xs generalizing ys with
  | nil =>
      cases ys with
      | nil => exact .nil
      | cons w ys => cases h
  | cons v xs ih =>
      obtain ⟨hv, hxs⟩ := List.forall_mem_cons.mp hitems
      cases ys with
      | nil => cases h
      | cons w ys =>
          rw [orderItems?] at h
          split at h
          · next heq => exact .cons heq (ih hxs h)
          · next hne => exact absurd (hv w h) hne

/-- Values that are ordered as equal are equal. -/
theorem equal_of_eq (h : a.order? b = some o) (ho : o = .eq) : a.equal b = true := by
  induction a using induct generalizing b o with
  | leaf a hleaf =>
      cases order?_eq_some.mp h with
      | number hx hy => exact equal_iff.mpr (.number hx hy ho)
      | str s t =>
          cases Std.LawfulEqOrd.eq_of_compare ho
          exact equal_iff.mpr (.str s)
      | list => exact absurd rfl (hleaf.1 _)
  | list xs ih =>
      cases order?_eq_some.mp h with
      | number hx => cases hx
      | list hitems =>
          rw [ho] at hitems
          exact equal_iff.mpr (.list (forall₂_of_orderItems? (fun v hv w h ↦ ih v hv h rfl) hitems))
  | object ms ih =>
      cases order?_eq_some.mp h with
      | number hx => cases hx

/-- Values that are ordered are equal just if they are ordered as equal. -/
theorem eq_iff_equal (h : a.order? b = some o) : o = .eq ↔ a.equal b = true :=
  ⟨equal_of_eq h, fun hequal ↦ eq_of_equal hequal h⟩

/-- Null is not ordered. -/
theorem ne_null_of_order? (h : a.order? b = some o) : a ≠ .null ∧ b ≠ .null := by
  cases order?_eq_some.mp h with
  | number ha hb =>
      refine ⟨?_, ?_⟩
      · rintro rfl
        cases ha
      · rintro rfl
        cases hb
  | str s t => exact ⟨nofun, nofun⟩
  | list h => exact ⟨nofun, nofun⟩

end Value

/-! ### Comparisons -/

namespace Comparison

variable {a b : Value} {o : Ordering}

/-- The comparisons that ask for an order. -/
def IsOrdering (op : Comparison) : Prop := op ≠ eq ∧ op ≠ ne

theorem eq_or_isOrdering (op : Comparison) : op = eq ∨ op = ne ∨ op.IsOrdering := by
  cases op <;> simp [IsOrdering]

theorem apply_ordering {op : Comparison} (h : op.IsOrdering) (a b : Value) :
    op.apply a b =
      if a = .null ∨ b = .null then .ok false
      else match a.order? b with
        | some order => .ok (op.holds order)
        | none => .error (.typeMismatch (String.ofList op.symbol) a b) := by
  cases op with
  | eq => exact absurd rfl h.1
  | ne => exact absurd rfl h.2
  | ge | le | gt | lt => rfl

/-- Values that are ordered are compared by their order. -/
theorem apply_of_order? (op : Comparison) (h : a.order? b = some o) :
    op.apply a b = .ok (op.holds o) := by
  have hequal : a.equal b = (o == .eq) := by
    rw [Bool.eq_iff_iff, beq_iff_eq, Value.eq_iff_equal h]
  rcases op.eq_or_isOrdering with rfl | rfl | hop
  · exact congrArg Except.ok hequal
  · exact congrArg (Except.ok !·) hequal
  · rw [apply_ordering hop, if_neg (by simp [Value.ne_null_of_order? h]), h]

/-- Only an ordering can fail, and it fails for values that are neither null nor ordered. -/
theorem apply_fails_iff {op : Comparison} :
    (∃ e, op.apply a b = .error e) ↔
      op.IsOrdering ∧ a ≠ .null ∧ b ≠ .null ∧ a.order? b = none := by
  constructor
  · rintro ⟨e, he⟩
    rcases op.eq_or_isOrdering with rfl | rfl | hop
    · cases he
    · cases he
    · rw [apply_ordering hop] at he
      split at he
      · cases he
      · next hnull =>
          obtain ⟨ha, hb⟩ := not_or.mp hnull
          split at he
          · cases he
          · next hnone => exact ⟨hop, ha, hb, hnone⟩
  · rintro ⟨hop, ha, hb, hnone⟩
    rw [apply_ordering hop, if_neg (by simp [ha, hb]), hnone]
    exact ⟨_, rfl⟩

/-- Just one of less, equal, and greater holds. -/
theorem existsUnique_holds (o : Ordering) : ∃! op, op ∈ [lt, eq, gt] ∧ op.holds o = true := by
  cases o with
  | lt =>
      have hunique : ∀ op ∈ [lt, eq, gt], op.holds .lt = true → op = lt := by decide
      exact ⟨lt, by decide, fun op h ↦ hunique op h.1 h.2⟩
  | eq =>
      have hunique : ∀ op ∈ [lt, eq, gt], op.holds .eq = true → op = eq := by decide
      exact ⟨eq, by decide, fun op h ↦ hunique op h.1 h.2⟩
  | gt =>
      have hunique : ∀ op ∈ [lt, eq, gt], op.holds .gt = true → op = gt := by decide
      exact ⟨gt, by decide, fun op h ↦ hunique op h.1 h.2⟩

/-- Equality is reflexive and symmetric, the order of two values is turned around with them, and it
is that of equal values just for equal ones. So values that are ordered are less, equal, or greater,
and an ordering that fails also does the other way around. -/
theorem coherent {a b : Value} (ha : a.Distinct) (hb : b.Distinct) :
    a.equal a = true ∧ a.equal b = b.equal a ∧
    b.order? a = (a.order? b).map Ordering.swap ∧
    (∀ o, a.order? b = some o → (o = .eq ↔ a.equal b = true)) ∧
    (a.order? b ≠ none →
      (∀ op : Comparison, ∃ holds, op.apply a b = .ok holds) ∧
      (∃! op, op ∈ [lt, eq, gt] ∧ op.apply a b = .ok true) ∧
      (le.apply a b = .ok true ↔ lt.apply a b = .ok true ∨ eq.apply a b = .ok true) ∧
      (ge.apply a b = .ok true ↔ gt.apply a b = .ok true ∨ eq.apply a b = .ok true) ∧
      lt.apply a b = gt.apply b a) ∧
    ∀ op : Comparison, (∃ e, op.apply a b = .error e) ↔ ∃ e, op.apply b a = .error e := by
  have hswap := Value.order?_swap ha hb
  refine ⟨Value.equal_self ha, Value.equal_comm ha hb, hswap, fun o ↦ Value.eq_iff_equal,
    fun hne ↦ ?_, fun op ↦ ?_⟩
  · obtain ⟨o, ho⟩ := Option.ne_none_iff_exists'.mp hne
    have happly : ∀ op : Comparison, op.apply a b = .ok (op.holds o) := fun op ↦
      apply_of_order? op ho
    rw [ho, Option.map_some] at hswap
    simp only [happly, apply_of_order? gt hswap, Except.ok.injEq]
    refine ⟨fun op ↦ ⟨_, rfl⟩, existsUnique_holds o, ?_, ?_, ?_⟩
    · cases o <;> decide
    · cases o <;> decide
    · cases o <;> rfl
  · rw [apply_fails_iff, apply_fails_iff, hswap, Option.map_eq_none_iff]
    exact and_congr_right fun _ ↦ and_left_comm

/-- The members stand in different orders, and booleans, integers, and floats are mixed. -/
theorem coherent_mixed :
    let a : Value := .list [.object [("hp", .int 1), ("won", .list [.bool true, .int 2])], .int 3]
    let b : Value :=
      .list [.object [("won", .list [.int 1, .float (.ofInt 2)]), ("hp", .bool true)], .int 4]
    (a.Distinct ∧ b.Distinct ∧ a.order? b = some .lt) ∧
      a.equal b = b.equal a ∧ b.order? a = some .gt ∧ lt.apply a b = gt.apply b a ∧
      ∃! op, op ∈ [lt, eq, gt] ∧ op.apply a b = .ok true := by
  intro a b
  have ha : a.Distinct := by simp [a, Value.Distinct, Value.DistinctItems, Value.DistinctMembers,
    Keyed.keys]
  have hb : b.Distinct := by simp [b, Value.Distinct, Value.DistinctItems, Value.DistinctMembers,
    Keyed.keys]
  have horder : a.order? b = some .lt := by decide +kernel
  obtain ⟨-, hequal, hswap, -, hcompare, -⟩ := coherent ha hb
  obtain ⟨-, hunique, -, -, hturned⟩ := hcompare (by simp [horder])
  rw [horder] at hswap
  exact ⟨⟨ha, hb, horder⟩, hequal, hswap, hturned, hunique⟩

end Comparison

end Chronicle

import Chronicle.Condition.Evaluation
import Chronicle.Proofs.Condition.Arithmetic
import Chronicle.Proofs.Results

/-!
# Nested arithmetic

A calculation is a tree of operations over conditions. Where no quotient is taken and every leaf
counts as an integer, the calculation and all of its parts have an exact value. Evaluating it gives
the exact value if those of all parts fit in 64 bits, and otherwise the overflow of the first part,
in the order of evaluation, that does not: `evaluate_calculation`. That the value of the whole fits
is not enough.
-/

namespace Chronicle

/-- A tree of operations with conditions at its leaves. -/
inductive Calculation where
  | leaf (c : Condition)
  | node (op : Operation) (left right : Calculation)

namespace Calculation

/-- The calculation as a condition. -/
def condition : Calculation → Condition
  | leaf c => c
  | node op left right => .arith op left.condition right.condition

/-- The conditions at the leaves. -/
def leaves : Calculation → List Condition
  | leaf c => [c]
  | node _ left right => left.leaves ++ right.leaves

/-- The operations at the nodes. -/
def operations : Calculation → List Operation
  | leaf _ => []
  | node op left right => op :: (left.operations ++ right.operations)

/-- The calculation and its parts at any depth, in the order in which they are evaluated. -/
def parts : Calculation → List Calculation
  | leaf c => [leaf c]
  | node op left right => left.parts ++ right.parts ++ [node op left right]

/-- The value of a calculation in which integers have no bounds. -/
def exactValue? (ctx : Context) : Calculation → Option Int
  | leaf c => (c.evaluate ctx).toOption.bind Value.integer?
  | node op left right => do
      let a ← left.exactValue? ctx
      let b ← right.exactValue? ctx
      op.result? a b

/-- The exact value fits in 64 bits. -/
def InRange (ctx : Context) (t : Calculation) : Prop :=
  ∃ n, t.exactValue? ctx = some n ∧ Numeric.Fits n

instance (ctx : Context) (t : Calculation) : Decidable (t.InRange ctx) :=
  decidable_of_iff ((t.exactValue? ctx).any fun n ↦ Numeric.Fits n)
    (by simp only [InRange, Option.any_eq_true, decide_eq_true_eq])

/-- The operation is that of the first part, in the order of evaluation, that is not in range. -/
def OverflowsAt (ctx : Context) (t : Calculation) (op : Operation) : Prop :=
  ∃ before left right after, t.parts = before ++ node op left right :: after ∧
    (∀ s ∈ before, s.InRange ctx) ∧ ¬ (node op left right).InRange ctx

variable {ctx : Context} {t l r : Calculation} {op : Operation} {n : Int}

/-! ### Exact values -/

theorem exactValue?_leaf {c : Condition} :
    (leaf c).exactValue? ctx = some n ↔ ∃ v, c.evaluate ctx = .ok v ∧ v.integer? = some n := by
  rw [exactValue?, Option.bind_eq_some_iff]
  simp only [toOption_eq_some]

theorem exactValue?_node :
    (node op l r).exactValue? ctx = some n ↔
      ∃ a b, l.exactValue? ctx = some a ∧ r.exactValue? ctx = some b ∧ op.result? a b = some n := by
  rw [exactValue?]
  simp only [Option.bind_eq_bind, Option.bind_eq_some_iff, exists_and_left]

theorem inRange_iff (h : t.exactValue? ctx = some n) : t.InRange ctx ↔ Numeric.Fits n := by
  rw [InRange, h]
  simp only [Option.some.injEq, exists_eq_left']

/-- There is an exact value if no quotient is taken and every leaf counts as an integer. -/
theorem exists_exact (hop : ∀ op ∈ t.operations, op ≠ .div)
    (hleaf : ∀ c ∈ t.leaves, ∃ v k, c.evaluate ctx = .ok v ∧ v.integer? = some k) :
    ∃ n, t.exactValue? ctx = some n := by
  induction t with
  | leaf c =>
      obtain ⟨v, k, hv, hk⟩ := hleaf c (List.mem_singleton_self c)
      exact ⟨k, exactValue?_leaf.mpr ⟨v, hv, hk⟩⟩
  | node op l r ihl ihr =>
      obtain ⟨hop, hothers⟩ := List.forall_mem_cons.mp hop
      obtain ⟨hopl, hopr⟩ := List.forall_mem_append.mp hothers
      obtain ⟨hleafl, hleafr⟩ := List.forall_mem_append.mp hleaf
      obtain ⟨a, ha⟩ := ihl hopl hleafl
      obtain ⟨b, hb⟩ := ihr hopr hleafr
      have hresult : ∃ n, op.result? a b = some n := by
        cases op with
        | add | sub | mul => exact ⟨_, rfl⟩
        | div => exact absurd rfl hop
      obtain ⟨n, hn⟩ := hresult
      exact ⟨n, exactValue?_node.mpr ⟨a, b, ha, hb, hn⟩⟩

/-! ### The first overflow -/

theorem overflowsAt_of_left {first : Operation} (h : l.OverflowsAt ctx first) (op : Operation)
    (r : Calculation) : (node op l r).OverflowsAt ctx first := by
  obtain ⟨before, left, right, after, hparts, hbefore, hover⟩ := h
  refine ⟨before, left, right, after ++ r.parts ++ [node op l r], ?_, hbefore, hover⟩
  rw [parts, hparts]
  simp only [List.append_assoc, List.cons_append]

theorem overflowsAt_of_right {first : Operation} (hleft : ∀ s ∈ l.parts, s.InRange ctx)
    (h : r.OverflowsAt ctx first) (op : Operation) : (node op l r).OverflowsAt ctx first := by
  obtain ⟨before, left, right, after, hparts, hbefore, hover⟩ := h
  refine ⟨l.parts ++ before, left, right, after ++ [node op l r], ?_,
    List.forall_mem_append.mpr ⟨hleft, hbefore⟩, hover⟩
  rw [parts, hparts]
  simp only [List.append_assoc, List.cons_append]

theorem overflowsAt_whole (hleft : ∀ s ∈ l.parts, s.InRange ctx)
    (hright : ∀ s ∈ r.parts, s.InRange ctx) (h : ¬ (node op l r).InRange ctx) :
    (node op l r).OverflowsAt ctx op :=
  ⟨l.parts ++ r.parts, l, r, [], rfl, List.forall_mem_append.mpr ⟨hleft, hright⟩, h⟩

theorem OverflowsAt.exists_not_inRange (h : t.OverflowsAt ctx op) :
    ∃ s ∈ t.parts, ¬ s.InRange ctx := by
  obtain ⟨before, left, right, after, hparts, -, hover⟩ := h
  exact ⟨node op left right, hparts ▸ by simp, hover⟩

/-! ### Evaluation -/

/-- How the evaluation of a calculation with an exact value ends. -/
inductive Ends (ctx : Context) (t : Calculation) (n : Int) : Prop where
  /-- All parts are in range. Only a leaf can have another value that counts as the integer. -/
  | exact (v : Value) (hparts : ∀ s ∈ t.parts, s.InRange ctx)
      (heval : t.condition.evaluate ctx = .ok v) (hvalue : v.integer? = some n)
      (hnode : t.operations ≠ [] → v = .int n)
  | overflow (op : Operation) (hfirst : t.OverflowsAt ctx op)
      (heval : t.condition.evaluate ctx = .error (.overflow op))

/-- Both sides are evaluated, the left one first, before the operation is carried out. -/
theorem Ends.node {a b : Int} (hl : l.Ends ctx a) (hr : r.Ends ctx b)
    (hexact : (node op l r).exactValue? ctx = some n) (hresult : op.result? a b = some n) :
    (node op l r).Ends ctx n := by
  have heval : (Calculation.node op l r).condition.evaluate ctx =
      (l.condition.evaluate ctx >>= fun v ↦
        r.condition.evaluate ctx >>= fun w ↦ op.apply v w) := rfl
  cases hl with
  | overflow first hfirst herror =>
      refine .overflow first (overflowsAt_of_left hfirst op r) ?_
      rw [heval, herror]
      rfl
  | exact v hleft hv hvalue _ =>
      cases hr with
      | overflow first hfirst herror =>
          refine .overflow first (overflowsAt_of_right hleft hfirst op) ?_
          rw [heval, hv, ok_bind, herror]
          rfl
      | exact w hright hw hvalue' _ =>
          rw [hv, ok_bind, hw, ok_bind, Operation.apply_integers hvalue hvalue' hresult] at heval
          by_cases hfits : Numeric.Fits n
          · rw [if_pos hfits] at heval
            have hwhole := List.forall_mem_singleton.mpr ((inRange_iff hexact).mpr hfits)
            exact .exact (.int n) (List.forall_mem_append.mpr
              ⟨List.forall_mem_append.mpr ⟨hleft, hright⟩, hwhole⟩) heval
              (Value.integer?_int hfits) fun _ ↦ rfl
          · rw [if_neg hfits] at heval
            exact .overflow op (overflowsAt_whole hleft hright (mt (inRange_iff hexact).mp hfits))
              heval

/-- By induction on the tree. -/
theorem ends (h : t.exactValue? ctx = some n) : t.Ends ctx n := by
  induction t generalizing n with
  | leaf c =>
      obtain ⟨v, hv, hvalue⟩ := exactValue?_leaf.mp h
      have hrange : (leaf c).InRange ctx := (inRange_iff h).mpr (Value.fits_of_integer? hvalue)
      exact .exact v (List.forall_mem_singleton.mpr hrange) hv hvalue fun hne ↦ absurd rfl hne
  | node op l r ihl ihr =>
      obtain ⟨a, b, ha, hb, hresult⟩ := exactValue?_node.mp h
      exact (ihl ha).node (ihr hb) h hresult

/-- A tree of sums, differences, and products of what counts as integers has an exact value.
Evaluating it gives that value if all of its parts are in range, and otherwise the overflow of the
first part that is not. -/
theorem evaluate_calculation (ctx : Context) {t : Calculation} (hne : t.operations ≠ [])
    (hop : ∀ op ∈ t.operations, op ≠ .div)
    (hleaf : ∀ c ∈ t.leaves, ∃ v k, c.evaluate ctx = .ok v ∧ v.integer? = some k) :
    ∃ n, t.exactValue? ctx = some n ∧
      ((∀ s ∈ t.parts, s.InRange ctx) → t.condition.evaluate ctx = .ok (.int n)) ∧
      ((∃ s ∈ t.parts, ¬ s.InRange ctx) →
        ∃ op, t.OverflowsAt ctx op ∧ t.condition.evaluate ctx = .error (.overflow op)) := by
  obtain ⟨n, hn⟩ := exists_exact hop hleaf
  refine ⟨n, hn, ?_, ?_⟩
  · intro hall
    cases ends hn with
    | exact v _ heval _ hnode => rw [heval, hnode hne]
    | overflow op hfirst _ =>
        obtain ⟨s, hs, hover⟩ := hfirst.exists_not_inRange
        exact absurd (hall s hs) hover
  · rintro ⟨s, hs, hover⟩
    cases ends hn with
    | exact _ hall => exact absurd (hall s hs) hover
    | overflow op hfirst heval => exact ⟨op, hfirst, heval⟩

/-- A flag, a name, and null take part in the first calculation. The second overflows in its product
although the exact value of the whole is in range. -/
theorem evaluate_calculation_edges :
    let ctx : Context := ⟨.null, .null, [("hp_delta", .int (-20))], [], none⟩
    let delta := leaf (.name ⟨"hp_delta", none⟩)
    let mixed := node .sub (node .mul (leaf (.literal (.bool true))) delta) (leaf (.literal .null))
    let product := node .mul (leaf (.literal (.int Numeric.least))) (leaf (.literal (.int (-1))))
    let beyond := node .sub product (leaf (.literal (.int 1)))
    mixed.condition.evaluate ctx = .ok (.int (-20)) ∧ beyond.InRange ctx ∧
      ∃ op, beyond.OverflowsAt ctx op ∧ beyond.condition.evaluate ctx = .error (.overflow op) := by
  intro ctx delta mixed product beyond
  have hmixed : ∀ c ∈ mixed.leaves, ∃ v k, c.evaluate ctx = .ok v ∧ v.integer? = some k := by
    simp only [mixed, delta, leaves, List.cons_append, List.nil_append, List.forall_mem_cons]
    exact ⟨⟨_, _, rfl, rfl⟩, ⟨.int (-20), _, rfl, rfl⟩, ⟨_, _, rfl, rfl⟩, nofun⟩
  have hbeyond : ∀ c ∈ beyond.leaves, ∃ v k, c.evaluate ctx = .ok v ∧ v.integer? = some k := by
    simp only [beyond, product, leaves, List.cons_append, List.nil_append, List.forall_mem_cons]
    exact ⟨⟨_, _, rfl, rfl⟩, ⟨_, _, rfl, rfl⟩, ⟨_, _, rfl, rfl⟩, nofun⟩
  obtain ⟨n, hn, hexact, -⟩ := evaluate_calculation ctx (t := mixed) (by decide) (by decide) hmixed
  obtain ⟨-, -, -, hfirst⟩ := evaluate_calculation ctx (t := beyond) (by decide) (by decide) hbeyond
  have hproduct : ¬ product.InRange ctx := by decide
  have hmem : product ∈ beyond.parts := by simp [beyond, product, parts]
  have hvalue : mixed.exactValue? ctx = some (-20) := by decide
  have heq : n = -20 := Option.some.inj (hn.symm.trans hvalue)
  exact ⟨heq ▸ hexact (by decide), by decide, hfirst ⟨product, hmem, hproduct⟩⟩

end Calculation

end Chronicle

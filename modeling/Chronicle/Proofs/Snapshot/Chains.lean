import Chronicle.Proofs.Snapshot.Recording

/-!
# Chains of snapshots

The chain of a recorder counts the snapshots since the last full one, and remembers its tick. Both
can be read off the history, and so can the reason for the kind of each snapshot:
`Recorder.chains_of_run`. Parents follow the kinds as long as the states come without one of their
own: `Recorder.parents_of_run`.
-/

namespace Chronicle

/-- The number of snapshots at the end of a history that are not full. -/
def trailing (history : List SnapshotMetadata) : Nat :=
  (history.rtakeWhile (·.kind ≠ .full)).length

/-- The tick given for the last full snapshot, or 0 if there is none. -/
def lastFullTick (log : List Taken) : Nat :=
  ((log.filter (·.metadata.kind = .full)).getLast?.map (·.capture.tick)).getD 0

/-- The kind of a snapshot has its reason in the snapshots before it. -/
structure Taken.Justified (taken : Taken) (strategy : Strategy) (before : List Taken) : Prop where
  early : taken.metadata.kind ≠ .full →
    taken.capture.tick - lastFullTick before < strategy.interval
  due : taken.metadata.kind = .full →
    strategy.interval ≤ taken.capture.tick - lastFullTick before ∨
      trailing (before.map (·.metadata)) = strategy.maxChain
  triggered : taken.metadata.kind ≠ .full →
    (taken.metadata.kind = .checkpoint ↔
      ∃ event ∈ taken.capture.events, event ∈ strategy.triggers)

namespace Strategy

variable {s : Strategy} {tick : Nat} {events : List String} {chain : Chain}

theorem decide_eq_full :
    s.decide tick events chain = .full ↔
      s.interval ≤ tick - chain.lastFull ∨ s.maxChain ≤ chain.length := by
  unfold decide
  by_cases hinterval : s.interval ≤ tick - chain.lastFull
  · simp [hinterval]
  · by_cases hchain : s.maxChain ≤ chain.length
    · simp [hchain]
    · rw [if_neg hinterval, if_neg hchain]
      simp only [hinterval, hchain, or_self, iff_false]
      cases events.any s.isTrigger <;> simp

theorem decide_eq_checkpoint (h : s.decide tick events chain ≠ .full) :
    s.decide tick events chain = .checkpoint ↔ ∃ event ∈ events, event ∈ s.triggers := by
  obtain ⟨hinterval, hchain⟩ := not_or.mp (mt decide_eq_full.mpr h)
  have htrigger : events.any s.isTrigger = true ↔ ∃ event ∈ events, event ∈ s.triggers := by
    simp [isTrigger]
  rw [decide, if_neg hinterval, if_neg hchain, ← htrigger]
  cases events.any s.isTrigger <;> simp

end Strategy

/-! ### What the chain says about the log -/

theorem trailing_concat (history : List SnapshotMetadata) (m : SnapshotMetadata) :
    trailing (history ++ [m]) = if m.kind = .full then 0 else trailing history + 1 := by
  rw [trailing, List.rtakeWhile_concat]
  split <;> simp_all [trailing]

theorem lastFullTick_concat (log : List Taken) (taken : Taken) :
    lastFullTick (log ++ [taken]) =
      if taken.metadata.kind = .full then taken.capture.tick else lastFullTick log := by
  rw [lastFullTick, List.filter_append, List.filter_singleton]
  split <;> simp_all [lastFullTick]

theorem Chain.length_after (log : List Taken) :
    (after log).length = trailing (log.map (·.metadata)) := by
  induction log using List.reverseRecOn with
  | nil => rfl
  | append_singleton log taken ih =>
      rw [after_concat, List.map_append, List.map_singleton, trailing_concat, ← ih]
      cases taken.metadata.kind <;> rfl

theorem Chain.lastFull_after (log : List Taken) : (after log).lastFull = lastFullTick log := by
  induction log using List.reverseRecOn with
  | nil => rfl
  | append_singleton log taken ih =>
      rw [after_concat, lastFullTick_concat, ← ih]
      cases taken.metadata.kind <;> rfl

namespace Strategy.Decides

variable {s : Strategy} {log : List Taken}

theorem of_append {more : List Taken} (h : s.Decides (log ++ more)) : s.Decides log := by
  intro before taken after hlog
  exact h before taken (after ++ more) (by rw [hlog, List.append_assoc, List.cons_append])

/-- A snapshot that would make the chain too long is full. -/
theorem length_le (h : s.Decides log) : (Chain.after log).length ≤ s.maxChain := by
  induction log using List.reverseRecOn with
  | nil => exact Nat.zero_le _
  | append_singleton log taken ih =>
      have hkind := h log taken [] rfl
      rw [Chain.after_concat]
      by_cases hfull : taken.metadata.kind = .full
      · rw [hfull]
        exact Nat.zero_le _
      · obtain ⟨-, hchain⟩ := not_or.mp (mt decide_eq_full.mpr (hkind ▸ hfull))
        cases htaken : taken.metadata.kind with
        | full => exact absurd htaken hfull
        | incremental => exact Nat.lt_of_not_le hchain
        | checkpoint => exact Nat.lt_of_not_le hchain

/-- The kind of each snapshot has its reason. -/
theorem justified (h : s.Decides log) {before after : List Taken} {taken : Taken}
    (hlog : log = before ++ taken :: after) : taken.Justified s before := by
  have hkind := h before taken after hlog
  have hbound := (of_append (hlog ▸ h)).length_le
  rw [Chain.length_after] at hbound
  refine ⟨fun hfull ↦ ?_, fun hfull ↦ ?_, fun hfull ↦ ?_⟩
  · obtain ⟨hinterval, -⟩ := not_or.mp (mt decide_eq_full.mpr (hkind ▸ hfull))
    rw [Chain.lastFull_after] at hinterval
    exact Nat.lt_of_not_le hinterval
  · rw [hkind, decide_eq_full, Chain.lastFull_after, Chain.length_after] at hfull
    exact hfull.imp_right (Nat.le_antisymm hbound)
  · rw [hkind] at hfull ⊢
    exact decide_eq_checkpoint hfull

end Strategy.Decides

/-- A row of snapshots at the end that are not full is counted. -/
theorem length_le_trailing {before window : List SnapshotMetadata}
    (h : ∀ m ∈ window, m.kind ≠ .full) : window.length ≤ trailing (before ++ window) := by
  induction window using List.reverseRecOn with
  | nil => exact Nat.zero_le _
  | append_singleton window m ih =>
      obtain ⟨hwindow, hm⟩ := List.forall_mem_append.mp h
      rw [← List.append_assoc, trailing_concat, if_neg (hm m List.mem_cons_self),
        List.length_append]
      exact Nat.succ_le_succ (ih hwindow)

/-- Too many snapshots in a row cannot all be short of a full one. -/
theorem Strategy.Decides.exists_full {s : Strategy} {log : List Taken} (h : s.Decides log)
    {window : List SnapshotMetadata} (hwindow : window <:+: log.map (·.metadata))
    (hlength : window.length = s.maxChain + 1) : ∃ m ∈ window, m.kind = .full := by
  by_contra hnone
  simp only [not_exists, not_and] at hnone
  obtain ⟨before, after, heq⟩ := hwindow
  obtain ⟨log', rest, rfl, hlog', -⟩ := List.map_eq_append_iff.mp heq.symm
  have hbound := h.of_append.length_le
  have hrow := @length_le_trailing before window hnone
  rw [Chain.length_after, hlog'] at hbound
  omega

namespace Recorder

/-- Chains: after any run, the chain of a recorder counts the snapshots since the last full one and
has its tick, never longer than the strategy allows; so there is a full one in every row of
snapshots that is longer. The kind of each snapshot has its reason in those before it. -/
theorem chains_of_run (store : Store) (strategy : Strategy) (differ : Differ)
    (requests : List Request) :
    let r := (fresh store strategy differ).run requests
    ∃ log : List Taken, log.map (·.capture) = Request.current requests ∧
      log.map (·.metadata) = r.history ∧
      r.chain.length = trailing r.history ∧ r.chain.length ≤ strategy.maxChain ∧
      r.chain.lastFull = lastFullTick log ∧
      (∀ window, window <:+: r.history → window.length = strategy.maxChain + 1 →
        ∃ m ∈ window, m.kind = .full) ∧
      ∀ before taken after, log = before ++ taken :: after → taken.Justified strategy before := by
  intro r
  obtain ⟨log, hcaptures, hstrategy, hrecords⟩ := records_run store strategy differ requests
  have hdecides : strategy.Decides log := hstrategy ▸ hrecords.decides
  have hhistory : r.history = log.map (·.metadata) := hrecords.history_eq
  have hchain : r.chain = .after log := hrecords.chain_eq
  rw [hhistory, hchain]
  exact ⟨log, hcaptures, rfl, Chain.length_after log, hdecides.length_le,
    Chain.lastFull_after log, fun window ↦ hdecides.exists_full,
    fun before taken after ↦ hdecides.justified⟩

/-- Three snapshots are taken at falling ticks, where two in a row may be short of a full one. -/
theorem chains_of_run_falling :
    let requests : List Request := [.take ⟨9, .initial 9 (.zero false), ["level_up"]⟩, .clear,
      .take ⟨5, .initial 5 (.zero false), []⟩, .take ⟨4, .initial 4 (.zero false), ["level_up"]⟩,
      .take ⟨3, .initial 3 (.zero false), []⟩]
    let r := (fresh (.fresh .memory ⟨7⟩ 0) ⟨10, 2, ["level_up"]⟩ ⟨.empty, false⟩).run requests
    r.history.length = 2 + 1 ∧ ∃ m ∈ r.history, m.kind = .full := by
  intro requests r
  obtain ⟨log, hcaptures, hhistory, -, -, -, hrow, -⟩ :=
    chains_of_run (.fresh .memory ⟨7⟩ 0) ⟨10, 2, ["level_up"]⟩ ⟨.empty, false⟩ requests
  have hlength : r.history.length = 2 + 1 := by
    rw [← hhistory, List.length_map, ← List.length_map (·.capture), hcaptures]
    rfl
  exact ⟨hlength, hrow r.history List.infix_rfl hlength⟩

/-- Parents: after any run, a snapshot has the parent that its kind calls for, and where it calls
for none, that of the state that was given for it. So the parent is the right one if there is one
to be set, or else if the state came without a parent. -/
theorem parents_of_run (store : Store) (strategy : Strategy) (differ : Differ)
    (requests : List Request) :
    let r := (fresh store strategy differ).run requests
    ∃ log : List Taken, log.map (·.capture) = Request.current requests ∧
      log.map (·.metadata) = r.history ∧
      ∀ before taken after, log = before ++ taken :: after →
        taken.metadata.parent = (taken.link before).or taken.capture.state.parent ∧
          (taken.metadata.parent = taken.link before ↔
            (taken.link before).isSome ∨ taken.capture.state.parent = none) := by
  intro r
  obtain ⟨log, hcaptures, -, hrecords⟩ := records_run store strategy differ requests
  refine ⟨log, hcaptures, hrecords.history_eq.symm, fun before taken after hlog ↦ ?_⟩
  have hparent := hrecords.parent_eq before taken after hlog
  refine ⟨hparent, ?_⟩
  rw [hparent]
  cases taken.link before <;> simp

/-- A full snapshot of a state that came with a parent has that parent, although it starts a
chain. -/
theorem full_with_parent :
    let state := { GameState.initial 100 (.zero false) with parent := some ⟨1⟩ }
    let r := (fresh (.fresh .memory ⟨7⟩ 0) .default ⟨.empty, false⟩).run [.take ⟨100, state, []⟩]
    r.history.map (fun m ↦ (m.kind, m.parent)) = [(.full, some ⟨1⟩)] := by
  decide +kernel

end Recorder

end Chronicle

import Chronicle.Proofs.Snapshot.Renaming

/-!
# Lookups in a recorder

A recorder is asked for the state at a tick, or for the last states. Both go through its history and
then through its store, so both need the invariant that every entry in the history still has its own
state: `Recorder.Remembers`. With ticks that do not decrease, the last entry at or before a tick is
one with the greatest such tick, and `Recorder.lookup_of_run` says which state is found.
-/

namespace Chronicle

/-- The state that was saved, which is the one that was given with another kind and parent. -/
def Taken.saved (taken : Taken) : GameState :=
  taken.capture.state.stamped taken.metadata.kind taken.metadata.parent

/-- The tick of the state that was given. -/
def Taken.tick (taken : Taken) : Nat := taken.capture.state.tick.toNat

/-- A snapshot is found by its tick if it is the last of those with the greatest tick that is not
after the tick that is asked for. -/
structure Taken.FoundAt (taken : Taken) (log : List Taken) (t : Nat) : Prop where
  tick_le : taken.tick ≤ t
  greatest : ∀ other ∈ log, other.tick ≤ t → other.tick ≤ taken.tick
  last : ∃ before after, log = before ++ taken :: after ∧ ∀ other ∈ after, other.tick ≠ taken.tick

namespace Request

/-- What a request gives to be saved. -/
def capture? : Request → Option Capture
  | take capture => some capture
  | clear => none

/-- What requests give to be saved, in order. -/
def captures (requests : List Request) : List Capture := requests.filterMap capture?

/-- The captures since the last clear, among them earlier ones if there is no clear. -/
def currentFrom (earlier : List Capture) (requests : List Request) : List Capture :=
  requests.foldl (fun captures request ↦
    match request with
    | .take capture => captures ++ [capture]
    | .clear => []) earlier

end Request

namespace Recorder

variable {r : Recorder} {log : List Taken}

/-- The recorder has the snapshots of the log in its history and their states in memory. -/
structure Remembers (r : Recorder) (log : List Taken) : Prop where
  intact : r.Intact
  history_eq : r.history = log.map (·.metadata)
  states_eq : r.store.states = log.map fun taken ↦ (taken.metadata.id, taken.saved)

/-- A snapshot under a new identifier is remembered with those before it. -/
theorem Remembers.take (h : r.Remembers log) {c : Capture} {id : SnapshotId}
    (hid : (r.create c.tick c.state c.events).1 = id) (hnew : id ∉ Keyed.keys r.store.states) :
    ∃ m, (r.handle (.take c)).Remembers (log ++ [⟨c, m⟩]) ∧
      Keyed.keys (r.handle (.take c)).store.states = Keyed.keys r.store.states ++ [id] := by
  obtain ⟨backing, file, heq⟩ := h.intact.create_eq hid hnew
  have hintact := h.intact.create (hid ▸ hnew)
  refine ⟨.ofState id (r.stamp c) file r.store.clock, ⟨hintact, ?_, ?_⟩, ?_⟩
  · show (r.create c.tick c.state c.events).2.history = _
    rw [heq, h.history_eq, List.map_append]
    rfl
  · show (r.create c.tick c.state c.events).2.store.states = _
    rw [heq, h.states_eq, List.map_append]
    rfl
  · show Keyed.keys (r.create c.tick c.state c.events).2.store.states = _
    rw [heq, Keyed.keys, List.map_append]
    rfl

/-- A recorder that gives out no identifier twice remembers what was taken since the last clear. -/
theorem Remembers.run (h : r.Remembers log) {requests : List Request}
    (hids : (Keyed.keys r.store.states ++ SnapshotId.deriveAll r.store.salt r.store.sequence
      (Request.captures requests)).Nodup) :
    ∃ log', (r.run requests).Remembers log' ∧
      log'.map (·.capture) = Request.currentFrom (log.map (·.capture)) requests := by
  induction requests generalizing r log with
  | nil => exact ⟨log, h, rfl⟩
  | cons request rest ih =>
      cases request with
      | clear =>
          have hcleared : r.clear.Remembers [] := ⟨r.intact_clear, rfl, rfl⟩
          exact ih hcleared (List.nodup_append.mp hids).2.1
      | take c =>
          have hcaptures : Request.captures (.take c :: rest) = c :: Request.captures rest := rfl
          rw [hcaptures, SnapshotId.deriveAll, List.append_cons] at hids
          have hnew := (List.nodup_append.mp (List.nodup_append.mp hids).1).2.2
          obtain ⟨m, hremembers, hkeys⟩ := h.take rfl fun hmem ↦
            hnew _ hmem _ (List.mem_singleton.mpr rfl) rfl
          obtain ⟨log', hrun, hlog⟩ := ih hremembers (hkeys ▸ hids)
          refine ⟨log', hrun, hlog.trans ?_⟩
          rw [List.map_append]
          rfl

theorem remembers_run (backing : Backing) (salt : Uuid) (clock : Nat) (strategy : Strategy)
    (differ : Differ) {requests : List Request}
    (hids : (SnapshotId.deriveAll salt 0 (Request.captures requests)).Nodup) :
    ∃ log, ((fresh (.fresh backing salt clock) strategy differ).run requests).Remembers log ∧
      log.map (·.capture) = Request.current requests := by
  have hfresh : (fresh (.fresh backing salt clock) strategy differ).Remembers [] :=
    ⟨intact_fresh backing salt clock strategy differ, rfl, rfl⟩
  exact hfresh.run hids

/-! ### What is found -/

/-- The state at a tick is that of the last snapshot at or before it. -/
theorem Remembers.atTick_eq (h : r.Remembers log) (t : Nat) :
    r.atTick t = ((log.reverse.find? fun taken ↦ taken.tick ≤ t).map (·.saved), r) := by
  rw [h.intact.atTick_eq, h.states_eq, ← List.map_reverse, List.find?_map, Option.map_map]
  rfl

theorem Remembers.recent_eq (h : r.Remembers log) (n : Nat) :
    r.recent n = ((log.drop (log.length - n)).map (·.saved), r) := by
  rw [h.intact.recent_eq, h.states_eq, List.length_map, ← List.map_drop, List.map_map]
  rfl

/-- Where ticks do not decrease, the last snapshot at or before a tick has the greatest such tick. -/
theorem foundAt_of_find? (hticks : log.Pairwise fun a b ↦ a.tick ≤ b.tick) {t : Nat} {taken : Taken}
    (h : log.reverse.find? (fun taken ↦ taken.tick ≤ t) = some taken) : taken.FoundAt log t := by
  obtain ⟨hle, later, earlier, hsplit, hlater⟩ := List.find?_eq_some_iff_append.mp h
  have hle : taken.tick ≤ t := of_decide_eq_true hle
  have hlog : log = earlier.reverse ++ taken :: later.reverse := by
    rw [← List.reverse_reverse log, hsplit]
    simp
  have hafter : ∀ other ∈ later.reverse, t < other.tick := by
    intro other hother
    simpa using hlater other (List.mem_reverse.mp hother)
  refine ⟨hle, fun other hother hother' ↦ ?_, _, _, hlog, fun other hother heq ↦ ?_⟩
  · rw [hlog] at hother hticks
    rcases List.mem_append.mp hother with hbefore | hrest
    · exact (List.pairwise_append.mp hticks).2.2 other hbefore taken List.mem_cons_self
    · rcases List.mem_cons.mp hrest with rfl | hlater
      · exact Nat.le_refl _
      · exact absurd hother' (Nat.not_le.mpr (hafter other hlater))
  · exact absurd hle (Nat.not_le.mpr (heq ▸ hafter other hother))

/-- A run in which ticks do not decrease, and no identifier is given out twice, keeps a log of the
snapshots since the last clear, one for each capture. The state at a tick is that of the snapshot
that is found at the tick, and none if every snapshot is after it; the last states are those at the
end of the log, as many as are wanted and there are. Each is the state that was given, but for its
kind and parent. Neither question changes anything. The tick that is given beside a state matters
to its kind only: a snapshot has the tick of its state. -/
theorem lookup_of_run (backing : Backing) (salt : Uuid) (clock : Nat) (strategy : Strategy)
    (differ : Differ) (requests : List Request)
    (hticks : (Request.current requests).Pairwise fun a b ↦ a.state.tick ≤ b.state.tick)
    (hids : (SnapshotId.deriveAll salt 0 (Request.captures requests)).Nodup) :
    let r := (fresh (.fresh backing salt clock) strategy differ).run requests
    ∃ log : List Taken, log.map (·.capture) = Request.current requests ∧
      log.map (·.metadata) = r.history ∧
      (∀ t, (r.atTick t).2 = r ∧
        ((r.atTick t).1 = none ↔ ∀ taken ∈ log, t < taken.tick) ∧
        ∀ s, (r.atTick t).1 = some s → ∃ taken : Taken, taken.FoundAt log t ∧ s = taken.saved) ∧
      ∀ n, (r.recent n).2 = r ∧ (r.recent n).1 <:+ log.map (·.saved) ∧
        (r.recent n).1.length = min n r.history.length := by
  intro r
  obtain ⟨log, hremembers, hcaptures⟩ := remembers_run backing salt clock strategy differ hids
  have hsorted : log.Pairwise fun a b ↦ a.tick ≤ b.tick := by
    rw [← hcaptures, List.pairwise_map] at hticks
    exact hticks.imp UInt64.le_iff_toNat_le.mp
  refine ⟨log, hcaptures, hremembers.history_eq.symm, fun t ↦ ?_, fun n ↦ ?_⟩
  · rw [hremembers.atTick_eq]
    refine ⟨rfl, ?_, fun s hs ↦ ?_⟩
    · simp
    · obtain ⟨taken, htaken, rfl⟩ := Option.map_eq_some_iff.mp hs
      exact ⟨taken, foundAt_of_find? hsorted htaken, rfl⟩
  · rw [hremembers.recent_eq, hremembers.history_eq]
    refine ⟨rfl, (List.drop_suffix _ log).map _, ?_⟩
    rw [List.length_map, List.length_drop, List.length_map, Nat.sub_sub_eq_min, Nat.min_comm]

/-- Two snapshots of one tick, after a clear. -/
theorem lookup_of_run_tied :
    let state (tick : UInt64) (timestamp : Nat) := GameState.initial tick (.ofInt timestamp)
    let requests : List Request := [.take ⟨5, state 5 0, []⟩, .clear, .take ⟨10, state 10 1, []⟩,
      .take ⟨20, state 20 2, []⟩, .take ⟨20, state 20 3, []⟩, .take ⟨30, state 30 4, []⟩]
    let r := (fresh (.fresh .memory ⟨7⟩ 0) .default ⟨⟨[], [], []⟩, false⟩).run requests
    ∃ log : List Taken, log.map (·.capture) = Request.current requests ∧
      log.map (·.metadata) = r.history ∧
      (∀ t, (r.atTick t).2 = r ∧
        ((r.atTick t).1 = none ↔ ∀ taken ∈ log, t < taken.tick) ∧
        ∀ s, (r.atTick t).1 = some s → ∃ taken : Taken, taken.FoundAt log t ∧ s = taken.saved) ∧
      ∀ n, (r.recent n).2 = r ∧ (r.recent n).1 <:+ log.map (·.saved) ∧
        (r.recent n).1.length = min n r.history.length :=
  lookup_of_run .memory ⟨7⟩ 0 .default ⟨⟨[], [], []⟩, false⟩ _ (by decide) (by decide +kernel)

end Recorder

end Chronicle

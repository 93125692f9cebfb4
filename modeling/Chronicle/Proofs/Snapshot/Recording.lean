import Chronicle.Snapshot.Recorder
import Mathlib.Data.List.DropRight

/-!
# Runs of a recorder

A run is a list of requests, to take a snapshot or to forget them all. `Recorder.records_run` says
what stands in the history afterwards: the snapshots since the last clear, in order, each of the
kind that the strategy decides on after those before it.
-/

namespace Chronicle

/-- What a recorder is given for a snapshot. -/
structure Capture where
  tick : Nat
  state : GameState
  events : List String
deriving DecidableEq

/-- What is asked of a recorder. -/
inductive Request where
  | take (capture : Capture)
  | clear
deriving DecidableEq

/-- The captures since the last clear. -/
def Request.current (requests : List Request) : List Capture :=
  requests.foldl (fun captures request ↦
    match request with
    | .take capture => captures ++ [capture]
    | .clear => []) []

/-- A snapshot in a history: what was given for it, and what is known of it. -/
structure Taken where
  capture : Capture
  metadata : SnapshotMetadata

/-- The parent that the kind of a snapshot calls for. A full snapshot starts a chain; another one
continues that of the snapshot before it, if there is one. -/
def Taken.link (taken : Taken) (before : List Taken) : Option SnapshotId :=
  match taken.metadata.kind with
  | .full => none
  | .incremental | .checkpoint => before.getLast?.map (·.metadata.id)

/-- The chain after the given snapshots. -/
def Chain.after (log : List Taken) : Chain :=
  log.foldl (fun chain taken ↦ chain.record taken.capture.tick taken.metadata.kind) .start

theorem Chain.after_concat (log : List Taken) (taken : Taken) :
    after (log ++ [taken]) = (after log).record taken.capture.tick taken.metadata.kind :=
  List.foldl_concat ..

/-- Every snapshot is of the kind that the strategy decides on after those before it. -/
def Strategy.Decides (s : Strategy) (log : List Taken) : Prop :=
  ∀ before taken after, log = before ++ taken :: after →
    taken.metadata.kind = s.decide taken.capture.tick taken.capture.events (.after before)

/-- What holds of each element of a list and those before it, and of a new last one, holds of all
of them. -/
theorem forall_split_concat {α : Type} {p : List α → α → Prop} {xs : List α} {x : α}
    (h : ∀ before y after, xs = before ++ y :: after → p before y) (hlast : p xs x) :
    ∀ before y after, xs ++ [x] = before ++ y :: after → p before y := by
  intro before y after heq
  rcases List.eq_nil_or_concat after with rfl | ⟨rest, z, rfl⟩
  · obtain ⟨rfl, hy⟩ := List.append_inj' heq rfl
    cases hy
    exact hlast
  · rw [List.concat_eq_append, ← List.cons_append, ← List.append_assoc] at heq
    obtain ⟨hxs, -⟩ := List.append_inj' heq rfl
    exact h before y rest hxs

/-- What is saved is known afterwards. -/
theorem Store.metadata?_save (store : Store) (state : GameState) :
    ∃ file, (store.save state).2.metadata? (store.save state).1 =
      some (.ofState (store.save state).1 state file store.clock) := by
  simp only [save, metadata?, Keyed.lookup_insert]
  exact ⟨_, rfl⟩

namespace Recorder

/-- The recorder after a request. -/
def handle (r : Recorder) : Request → Recorder
  | .take c => (r.create c.tick c.state c.events).2
  | .clear => r.clear

/-- The recorder after requests one after another. -/
def run (r : Recorder) (requests : List Request) : Recorder := requests.foldl handle r

/-- A snapshot goes to the end of the history, and is recorded in the chain. -/
theorem handle_take (r : Recorder) (c : Capture) :
    ∃ m : SnapshotMetadata, (r.handle (.take c)).history = r.history ++ [m] ∧
      (r.handle (.take c)).chain = r.chain.record c.tick m.kind ∧
      (r.handle (.take c)).strategy = r.strategy ∧
      m.kind = r.strategy.decide c.tick c.events r.chain ∧
      m.parent = r.parentFor m.kind c.state := by
  let kind := r.strategy.decide c.tick c.events r.chain
  let saved : GameState := { c.state with kind, parent := r.parentFor kind c.state }
  obtain ⟨file, hfile⟩ := r.store.metadata?_save saved
  refine ⟨.ofState (r.store.save saved).1 saved file r.store.clock, ?_, rfl, rfl, rfl, rfl⟩
  exact congrArg (fun known ↦ r.history ++ known.toList) hfile

/-- The history holds the snapshots of the log, taken as the strategy decides. One that has no
parent by its kind keeps the parent of the state that was given for it. -/
structure Records (r : Recorder) (log : List Taken) : Prop where
  history_eq : r.history = log.map (·.metadata)
  chain_eq : r.chain = .after log
  decides : r.strategy.Decides log
  parent_eq : ∀ before taken after, log = before ++ taken :: after →
    taken.metadata.parent = (taken.link before).or taken.capture.state.parent

variable {r : Recorder} {log : List Taken}

theorem records_nil (hhistory : r.history = []) (hchain : r.chain = .start) : r.Records [] :=
  ⟨hhistory, hchain, fun _ _ _ h ↦ by simp at h, fun _ _ _ h ↦ by simp at h⟩

/-- The parent of a snapshot is the one that its kind calls for, or else that of the state. -/
theorem parentFor_eq (h : r.Records log) (taken : Taken) :
    r.parentFor taken.metadata.kind taken.capture.state =
      (taken.link log).or taken.capture.state.parent := by
  simp only [parentFor, Taken.link, h.history_eq, List.getLast?_map]
  cases taken.metadata.kind <;> cases log.getLast? <;> rfl

/-- A snapshot is added to the log. -/
theorem Records.take (h : r.Records log) (c : Capture) :
    ∃ m, (r.handle (.take c)).strategy = r.strategy ∧
      (r.handle (.take c)).Records (log ++ [⟨c, m⟩]) := by
  obtain ⟨m, hhistory, hchain, hstrategy, hkind, hparent⟩ := r.handle_take c
  refine ⟨m, hstrategy, ?_, ?_, ?_, ?_⟩
  · rw [hhistory, h.history_eq, List.map_append, List.map_singleton]
  · rw [hchain, h.chain_eq, Chain.after_concat]
  · rw [hstrategy]
    exact forall_split_concat h.decides (by rw [hkind, h.chain_eq])
  · exact forall_split_concat h.parent_eq (hparent.trans (parentFor_eq h ⟨c, m⟩))

/-- The recorder records what it is given, from the last clear on. -/
theorem records_run (store : Store) (strategy : Strategy) (differ : Differ)
    (requests : List Request) :
    ∃ log, log.map (·.capture) = Request.current requests ∧
      ((fresh store strategy differ).run requests).strategy = strategy ∧
      ((fresh store strategy differ).run requests).Records log := by
  induction requests using List.reverseRecOn with
  | nil => exact ⟨[], rfl, rfl, records_nil rfl rfl⟩
  | append_singleton requests request ih =>
      obtain ⟨log, hcaptures, hstrategy, hrecords⟩ := ih
      rw [run, List.foldl_concat, ← run, Request.current, List.foldl_concat, ← Request.current]
      cases request with
      | take c =>
          obtain ⟨m, hkept, htaken⟩ := hrecords.take c
          exact ⟨_, by simp [hcaptures], hkept.trans hstrategy, htaken⟩
      | clear => exact ⟨[], rfl, hstrategy, records_nil rfl rfl⟩

end Recorder

end Chronicle

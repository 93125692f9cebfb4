import Chronicle.Proofs.Rules.Stamp
import Chronicle.Proofs.Snapshot.Consistency
import Chronicle.Proofs.Snapshot.Recording
import Chronicle.Snapshot.Replayer
import Mathlib.Data.Fintype.Card

/-!
# Recording and replay

A recorder diffs every state that comes in with the last one that it saved, while a replay diffs the
states as they were saved, once they have been found again by tick. `Recorder.replay_record` says
that the diffs are the same, if the ticks increase and no rule looks at what a save adds to a state.
-/

namespace Chronicle

/-- There is a diff for each state but the first. -/
theorem Differ.length_between (d : Differ) (states : List GameState) :
    (d.between states).length = states.length - 1 := by
  fun_induction between d states with
  | case1 => rfl
  | case2 => rfl
  | case3 prev curr rest ih =>
      rw [List.length_cons, ih]
      rfl

/-- Behind an earlier state, if there is one, comes the diff from there. -/
theorem Differ.between_cons (d : Differ) (last : Option GameState) (s : GameState)
    (rest : List GameState) : d.between (last.toList ++ s :: rest) =
      (last.map fun prev ↦ (d.diff ⟨prev, s⟩ none).diff).toList ++ d.between (s :: rest) := by
  cases last <;> rfl

/-- No tick is outside the range of all of them. -/
theorem Replayer.range_all (r : Replayer) :
    (r.range 0 (2 ^ 64 - 1)).1 = (r.store.restoreAll (r.store.list.map (·.id))).1 := by
  have hall : (r.store.list.filter fun m ↦ 0 ≤ m.tick.toNat ∧ m.tick.toNat ≤ 2 ^ 64 - 1) =
      r.store.list := by
    refine List.filter_eq_self.mpr fun m _ ↦ decide_eq_true ⟨Nat.zero_le _, ?_⟩
    exact Nat.le_sub_one_of_lt m.tick.toNat_lt
  rw [range, hall]

/-- A replay finds the states of a log in which the ticks increase. -/
theorem Replayer.exists_range {listing : Folder} {log : List Saved}
    (hlisting : listing.contents.Perm (log.map (·.file))) (hids : (log.map (·.id)).Nodup)
    (hrecorded : ∀ saved ∈ log, saved.Recorded) (hreadable : ∀ saved ∈ log, saved.state.Readable)
    (hticks : log.Pairwise fun a b ↦ a.state.tick < b.state.tick) (salt : Uuid) (clock : Nat)
    (differ : Differ) :
    ∃ store, openAt (.folder listing) .whole salt clock differ = .ok ⟨store, differ⟩ ∧
      (range ⟨store, differ⟩ 0 (2 ^ 64 - 1)).1 = log.map (·.state) := by
  let start := Store.fresh (.directory (some listing)) salt clock
  obtain ⟨indexed, hindexed, hrecalls⟩ :=
    Store.recalls_index hlisting hids hrecorded hreadable salt clock
  have hkeys : (Keyed.keys indexed.metadata).Nodup := by
    rw [← show _ = indexed from congrArg Prod.snd hindexed]
    exact ((Store.consistent_empty rfl).index .whole).nodup
  refine ⟨indexed, ?_, ?_⟩
  · have hopen : openAt (.folder listing) .whole salt clock differ =
        (start.index .whole).1 >>= fun _ ↦ .ok ⟨(start.index .whole).2, differ⟩ := rfl
    rw [hopen, hindexed]
    rfl
  · rw [range_all, hrecalls.restoreAll_list hrecorded hkeys hids hticks]

/-- A replay answers the diffs between the states of such a log. -/
theorem Replayer.exists_openAt {listing : Folder} {log : List Saved}
    (hlisting : listing.contents.Perm (log.map (·.file))) (hids : (log.map (·.id)).Nodup)
    (hrecorded : ∀ saved ∈ log, saved.Recorded) (hreadable : ∀ saved ∈ log, saved.state.Readable)
    (hticks : log.Pairwise fun a b ↦ a.state.tick < b.state.tick) (salt : Uuid) (clock : Nat)
    (differ : Differ) :
    ∃ replayer, openAt (.folder listing) .whole salt clock differ = .ok replayer ∧
      (replayer.diffs 0 (2 ^ 64 - 1)).1 = differ.between (log.map (·.state)) := by
  obtain ⟨store, hopen, hrange⟩ :=
    exists_range hlisting hids hrecorded hreadable hticks salt clock differ
  exact ⟨_, hopen, congrArg differ.between hrange⟩

namespace Recorder

/-- Takes a snapshot of each state, and answers the diffs. -/
def record (r : Recorder) : List GameState → List StateDiff × Recorder
  | [] => ([], r)
  | state :: rest =>
    let (diff, _, r) := r.advance state
    let (diffs, r) := r.record rest
    (diff.toList ++ diffs, r)

/-- The recorder has saved just what the log says, and still has it in memory. -/
structure Keeps (r : Recorder) (salt : Uuid) (log : List Saved) : Prop where
  logged : r.store.Logged salt log
  nodup : (log.map (·.id)).Nodup
  history_eq : r.history.map (·.id) = log.map (·.id)
  held : ∀ saved ∈ log, r.store.states.lookup saved.id = some saved.state

variable {r : Recorder} {salt : Uuid} {log : List Saved}

theorem keeps_fresh {store : Store} (h : store.Logged salt []) (strategy : Strategy)
    (differ : Differ) : (fresh store strategy differ).Keeps salt [] :=
  ⟨h, List.nodup_nil, rfl, fun _ hmem ↦ absurd hmem List.not_mem_nil⟩

/-- The last state is still there. -/
theorem Keeps.recent_one (h : r.Keeps salt log) :
    r.recent 1 = ((log.getLast?.map (·.state)).toList, r) := by
  rcases List.eq_nil_or_concat log with rfl | ⟨front, saved, rfl⟩
  · have hnone : (r.history.drop (r.history.length - 1)).map (·.id) = [] := by
      rw [List.map_eq_nil_iff.mp h.history_eq]
      rfl
    rw [recent, hnone]
    rfl
  · rw [List.concat_eq_append] at h ⊢
    have hids := h.history_eq
    rw [List.map_append, List.map_singleton] at hids
    have hlength : r.history.length = front.length + 1 := by
      simpa using congrArg List.length hids
    have hlast : (r.history.drop (r.history.length - 1)).map (·.id) = [saved.id] := by
      rw [List.map_drop, hids, hlength]
      exact List.drop_left' (by simp)
    have hheld := h.held saved (by simp)
    have hrestored : r.store.restoreAll [saved.id] = ([saved.state], r.store) := by
      rw [Store.restoreAll, Store.restore, hheld]
      rfl
    rw [recent, hlast, hrestored, List.getLast?_concat]
    rfl

/-- A snapshot under a new identifier is kept along with those before it. -/
theorem Keeps.create (h : r.Keeps salt log) (hroom : log.length ≤ Store.lastSequence)
    {state : GameState} (hnew : SnapshotId.derive salt state.tick.toNat state.timestamp log.length ∉
      log.map (·.id)) (tick : Nat) (events : List String) :
    ∃ saved, (∃ kind parent, saved.state = state.stamped kind parent) ∧
      (r.create tick state events).2.Keeps salt (log ++ [saved]) := by
  let kind := r.strategy.decide tick events r.chain
  let stamped := state.stamped kind (r.parentFor kind state)
  obtain ⟨saved, hsaved, hstate, hlogged⟩ := @Store.Logged.save r.store salt log stamped h.logged
    hroom _ rfl hnew
  obtain ⟨file, hmetadata⟩ := r.store.metadata?_save stamped
  have hid : saved.id = (r.store.save stamped).1 := congrArg Saved.id (List.cons.inj hsaved).1.symm
  have hderived := hid.trans (h.logged.toNumbered.id_save hroom stamped)
  refine ⟨saved, ⟨kind, _, hstate⟩, hlogged, ?_, ?_, ?_⟩
  · rw [List.map_append, List.map_singleton, hderived]
    refine List.nodup_append.mpr ⟨h.nodup, List.nodup_singleton _, ?_⟩
    rintro id hmem _ hlast rfl
    exact hnew (List.mem_singleton.mp hlast ▸ hmem)
  · show (r.history ++
      ((r.store.save stamped).2.metadata? (r.store.save stamped).1).toList).map _ = _
    rw [hmetadata, List.map_append, h.history_eq, List.map_append]
    show _ ++ [(r.store.save stamped).1] = _
    rw [← hid]
    rfl
  · show ∀ other ∈ log ++ [saved],
      (Keyed.insert (r.store.save stamped).1 stamped r.store.states).lookup other.id = _
    rw [← hid]
    refine List.forall_mem_append.mpr ⟨fun other hother ↦ ?_, List.forall_mem_singleton.mpr ?_⟩
    · have hne : other.id ≠ saved.id := by
        rw [hderived]
        exact fun heq ↦ hnew (heq ▸ List.mem_map_of_mem hother)
      rw [Keyed.lookup_insert, if_neg hne]
      exact h.held other hother
    · rw [Keyed.lookup_insert, if_pos rfl, hstate]

/-- A state is diffed with the last one that was saved, and then saved. -/
theorem Keeps.advance (h : r.Keeps salt log) (hroom : log.length ≤ Store.lastSequence)
    {state : GameState} (hnew : SnapshotId.derive salt state.tick.toNat state.timestamp log.length ∉
      log.map (·.id)) :
    ∃ saved, (∃ kind parent, saved.state = state.stamped kind parent) ∧
      (r.advance state).1 = log.getLast?.map (fun last ↦ r.diff last.state state) ∧
      (r.advance state).2.2.differ = r.differ ∧
      (r.advance state).2.2.Keeps salt (log ++ [saved]) := by
  have hdiff : (log.getLast?.map (·.state)).toList.getLast?.map (fun last ↦ r.diff last state) =
      log.getLast?.map fun last ↦ r.diff last.state state := by
    cases log.getLast? <;> rfl
  rw [Recorder.advance, h.recent_one]
  obtain ⟨saved, hstamped, hkeeps⟩ := h.create hroom hnew state.tick.toNat _
  exact ⟨saved, hstamped, hdiff, rfl, hkeeps⟩

theorem names_stamped (before : List GameState) (s : GameState) (kind : SnapshotKind)
    (parent : Option SnapshotId) (after : List GameState) :
    SnapshotId.names (before ++ s.stamped kind parent :: after) =
      SnapshotId.names (before ++ s :: after) := by
  simp only [SnapshotId.names, List.zipIdx_append, List.zipIdx_cons, List.map_append, List.map_cons]
  rfl

/-- The diffs that a recorder answers are those between the states as it saves them, if the stamp
of a state makes no difference. -/
theorem Keeps.record {states : List GameState} (h : r.Keeps salt log)
    (hstamp : r.differ.book.IgnoresStamp)
    (hroom : log.length + states.length ≤ Store.lastSequence + 1)
    (hids : ((SnapshotId.names (log.map (·.state) ++ states)).map (Uuid.version5 salt)).Nodup) :
    ∃ more, (∀ saved ∈ more, ∃ s ∈ states, ∃ kind parent, saved.state = s.stamped kind parent) ∧
      more.map (·.state.tick) = states.map (·.tick) ∧
      (r.record states).2.Keeps salt (log ++ more) ∧
      (r.record states).1 =
        r.differ.between ((log.getLast?.map (·.state)).toList ++ more.map (·.state)) := by
  induction states generalizing r log with
  | nil =>
      have hsame : (r.record []).2.Keeps salt (log ++ []) := (List.append_nil log).symm ▸ h
      refine ⟨[], fun _ hmem ↦ absurd hmem List.not_mem_nil, rfl, hsame, ?_⟩
      cases log.getLast? <;> rfl
  | cons state rest ih =>
      rw [List.length_cons] at hroom
      obtain ⟨saved, ⟨kind, parent, hsaved⟩, hdiff, hdiffer, hkeeps⟩ :=
        h.advance (by omega) (h.logged.toNumbered.derive_not_mem hids)
      -- The stamp is no part of a name, so the rest of the run keeps its identifiers.
      have hrest : ((SnapshotId.names ((log ++ [saved]).map (·.state) ++ rest)).map
          (Uuid.version5 salt)).Nodup := by
        rw [List.map_append, List.map_singleton, ← List.append_cons, hsaved, names_stamped]
        exact hids
      have hleft : (log ++ [saved]).length + rest.length ≤ Store.lastSequence + 1 := by
        rw [List.length_append, List.length_singleton]
        omega
      obtain ⟨more, hsources, hticks, hlater, hdiffs⟩ := ih hkeeps (hdiffer ▸ hstamp) hleft hrest
      refine ⟨saved :: more, ?_, ?_, ?_, ?_⟩
      · refine List.forall_mem_cons.mpr ⟨⟨state, List.mem_cons_self, kind, parent, hsaved⟩, ?_⟩
        intro other hother
        obtain ⟨s, hs, hstamped⟩ := hsources other hother
        exact ⟨s, List.mem_cons_of_mem _ hs, hstamped⟩
      · rw [List.map_cons, List.map_cons, hticks, hsaved]
        rfl
      · rw [List.append_cons]
        exact hlater
      · have hsame : ∀ last : Saved, r.diff last.state state =
            (r.differ.diff ⟨last.state, saved.state⟩ none).diff := by
          intro last
          rw [hsaved, Differ.diff_stamped hstamp]
          rfl
        show (r.advance state).1.toList ++ ((r.advance state).2.2.record rest).1 = _
        rw [hdiffs, hdiff, hdiffer, List.getLast?_concat, List.map_cons, Differ.between_cons,
          Option.map_map]
        simp only [hsame]
        rfl

/-- No more than 2 ^ 64 states have different ticks. -/
theorem length_le_of_ticks {states : List GameState}
    (hticks : states.Pairwise fun a b ↦ a.tick < b.tick) : states.length ≤ 2 ^ 64 := by
  have hnodup : (states.map fun s ↦ s.tick.toFin).Nodup :=
    List.pairwise_map.mpr (hticks.imp fun hlt heq ↦ UInt64.ne_of_lt hlt (UInt64.toFin_inj.mp heq))
  have hlength := hnodup.length_le_card
  rwa [List.length_map, Fintype.card_fin] at hlength

/-- Recording and replay agree: the diffs that are answered while states with increasing ticks are
recorded on an empty directory are those that a replay of the directory answers for all ticks. The
files may be listed in any order, and may have been changed at any moment. -/
theorem replay_record {place : Place} (hplace : place = .vacant ∨ place = .folder []) {salt : Uuid}
    {clock : Nat} {store : Store} (hopen : Store.openAt place salt clock = .ok store)
    (strategy : Strategy) {differ : Differ} (hstamp : differ.book.IgnoresStamp)
    {states : List GameState} (hdecoded : ∀ s ∈ states, ∃ cs, GameState.parse cs = .ok s)
    (hticks : states.Pairwise fun a b ↦ a.tick < b.tick)
    (hdistinct : ∀ a ∈ SnapshotId.names states, ∀ b ∈ SnapshotId.names states,
      Uuid.version5 salt a = Uuid.version5 salt b → a = b) :
    let recorded := (fresh store strategy differ).record states
    recorded.1.length = states.length - 1 ∧
      ∃ folder, recorded.2.store.backing = .directory (some folder) ∧
        ∀ listing : Folder, listing.contents.Perm folder.contents → ∀ salt' clock',
          ∃ replayer, Replayer.openAt (.folder listing) .whole salt' clock' differ = .ok replayer ∧
            (replayer.diffs 0 (2 ^ 64 - 1)).1 = recorded.1 := by
  intro recorded
  have hids := Store.nodup_ids hdistinct
  have hroom : ([] : List Saved).length + states.length ≤ Store.lastSequence + 1 := by
    rw [List.length_nil, Nat.zero_add]
    exact length_le_of_ticks hticks
  obtain ⟨log, hsources, hlogTicks, hkeeps, hdiffs⟩ :=
    (keeps_fresh (Store.logged_fresh hplace hopen) strategy differ).record hstamp hroom hids
  rw [List.nil_append] at hkeeps
  obtain ⟨folder, hbacking, hfolder⟩ := hkeeps.logged.files
  refine ⟨?_, folder, hbacking, fun listing hlisting salt' clock' ↦ ?_⟩
  · have hlength : (log.map (·.state)).length = states.length := by
      simpa using congrArg List.length hlogTicks
    rw [← hlength]
    exact (congrArg List.length hdiffs).trans (differ.length_between _)
  · -- What can be listed later are the files of the log, each with a state that is read back.
    rw [hfolder] at hlisting
    have hreadable : ∀ saved ∈ log, saved.state.Readable := by
      intro saved hsaved
      obtain ⟨s, hs, kind, parent, hstamped⟩ := hsources saved hsaved
      obtain ⟨cs, hcs⟩ := hdecoded s hs
      exact hstamped ▸ GameState.readable_stamped hcs kind parent
    have hincreasing : log.Pairwise fun a b ↦ a.state.tick < b.state.tick := by
      refine List.pairwise_map.mp ?_
      rw [hlogTicks]
      exact List.pairwise_map.mpr hticks
    obtain ⟨replayer, hreplayer, hreplayed⟩ := Replayer.exists_openAt hlisting hkeeps.nodup
      hkeeps.logged.recorded hreadable hincreasing salt' clock' differ
    exact ⟨replayer, hreplayer, hreplayed.trans hdiffs.symm⟩

/-- The state that a run begins with, as a text. -/
def openingText : String :=
  "\x7b
  \"tick\": 1, \"timestamp\": 0.0,
  \"player\": \x7b
    \"hp\": 100, \"max_hp\": 100, \"mp\": 50, \"max_mp\": 50, \"level\": 1, \"exp\": 0, \"max_exp\": 100,
    \"atk\": 10, \"def\": 5, \"gold\": 0
  \x7d,
  \"inventory\": \x7b\"slots\": 20\x7d, \"world\": \x7b\"floor\": 1, \"in_battle\": false\x7d
\x7d"

set_option maxRecDepth 100000 in
theorem parse_openingText :
    GameState.parse openingText.toList = .ok (.initial 1 (.zero false)) :=
  eq_ok_of_ofList ⟨_, rfl, by decide +kernel⟩

/-- The player loses hit points between two states, at which a rule fires that looks at the kind of
the earlier state. -/
theorem replay_record_hurt :
    let hurt : EventRule := ⟨"hurt", "combat", "hp_delta < 0 && prev.snapshot_type == 'incr'", "",
      1, [⟨"prev.parent_id"⟩, ⟨"curr.player.hp"⟩]⟩
    let differ : Differ := ⟨⟨["combat"], [hurt], [⟨"halved", "hp_ratio <= 0.5"⟩]⟩, false⟩
    let recorded := (fresh (.fresh (.directory (some [])) ⟨7⟩ 0) .default differ).record
      [.initial 1 (.zero false), .checkpoint]
    recorded.1.map (·.events) = [["hurt"]] ∧
      ∃ folder, recorded.2.store.backing = .directory (some folder) ∧
        ∀ listing : Folder, listing.contents.Perm folder.contents → ∀ salt' clock',
          ∃ replayer, Replayer.openAt (.folder listing) .whole salt' clock' differ = .ok replayer ∧
            (replayer.diffs 0 (2 ^ 64 - 1)).1 = recorded.1 := by
  intro hurt differ recorded
  have hdecoded : ∀ s ∈ [GameState.initial 1 (.zero false), .checkpoint],
      ∃ cs, GameState.parse cs = .ok s :=
    List.forall_mem_cons.mpr ⟨⟨_, parse_openingText⟩,
      List.forall_mem_singleton.mpr ⟨_, GameState.parse_checkpointText⟩⟩
  have hstamp : differ.book.IgnoresStamp := by decide +kernel
  have hdistinct : ∀ a ∈ SnapshotId.names [.initial 1 (.zero false), .checkpoint],
      ∀ b ∈ SnapshotId.names [.initial 1 (.zero false), .checkpoint],
        Uuid.version5 ⟨7⟩ a = Uuid.version5 ⟨7⟩ b → a = b := by decide +kernel
  obtain ⟨-, hreplay⟩ :=
    replay_record (.inl rfl) rfl .default hstamp hdecoded (by decide) hdistinct
  exact ⟨by decide +kernel, hreplay⟩

end Recorder

end Chronicle

import Chronicle.Proofs.Snapshot.Listing
import Chronicle.Proofs.Snapshot.Recording

/-!
# Conversations with a recorder

A recorder is asked one thing after another, and in between others may change the directory of its
store. Whatever they do, a recorder that began with nothing has the state of every snapshot in its
history in memory, `Recorder.Intact`. So no answer depends on a file: what a question is answered
with can be read off the states in memory, `Recorder.Intact.ask_eq`.
-/

namespace Chronicle

/-- What is asked of a recorder. -/
inductive Inquiry where
  | take (capture : Capture)
  | atTick (tick : Nat)
  | recent (count : Nat)
  | history
  | list
  | chain
  | diff (prev curr : GameState)
  | clear
deriving DecidableEq

/-- What a recorder replies. -/
inductive Reply where
  | taken (id : SnapshotId)
  | state (found : Option GameState)
  | states (found : List GameState)
  | records (known : List SnapshotMetadata)
  | chain (chain : Chain)
  | diff (diff : StateDiff)
  | cleared
deriving DecidableEq

/-- A turn in a conversation: something is asked, or others change the directory. Others can also
keep a file from being written, by taking the directory away and putting it back afterwards. -/
inductive Turn where
  | ask (inquiry : Inquiry)
  | disturb (change : Nat → Option Folder → Option Folder)

/-- What a turn gives to be saved. -/
def Turn.capture? : Turn → Option Capture
  | .ask (.take c) => some c
  | _ => none

/-- What turns give to be saved, in order. -/
def Turn.captures (turns : List Turn) : List Capture := turns.filterMap capture?

theorem Turn.eq_of_capture? {turn : Turn} {c : Capture} (h : turn.capture? = some c) :
    turn = .ask (.take c) := by
  unfold capture? at h
  split at h
  · cases h
    rfl
  · cases h

/-- What a record says apart from the file and the moment when it was made. -/
def SnapshotMetadata.brief (m : SnapshotMetadata) : SnapshotMetadata :=
  { m with file := none, recorded := 0 }

/-- The brief record of a state in memory. -/
def SnapshotMetadata.ofEntry (entry : SnapshotId × GameState) : SnapshotMetadata :=
  .ofState entry.1 entry.2 none 0

namespace Reply

/-- The reply with brief records. -/
def brief : Reply → Reply
  | records known => records (known.map (·.brief))
  | reply => reply

/-- The identifier that is given out with the reply. -/
def id? : Reply → Option SnapshotId
  | taken id => some id
  | _ => none

/-- The identifiers that are given out, in order. -/
def ids (replies : List Reply) : List SnapshotId := replies.filterMap id?

theorem ids_append (replies more : List Reply) : ids (replies ++ more) = ids replies ++ ids more :=
  List.filterMap_append

end Reply

/-- What others do to a directory changes nothing in memory. -/
theorem Store.states_disturb (store : Store) (change : Nat → Option Folder → Option Folder) :
    (store.disturb change).states = store.states := by
  unfold disturb
  cases store.backing <;> rfl

namespace Recorder

/-- Replies to what is asked. -/
def reply (r : Recorder) : Inquiry → Reply × Recorder
  | .take c =>
    let (id, r) := r.create c.tick c.state c.events
    (.taken id, r)
  | .atTick tick =>
    let (found, r) := r.atTick tick
    (.state found, r)
  | .recent count =>
    let (found, r) := r.recent count
    (.states found, r)
  | .history => (.records r.history, r)
  | .list => (.records r.store.list, r)
  | .chain => (.chain r.chain, r)
  | .diff prev curr => (.diff (r.diff prev curr), r)
  | .clear => (.cleared, r.clear)

/-- Lets one turn happen. -/
def act (r : Recorder) : Turn → List Reply × Recorder
  | .ask inquiry =>
    let (reply, r) := r.reply inquiry
    ([reply], r)
  | .disturb change => ([], { r with store := r.store.disturb change })

/-- Lets turns happen one after another. -/
def converse (r : Recorder) : List Turn → List Reply × Recorder
  | [] => ([], r)
  | turn :: rest =>
    let (replies, r) := r.act turn
    let (more, r) := r.converse rest
    (replies ++ more, r)

/-- The state that is saved for a capture. -/
def stamp (r : Recorder) (c : Capture) : GameState :=
  let kind := r.strategy.decide c.tick c.events r.chain
  c.state.stamped kind (r.parentFor kind c.state)

/-- The recorder has the states of just the snapshots in its history in memory, and their records,
all in the order in which they were taken. -/
structure Intact (r : Recorder) : Prop where
  recorded : r.store.metadata = r.history.map fun m ↦ (m.id, m)
  described : r.history.map (·.brief) = r.store.states.map .ofEntry
  nodup : (Keyed.keys r.store.states).Nodup
  increasing : r.history.Pairwise fun a b ↦ a.recorded < b.recorded
  past : ∀ m ∈ r.history, m.recorded < r.store.clock

variable {r : Recorder}

/-- A recorder without a snapshot has all of none in memory. -/
theorem intact_nil (hhistory : r.history = []) (hstates : r.store.states = [])
    (hmetadata : r.store.metadata = []) : r.Intact := by
  refine ⟨?_, ?_, ?_, ?_, ?_⟩
  · rw [hmetadata, hhistory]
    rfl
  · rw [hstates, hhistory]
    rfl
  · rw [hstates]
    exact List.nodup_nil
  · rw [hhistory]
    exact .nil
  · rw [hhistory]
    exact fun _ hm ↦ absurd hm List.not_mem_nil

theorem intact_fresh (backing : Backing) (salt : Uuid) (clock : Nat) (strategy : Strategy)
    (differ : Differ) : (fresh (.fresh backing salt clock) strategy differ).Intact :=
  intact_nil rfl rfl rfl

theorem intact_clear (r : Recorder) : r.clear.Intact := intact_nil rfl rfl rfl

/-! ### What is in memory -/

theorem Intact.map_id (h : r.Intact) : r.history.map (·.id) = Keyed.keys r.store.states := by
  have hids := congrArg (List.map SnapshotMetadata.id) h.described
  rwa [List.map_map, List.map_map] at hids

/-- What a record in the history describes is restored from memory. -/
theorem Intact.restore_eq (h : r.Intact) {m : SnapshotMetadata} {entry : SnapshotId × GameState}
    (hentry : entry ∈ r.store.states) (heq : m.brief = .ofEntry entry) :
    r.store.restore m.id = (some entry.2, r.store) := by
  have hid : m.id = entry.1 := congrArg SnapshotMetadata.id heq
  rw [Store.restore, hid, Keyed.lookup_eq_some_of_mem h.nodup hentry]

/-- What records in the history describe is restored from memory. -/
theorem Intact.restoreAll_eq (h : r.Intact) {records : List SnapshotMetadata}
    {entries : List (SnapshotId × GameState)} (hentries : ∀ entry ∈ entries, entry ∈ r.store.states)
    (heq : records.map (·.brief) = entries.map .ofEntry) :
    r.store.restoreAll (records.map (·.id)) = (entries.map (·.2), r.store) := by
  induction records generalizing entries with
  | nil =>
      rw [List.map_eq_nil_iff.mp heq.symm]
      rfl
  | cons m records ih =>
      obtain ⟨entry, rest, rfl, hfirst, hrest⟩ := List.map_eq_cons_iff.mp heq.symm
      obtain ⟨hentry, hentries⟩ := List.forall_mem_cons.mp hentries
      rw [List.map_cons, Store.restoreAll, h.restore_eq hentry hfirst.symm]
      simp only [ih hentries hrest.symm]
      rfl

/-! ### Questions -/

instance (a b : SnapshotMetadata) : Decidable (a.NotAfter b) :=
  inferInstanceAs (Decidable (_ ∨ _))

/-- The snapshot may stand before the other by their ticks and timestamps. -/
def inTime (a b : SnapshotMetadata) : Bool := a.NotAfter b

/-- Ticks and timestamps decide whether a snapshot may stand before one that was recorded later. -/
theorem precedes_eq_inTime {a b : SnapshotMetadata} (h : a.recorded < b.recorded) :
    a.precedes b = inTime a b := by
  cases hprecedes : a.precedes b with
  | true => exact (decide_eq_true (SnapshotMetadata.notAfter_of_precedes hprecedes)).symm
  | false =>
      refine (decide_eq_false fun hab ↦ ?_).symm
      -- Each may stand before the other, so the moments decide, and they are in this order.
      have hba := SnapshotMetadata.notAfter_of_not_precedes hprecedes
      have htick : a.tick = b.tick := UInt64.le_antisymm hab.tick_le hba.tick_le
      have htime : a.timestamp.key = b.timestamp.key := by
        rcases hab with hlt | ⟨-, hab⟩
        · exact absurd htick (UInt64.ne_of_lt hlt)
        · rcases hba with hlt | ⟨-, hba⟩
          · exact absurd htick.symm (UInt64.ne_of_lt hlt)
          · exact Int.le_antisymm hab hba
      rw [SnapshotMetadata.precedes, SnapshotMetadata.order, htick, Binary64.order, htime,
        compare_lt_iff_lt.mpr h] at hprecedes
      simp at hprecedes

/-- The reply to a question, as it can be read off the states in memory. -/
def answer? (r : Recorder) : Inquiry → Option Reply
  | .take _ | .clear => none
  | .atTick tick =>
    some (.state ((r.store.states.reverse.find? fun entry ↦ entry.2.tick.toNat ≤ tick).map (·.2)))
  | .recent count =>
    some (.states ((r.store.states.drop (r.store.states.length - count)).map (·.2)))
  | .history => some (.records (r.store.states.map .ofEntry))
  | .list => some (.records (sorted inTime (r.store.states.map .ofEntry)))
  | .chain => some (.chain r.chain)
  | .diff prev curr => some (.diff (r.diff prev curr))

theorem Intact.atTick_eq (h : r.Intact) (tick : Nat) :
    r.atTick tick =
      ((r.store.states.reverse.find? fun entry ↦ entry.2.tick.toNat ≤ tick).map (·.2), r) := by
  -- The tick of a record is that of its state, so both are found at the same place.
  have hfind : (r.history.reverse.find? fun m ↦ m.tick.toNat ≤ tick).map (·.brief) =
      (r.store.states.reverse.find? fun entry ↦ entry.2.tick.toNat ≤ tick).map .ofEntry := by
    have hboth := congrArg
      (fun records ↦ records.reverse.find? fun m ↦ decide (m.tick.toNat ≤ tick)) h.described
    rw [← List.map_reverse, ← List.map_reverse, List.find?_map, List.find?_map] at hboth
    exact hboth
  rw [atTick]
  cases hentry : r.store.states.reverse.find? fun entry ↦ entry.2.tick.toNat ≤ tick with
  | none =>
      rw [hentry] at hfind
      rw [Option.map_eq_none_iff.mp hfind]
      rfl
  | some entry =>
      rw [hentry] at hfind
      obtain ⟨m, hm, heq⟩ := Option.map_eq_some_iff.mp hfind
      have hmem := List.mem_reverse.mp (List.mem_of_find?_eq_some hentry)
      rw [hm]
      simp only [h.restore_eq hmem heq]
      rfl

theorem Intact.recent_eq (h : r.Intact) (count : Nat) :
    r.recent count =
      ((r.store.states.drop (r.store.states.length - count)).map (·.2), r) := by
  have hlength : r.history.length = r.store.states.length := by
    simpa using congrArg List.length h.described
  have hlast : (r.history.drop (r.store.states.length - count)).map (·.brief) =
      (r.store.states.drop (r.store.states.length - count)).map .ofEntry := by
    rw [List.map_drop, List.map_drop, h.described]
  rw [recent, hlength, h.restoreAll_eq (fun _ hentry ↦ List.mem_of_mem_drop hentry) hlast]

theorem Intact.list_brief (h : r.Intact) :
    r.store.list.map (·.brief) = sorted inTime (r.store.states.map .ofEntry) := by
  have hlist : r.store.list = sorted inTime r.history := by
    rw [Store.list, h.recorded, List.map_map]
    show sorted _ (r.history.map id) = _
    rw [List.map_id]
    exact sorted_congr (h.increasing.imp fun hlt ↦ precedes_eq_inTime hlt)
  rw [hlist, ← h.described]
  exact @map_sorted _ _ inTime (·.brief) inTime (fun _ _ ↦ rfl) r.history

/-- A question is answered from memory and leaves the recorder as it is. -/
theorem Intact.ask_eq (h : r.Intact) {inquiry : Inquiry} {answer : Reply}
    (hanswer : r.answer? inquiry = some answer) :
    ∃ given, r.act (.ask inquiry) = ([given], r) ∧ given.brief = answer := by
  cases inquiry with
  | take c => cases hanswer
  | clear => cases hanswer
  | atTick tick =>
      cases hanswer
      exact ⟨_, by rw [act, reply, h.atTick_eq], rfl⟩
  | recent count =>
      cases hanswer
      exact ⟨_, by rw [act, reply, h.recent_eq], rfl⟩
  | history =>
      cases hanswer
      exact ⟨_, rfl, congrArg Reply.records h.described⟩
  | list =>
      cases hanswer
      exact ⟨_, rfl, congrArg Reply.records h.list_brief⟩
  | chain =>
      cases hanswer
      exact ⟨_, rfl, rfl⟩
  | diff prev curr =>
      cases hanswer
      exact ⟨_, rfl, rfl⟩

/-- What is asked is a clear, a snapshot, or a question. -/
theorem clear_or_take_or_answer? (r : Recorder) (inquiry : Inquiry) :
    inquiry = .clear ∨ (∃ c, inquiry = .take c) ∨ ∃ answer, r.answer? inquiry = some answer := by
  cases inquiry with
  | clear => exact .inl rfl
  | take c => exact .inr (.inl ⟨c, rfl⟩)
  | _ => exact .inr (.inr ⟨_, rfl⟩)

/-! ### What a turn keeps -/

/-- A snapshot under a new identifier goes behind those before it. -/
theorem Intact.create_eq (h : r.Intact) {c : Capture} {id : SnapshotId}
    (hid : (r.create c.tick c.state c.events).1 = id) (hnew : id ∉ Keyed.keys r.store.states) :
    ∃ backing file, r.create c.tick c.state c.events = (id, { r with
      store := { r.store with
        backing
        sequence := min (r.store.sequence + 1) Store.lastSequence
        clock := r.store.clock + 1
        states := r.store.states ++ [(id, r.stamp c)]
        metadata := r.store.metadata ++ [(id, .ofState id (r.stamp c) file r.store.clock)] }
      chain := r.chain.record c.tick (r.stamp c).kind
      history := r.history ++ [.ofState id (r.stamp c) file r.store.clock] }) := by
  have hkeys : id ∉ Keyed.keys r.store.metadata := by
    rw [h.recorded, Keyed.keys, List.map_map]
    exact h.map_id ▸ hnew
  let written := r.store.backing.write id.fileName (r.stamp c).text r.store.clock
  let file := if written.2 then some id.fileName else none
  have hsave : r.store.save (r.stamp c) = (id, { r.store with
      backing := written.1
      sequence := min (r.store.sequence + 1) Store.lastSequence
      clock := r.store.clock + 1
      states := r.store.states ++ [(id, r.stamp c)]
      metadata := r.store.metadata ++ [(id, .ofState id (r.stamp c) file r.store.clock)] }) := by
    rw [← Keyed.insert_eq_append hnew, ← Keyed.insert_eq_append hkeys]
    subst hid
    rfl
  refine ⟨written.1, file, ?_⟩
  -- The record that goes into the history is read back from the store.
  have hknown : (r.store.metadata ++
      [(id, SnapshotMetadata.ofState id (r.stamp c) file r.store.clock)]).lookup id =
      some (.ofState id (r.stamp c) file r.store.clock) := by
    rw [← Keyed.insert_eq_append hkeys, Keyed.lookup_insert, if_pos rfl]
  have hcreate : r.create c.tick c.state c.events =
      ((r.store.save (r.stamp c)).1, { r with
        store := (r.store.save (r.stamp c)).2
        chain := r.chain.record c.tick (r.stamp c).kind
        history := r.history ++
          ((r.store.save (r.stamp c)).2.metadata? (r.store.save (r.stamp c)).1).toList }) := rfl
  rw [hcreate, hsave]
  simp only [Store.metadata?, hknown]
  rfl

theorem Intact.create (h : r.Intact) {c : Capture}
    (hnew : (r.create c.tick c.state c.events).1 ∉ Keyed.keys r.store.states) :
    (r.create c.tick c.state c.events).2.Intact := by
  obtain ⟨backing, file, heq⟩ := h.create_eq rfl hnew
  rw [heq]
  refine ⟨?_, ?_, ?_, ?_, ?_⟩
  · simp only [h.recorded, List.map_append]
    rfl
  · simp only [h.described, List.map_append]
    rfl
  · show (Keyed.keys (r.store.states ++ [_])).Nodup
    rw [← Keyed.insert_eq_append hnew]
    exact Keyed.nodup_keys_insert h.nodup _ _
  · refine List.pairwise_append.mpr ⟨h.increasing, List.pairwise_singleton _ _, ?_⟩
    intro m hm last hlast
    rw [List.mem_singleton.mp hlast]
    exact h.past m hm
  · intro m hm
    rcases List.mem_append.mp hm with hm | hm
    · exact Nat.lt_succ_of_lt (h.past m hm)
    · rw [List.mem_singleton.mp hm]
      exact Nat.lt_succ_self _

theorem Intact.disturb (h : r.Intact) (change : Nat → Option Folder → Option Folder) :
    { r with store := r.store.disturb change }.Intact := by
  unfold Store.disturb
  cases hbacking : r.store.backing with
  | memory => exact h
  | directory folder =>
      exact ⟨h.recorded, h.described, h.nodup, h.increasing,
        fun m hm ↦ Nat.lt_succ_of_lt (h.past m hm)⟩

/-- A snapshot has a new identifier where none is given out twice. -/
theorem new_of_nodup {c : Capture}
    (hnew : (Keyed.keys r.store.states ++ Reply.ids (r.act (.ask (.take c))).1).Nodup) :
    (r.create c.tick c.state c.events).1 ∉ Keyed.keys r.store.states :=
  fun hmem ↦ (List.nodup_append.mp hnew).2.2 _ hmem _ List.mem_cons_self rfl

/-- A turn that gives out a new identifier, or none, leaves everything in memory. -/
theorem Intact.act (h : r.Intact) {turn : Turn}
    (hnew : (Keyed.keys r.store.states ++ Reply.ids (r.act turn).1).Nodup) :
    (r.act turn).2.Intact ∧ (Keyed.keys (r.act turn).2.store.states).Sublist
      (Keyed.keys r.store.states ++ Reply.ids (r.act turn).1) := by
  cases turn with
  | disturb change =>
      refine ⟨h.disturb change, ?_⟩
      show (Keyed.keys (r.store.disturb change).states).Sublist _
      rw [Store.states_disturb]
      exact List.sublist_append_left _ _
  | ask inquiry =>
      rcases r.clear_or_take_or_answer? inquiry with rfl | ⟨c, rfl⟩ | ⟨answer, hanswer⟩
      · exact ⟨r.intact_clear, List.nil_sublist _⟩
      · have hfresh := new_of_nodup hnew
        refine ⟨h.create hfresh, ?_⟩
        obtain ⟨backing, file, heq⟩ := h.create_eq rfl hfresh
        show (Keyed.keys (r.create c.tick c.state c.events).2.store.states).Sublist
          (_ ++ [(r.create c.tick c.state c.events).1])
        rw [heq, Keyed.keys, List.map_append]
        exact .refl _
      · obtain ⟨given, hact, -⟩ := h.ask_eq hanswer
        rw [hact]
        exact ⟨h, List.sublist_append_left _ _⟩

/-- The identifiers that are given out later are new after a turn too. -/
theorem Intact.nodup_act (h : r.Intact) {turn : Turn} {rest : List Turn}
    (hnew : (Keyed.keys r.store.states ++ Reply.ids (r.converse (turn :: rest)).1).Nodup) :
    (Keyed.keys r.store.states ++ Reply.ids (r.act turn).1).Nodup ∧
      (Keyed.keys (r.act turn).2.store.states ++
        Reply.ids ((r.act turn).2.converse rest).1).Nodup := by
  have hids : Reply.ids (r.converse (turn :: rest)).1 =
      Reply.ids (r.act turn).1 ++ Reply.ids ((r.act turn).2.converse rest).1 :=
    Reply.ids_append _ _
  rw [hids, ← List.append_assoc] at hnew
  have hfirst := (List.nodup_append.mp hnew).1
  exact ⟨hfirst, hnew.sublist ((h.act hfirst).2.append_right _)⟩

end Recorder

end Chronicle

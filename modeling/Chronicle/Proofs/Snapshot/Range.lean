import Chronicle.Proofs.Rules.Fallback
import Chronicle.Proofs.Snapshot.Replay
import Mathlib.Algebra.Ring.Int.Defs

/-!
# Replays of a range

A replay of a range of ticks can be cut anywhere: its states are those up to the cut and those from
there on, and its diffs are those of both parts with the one across the cut. No snapshot in a range
gets lost, since every one that is known has its state in memory. Each diff leads from the tick of
one state to that of the next, so that diffs chain; a delta that fits is an exact difference, so
that deltas add up. `Replayer.range_diffs` puts this together for what an opened directory holds.
-/

namespace Chronicle

/-! ### Diffs in a row -/

/-- Both diffs of a differ say the same of a transition, apart from the values and the events. -/
theorem Differ.diff_eq_direct {d : Differ} (hbook : d.book.KeepsBuiltins) (t : Transition)
    (action : Option Attributes) : ∃ changes events,
      (d.diff t action).diff = { t.directDiff with changes, events } := by
  obtain ⟨book, bypassRules⟩ := d
  cases bypassRules with
  | true => exact ⟨_, _, rfl⟩
  | false =>
      cases hvalues : computeValues (t.context action) book.definitions with
      | error cause => exact ⟨_, _, by rw [diff_of_error hvalues]; rfl⟩
      | ok computed => exact ⟨_, _, by rw [diff_of_ok hbook hvalues]⟩

namespace Differ

variable {d : Differ} {states front back : List GameState}

/-- The diff from the last of some states to the first of others. -/
def across (d : Differ) (front back : List GameState) : List StateDiff :=
  match front.getLast?, back.head? with
  | some prev, some curr => [(d.diff ⟨prev, curr⟩ none).diff]
  | _, _ => []

theorem between_append (d : Differ) (front back : List GameState) :
    d.between (front ++ back) = d.between front ++ d.across front back ++ d.between back := by
  induction front with
  | nil => rfl
  | cons first rest ih =>
      cases rest with
      | nil =>
          cases back with
          | nil => rfl
          | cons next rest => rfl
      | cons second rest =>
          show (d.diff ⟨first, second⟩ none).diff :: d.between (second :: rest ++ back) = _
          rw [ih]
          rfl

/-- Each diff begins at the tick at which the one before it ends. -/
theorem isChain_between (hbook : d.book.KeepsBuiltins) (states : List GameState) :
    (d.between states).IsChain fun earlier later ↦ earlier.tickTo = later.tickFrom := by
  fun_induction between d states with
  | case1 => exact .nil
  | case2 => exact .nil
  | case3 prev curr rest ih =>
      cases rest with
      | nil => exact .singleton _
      | cons next rest =>
          refine .cons_cons ?_ ih
          obtain ⟨_, _, hfirst⟩ := diff_eq_direct hbook ⟨prev, curr⟩ none
          obtain ⟨_, _, hsecond⟩ := diff_eq_direct hbook ⟨curr, next⟩ none
          rw [hfirst, hsecond]
          rfl

end Differ

namespace Gauge

variable {gauge : Gauge} {d : Differ} {states : List GameState}

/-- The delta of a diff is the difference between its states. -/
theorem delta_eq (hgauge : gauge ∈ gauges) (hbook : d.book.KeepsBuiltins) (t : Transition)
    (action : Option Attributes) :
    gauge.delta (d.diff t action).diff = difference (gauge.read t.curr) (gauge.read t.prev) := by
  obtain ⟨_, _, hdiff⟩ := Differ.diff_eq_direct hbook t action
  rw [hdiff]
  exact delta_direct hgauge t _ _

/-- Deltas that fit add up to the difference between the last state and the first. -/
theorem sum_between (hgauge : gauge ∈ gauges) (hbook : d.book.KeepsBuiltins)
    (hfits : states.IsChain gauge.Fits) {first last : GameState}
    (hfirst : states.head? = some first) (hlast : states.getLast? = some last) :
    ((d.between states).map fun diff ↦ (gauge.delta diff).toInt).sum =
      (gauge.read last).toInt - (gauge.read first).toInt := by
  fun_induction Differ.between d states generalizing first with
  | case1 => cases hfirst
  | case2 only =>
      cases hfirst
      cases hlast
      exact (Int.sub_self _).symm
  | case3 prev curr rest ih =>
      cases hfirst
      cases hfits with
      | cons_cons hstep hrest =>
          have hdelta := congrArg Int64.toInt (gauge.delta_eq hgauge hbook ⟨prev, curr⟩ none)
          rw [toInt_difference hstep.1 hstep.2] at hdelta
          have hlater := ih hrest rfl hlast
          rw [List.map_cons, List.sum_cons, hlater, hdelta]
          omega

end Gauge

/-! ### Snapshots in a range -/

/-- Where something does not decrease along a list, what is in a range is what is in its first part
and then what is in its second part. -/
theorem filter_range {α : Type} {place : α → Nat} {xs : List α} {a b c : Nat}
    (hsorted : xs.Pairwise fun x y ↦ place x ≤ place y) (hab : a ≤ b) (hbc : b < c) :
    xs.filter (fun x ↦ a ≤ place x ∧ place x ≤ c) =
      xs.filter (fun x ↦ a ≤ place x ∧ place x ≤ b) ++
        xs.filter fun x ↦ b + 1 ≤ place x ∧ place x ≤ c := by
  induction xs with
  | nil => rfl
  | cons x rest ih =>
      obtain ⟨hx, hrest⟩ := List.pairwise_cons.mp hsorted
      simp only [List.filter_cons, ih hrest, decide_eq_true_eq]
      by_cases hfirst : place x ≤ b
      · have hnot : ¬ (b + 1 ≤ place x ∧ place x ≤ c) := by omega
        have hiff : (a ≤ place x ∧ place x ≤ c) ↔ (a ≤ place x ∧ place x ≤ b) := by omega
        simp only [hnot, hiff, if_false]
        split <;> rfl
      · -- Whatever comes behind is in the second part as well.
        have hnone : rest.filter (fun y ↦ a ≤ place y ∧ place y ≤ b) = [] := by
          refine List.filter_eq_nil_iff.mpr fun y hy ↦ ?_
          have := hx y hy
          simp only [decide_eq_true_eq]
          omega
        have hnot : ¬ (a ≤ place x ∧ place x ≤ b) := by omega
        have hiff : (a ≤ place x ∧ place x ≤ c) ↔ (b + 1 ≤ place x ∧ place x ≤ c) := by omega
        simp only [hnot, hiff, hnone, if_false]
        split <;> rfl

namespace Replayer

variable {r : Replayer} {id : SnapshotId} {m : SnapshotMetadata} {s : GameState}

/-- What is known of the snapshots with a tick in the range, in order. -/
def known (r : Replayer) (first last : Nat) : List SnapshotMetadata :=
  r.store.list.filter fun m ↦ first ≤ m.tick.toNat ∧ m.tick.toNat ≤ last

/-- The state of a snapshot that is known is in memory, with the tick that is known of it. -/
theorem restore_of_known (h : r.store.Consistent) (hm : r.store.metadata? id = some m) :
    ∃ s, r.restore id = (some s, r) ∧ s.tick = m.tick := by
  obtain ⟨s, _, _, hheld, rfl⟩ := h.described id m hm
  exact ⟨s, by rw [restore, Store.restore, hheld], rfl⟩

theorem mem_known (h : r.store.Consistent) {first last : Nat} :
    m ∈ r.known first last ↔ r.store.metadata? m.id = some m ∧
      first ≤ m.tick.toNat ∧ m.tick.toNat ≤ last := by
  rw [known, List.mem_filter, h.mem_list, decide_eq_true_eq]

/-- Records of snapshots that are known come with the states that are restored. -/
theorem exists_states {records : List SnapshotMetadata}
    (h : ∀ m ∈ records, ∃ s, r.restore m.id = (some s, r) ∧ s.tick = m.tick) :
    ∃ found : List (SnapshotMetadata × GameState), found.map (·.1) = records ∧
      (∀ entry ∈ found, r.restore entry.1.id = (some entry.2, r) ∧ entry.2.tick = entry.1.tick) ∧
      r.store.restoreAll (records.map (·.id)) = (found.map (·.2), r.store) := by
  induction records with
  | nil => exact ⟨[], rfl, fun _ hentry ↦ absurd hentry List.not_mem_nil, rfl⟩
  | cons m rest ih =>
      obtain ⟨⟨s, hs, htick⟩, hrest⟩ := List.forall_mem_cons.mp h
      obtain ⟨found, hfound, hstates, hall⟩ := ih hrest
      refine ⟨(m, s) :: found, congrArg (m :: ·) hfound,
        List.forall_mem_cons.mpr ⟨⟨hs, htick⟩, hstates⟩, ?_⟩
      have hstate : r.store.restore m.id = (some s, r.store) := by
        have hstore := congrArg (fun result ↦ (result.1, result.2.store)) hs
        exact hstore
      rw [List.map_cons, Store.restoreAll, hstate]
      simp only [hall]
      rfl

/-- The snapshots in a range with their states. -/
theorem exists_found (h : r.store.Consistent) (first last : Nat) :
    ∃ found : List (SnapshotMetadata × GameState), found.map (·.1) = r.known first last ∧
      (∀ entry ∈ found, r.restore entry.1.id = (some entry.2, r) ∧ entry.2.tick = entry.1.tick) ∧
      r.range first last = (found.map (·.2), r) := by
  obtain ⟨found, hfound, hstates, hall⟩ := @exists_states r (r.known first last) fun m hm ↦
    restore_of_known h ((mem_known h).mp hm).1
  refine ⟨found, hfound, hstates, ?_⟩
  rw [range, ← known, hall]

/-- The states in a range are those of just the snapshots that are known in it, each once. -/
theorem exists_listed (h : r.store.Consistent) (first last : Nat) :
    ∃ found : List (SnapshotMetadata × GameState),
      found.map (·.2) = (r.range first last).1 ∧ (found.map (·.1.id)).Nodup ∧
      ∀ m s, (m, s) ∈ found ↔ r.store.metadata? m.id = some m ∧
        (first ≤ m.tick.toNat ∧ m.tick.toNat ≤ last) ∧ r.restore m.id = (some s, r) := by
  obtain ⟨found, hfound, hstates, hrange⟩ := exists_found h first last
  have hids : found.map (·.1.id) = (r.known first last).map (·.id) := by
    rw [← hfound, List.map_map]
    rfl
  refine ⟨found, (congrArg Prod.fst hrange).symm, ?_, fun m s ↦ ?_⟩
  · rw [hids]
    exact h.nodup_list.sublist (List.filter_sublist.map _)
  · rw [← and_assoc, ← mem_known h, ← hfound]
    constructor
    · intro hmem
      exact ⟨List.mem_map_of_mem hmem, (hstates _ hmem).1⟩
    · rintro ⟨hmem, hrestore⟩
      obtain ⟨⟨_, state⟩, hentry, rfl⟩ := List.mem_map.mp hmem
      have hstate := (hstates _ hentry).1
      rw [hrestore] at hstate
      cases hstate
      exact hentry

/-- A range can be cut after any tick in it. -/
theorem range_append (r : Replayer) {a b c : Nat} (hab : a ≤ b) (hbc : b < c) :
    (r.range a c).1 = (r.range a b).1 ++ (r.range (b + 1) c).1 := by
  have hknown (first last : Nat) : (r.range first last).1 =
      (r.known first last).filterMap fun m ↦ (r.store.restore m.id).1 := by
    show (r.store.restoreAll ((r.known first last).map (·.id))).1 = _
    rw [Store.restoreAll_eq, List.filterMap_map]
    rfl
  have hsorted : r.store.list.Pairwise fun m n ↦ m.tick.toNat ≤ n.tick.toNat :=
    r.store.list_pairwise.imp fun hle ↦ UInt64.le_iff_toNat_le.mp hle.tick_le
  rw [hknown, hknown, hknown, known, filter_range hsorted hab hbc, List.filterMap_append]
  rfl

/-- The states in a range do not go back in ticks. -/
theorem pairwise_range (h : r.store.Consistent) (first last : Nat) :
    (r.range first last).1.Pairwise fun s t ↦ s.tick ≤ t.tick := by
  obtain ⟨found, hfound, hstates, hrange⟩ := exists_found h first last
  have hknown : (r.known first last).Pairwise fun m n ↦ m.tick ≤ n.tick :=
    (r.store.list_pairwise.imp SnapshotMetadata.NotAfter.tick_le).filter _
  rw [← hfound, List.pairwise_map] at hknown
  rw [hrange]
  refine List.pairwise_map.mpr (hknown.imp_of_mem fun ha hb hle ↦ ?_)
  rwa [(hstates _ ha).2, (hstates _ hb).2]

/-- The directory that is opened is described by the records of the store. -/
theorem consistent_openAt {place : Place} {scan : Scan} {salt : Uuid} {clock : Nat}
    {differ : Differ} {opened : Replayer} (h : openAt place scan salt clock differ = .ok opened) :
    opened.store.Consistent ∧ opened.differ = differ := by
  obtain ⟨store, hstore, h⟩ := bind_eq_ok.mp h
  obtain ⟨added, -, heq⟩ := bind_eq_ok.mp h
  cases heq
  have hempty : store.metadata = [] := by
    cases place with
    | blocked => cases hstore
    | _ => cases hstore; rfl
  exact ⟨(Store.consistent_empty hempty).index scan, rfl⟩

/-- What a replay of a directory answers, whatever has happened to the store since it was opened.
The states in a range are those of just the snapshots that are known with a tick in it, each once,
and their ticks do not decrease. There is a diff for each state but the first, each begins where the
one before it ends, and deltas add up if each difference fits. The states and the diffs of a range
can be cut after any tick, with one diff across the cut if there are states on both sides. -/
theorem range_diffs {place : Place} {scan : Scan} {salt : Uuid} {clock : Nat} {differ : Differ}
    {opened : Replayer} (hopen : openAt place scan salt clock differ = .ok opened)
    {document : Option Entry} (hload : RuleBook.load document = .ok differ.book)
    (steps : List Step) :
    let r : Replayer := { opened with store := (opened.store.live steps).2 }
    (∀ first last, (r.range first last).2 = r ∧ (r.diffs first last).2 = r ∧
      (r.range first last).1.Pairwise (fun s t ↦ s.tick ≤ t.tick) ∧
      (∃ found : List (SnapshotMetadata × GameState),
        found.map (·.2) = (r.range first last).1 ∧ (found.map (·.1.id)).Nodup ∧
        ∀ m s, (m, s) ∈ found ↔ r.store.metadata? m.id = some m ∧
          (first ≤ m.tick.toNat ∧ m.tick.toNat ≤ last) ∧ r.restore m.id = (some s, r)) ∧
      (r.diffs first last).1.length = (r.range first last).1.length - 1 ∧
      (r.diffs first last).1.IsChain (fun earlier later ↦ earlier.tickTo = later.tickFrom) ∧
      ∀ gauge ∈ gauges, (r.range first last).1.IsChain gauge.Fits →
        ∀ start stop, (r.range first last).1.head? = some start →
          (r.range first last).1.getLast? = some stop →
            ((r.diffs first last).1.map fun diff ↦ (gauge.delta diff).toInt).sum =
              (gauge.read stop).toInt - (gauge.read start).toInt) ∧
    ∀ a b c, a ≤ b → b < c →
      (r.range a c).1 = (r.range a b).1 ++ (r.range (b + 1) c).1 ∧
      (r.diffs a c).1 = (r.diffs a b).1 ++
        differ.across (r.range a b).1 (r.range (b + 1) c).1 ++ (r.diffs (b + 1) c).1 := by
  intro r
  obtain ⟨hindexed, rfl⟩ := consistent_openAt hopen
  have hconsistent : r.store.Consistent := hindexed.live steps
  have hbook : r.differ.book.KeepsBuiltins := RuleBook.keepsBuiltins_of_load hload
  have hdiffs (first last : Nat) :
      (r.diffs first last).1 = r.differ.between (r.range first last).1 := rfl
  refine ⟨fun first last ↦ ?_, fun a b c hab hbc ↦ ?_⟩
  · obtain ⟨found, -, -, hrange⟩ := exists_found hconsistent first last
    have hsame : (r.range first last).2 = r := congrArg Prod.snd hrange
    refine ⟨hsame, hsame, pairwise_range hconsistent first last,
      exists_listed hconsistent first last, ?_, ?_, ?_⟩
    · rw [hdiffs, Differ.length_between]
    · rw [hdiffs]
      exact Differ.isChain_between hbook _
    · intro gauge hgauge hfits start stop hstart hstop
      rw [hdiffs]
      exact Gauge.sum_between hgauge hbook hfits hstart hstop
  · refine ⟨r.range_append hab hbc, ?_⟩
    rw [hdiffs, hdiffs, hdiffs, r.range_append hab hbc, Differ.between_append]

/-- The files of two snapshots, the later one first. -/
def twoFiles : Folder :=
  [(SnapshotId.fileName ⟨6⟩, ⟨.text GameState.checkpoint.text, 2⟩),
    (SnapshotId.fileName ⟨5⟩, ⟨.text (GameState.initial 1 (.zero false)).text, 1⟩)]

theorem exists_openAt_twoFiles (differ : Differ) :
    ∃ store, openAt (.folder twoFiles) .whole ⟨7⟩ 0 differ = .ok ⟨store, differ⟩ ∧
      (range ⟨store, differ⟩ 0 (2 ^ 64 - 1)).1 = [.initial 1 (.zero false), .checkpoint] := by
  let saved (id : SnapshotId) (s : GameState) : Saved :=
    ⟨id, s, some (.ofState id s (some id.fileName) 0)⟩
  let log : List Saved := [saved ⟨5⟩ (.initial 1 (.zero false)), saved ⟨6⟩ .checkpoint]
  have hreadable : ∀ saved ∈ log, saved.state.Readable :=
    List.forall_mem_cons.mpr ⟨GameState.readable_of_parse Recorder.parse_openingText,
      List.forall_mem_singleton.mpr (GameState.readable_of_parse GameState.parse_checkpointText)⟩
  have hrecorded : ∀ saved ∈ log, saved.Recorded :=
    List.forall_mem_cons.mpr ⟨⟨0, rfl⟩, List.forall_mem_singleton.mpr ⟨0, rfl⟩⟩
  have hfiles : twoFiles.contents.Perm (log.map (·.file)) := .swap _ _ _
  exact exists_range hfiles (by decide) hrecorded hreadable (by decide) ⟨7⟩ 0 differ

/-- The player loses hit points across the cut. -/
theorem range_diffs_twoFiles : ∃ r : Replayer,
    openAt (.folder twoFiles) .whole ⟨7⟩ 0 ⟨.empty, false⟩ = .ok r ∧
    (r.range 0 (2 ^ 64 - 1)).1 = (r.range 0 1).1 ++ (r.range 2 (2 ^ 64 - 1)).1 ∧
    (r.diffs 0 (2 ^ 64 - 1)).1 = (r.diffs 0 1).1 ++
      r.differ.across (r.range 0 1).1 (r.range 2 (2 ^ 64 - 1)).1 ++ (r.diffs 2 (2 ^ 64 - 1)).1 ∧
    (r.diffs 0 (2 ^ 64 - 1)).1.length = 1 ∧
    ((r.diffs 0 (2 ^ 64 - 1)).1.map fun diff ↦ diff.hpDelta.toInt).sum = -99 := by
  obtain ⟨store, hopen, hrange⟩ := exists_openAt_twoFiles ⟨.empty, false⟩
  have hload : RuleBook.load none = .ok .empty := rfl
  obtain ⟨hall, hcut⟩ := range_diffs hopen hload []
  obtain ⟨-, -, -, -, hlength, -, hsums⟩ := hall 0 (2 ^ 64 - 1)
  obtain ⟨hstates, hdiffs⟩ := hcut 0 1 (2 ^ 64 - 1) (by decide) (by decide)
  have hfits : (range ⟨store, ⟨.empty, false⟩⟩ 0 (2 ^ 64 - 1)).1.IsChain
      (Gauge.Fits ⟨(·.player.hp), (·.hpDelta)⟩) := by
    rw [hrange]
    exact .cons_cons ⟨by decide, by decide⟩ (.singleton _)
  have hsum := hsums _ List.mem_cons_self hfits _ _ (congrArg List.head? hrange)
    (congrArg List.getLast? hrange)
  exact ⟨_, hopen, hstates, hdiffs, hlength.trans (congrArg (·.length - 1) hrange), hsum⟩

end Replayer

end Chronicle

import Chronicle.Proofs.Snapshot.Renaming
import Chronicle.Proofs.State.Records

/-!
# Clearing a recorder

A clear leaves the files, the sequence of the store and its clock behind. None of this comes back:
a recorder that has been cleared answers as one that has just been made, up to the names of the
identifiers, and it mentions no snapshot from before the clear, `Recorder.clear_resets`.
-/

namespace Chronicle

namespace Reply

/-- The states in the reply. -/
def found : Reply → List GameState
  | state found => found.toList
  | states found => found
  | _ => []

/-- The identifiers in the reply: those of snapshots and those of their parents. -/
def mentions : Reply → List SnapshotId
  | taken id => [id]
  | records known => known.flatMap fun m ↦ m.id :: m.parent.toList
  | reply => reply.found.flatMap fun s ↦ s.parent.toList

theorem found_brief (reply : Reply) : reply.brief.found = reply.found := by
  cases reply <;> rfl

theorem mentions_brief (reply : Reply) : reply.brief.mentions = reply.mentions := by
  cases reply with
  | records known =>
      rw [brief, mentions, List.flatMap_map]
      rfl
  | _ => rfl

/-- The reply mentions known identifiers only, and its states were given to be saved. -/
structure Own (known : List SnapshotId) (captures : List Capture) (reply : Reply) : Prop where
  mentions : ∀ id ∈ reply.mentions, id ∈ known
  found : ∀ s ∈ reply.found, ∃ c ∈ captures, ∃ kind parent, s = c.state.stamped kind parent

end Reply

namespace Recorder

/-- A state in memory was given to be saved, and has a known identifier and a known parent. -/
structure OwnEntry (known : List SnapshotId) (captures : List Capture)
    (entry : SnapshotId × GameState) : Prop where
  id : entry.1 ∈ known
  parent : ∀ id ∈ entry.2.parent.toList, id ∈ known
  source : ∃ c ∈ captures, ∃ kind parent, entry.2 = c.state.stamped kind parent

variable {r : Recorder} {known : List SnapshotId} {captures : List Capture}

/-- A reply without records is known by its states. -/
theorem own_of_found {reply : Reply}
    (hmentions : reply.mentions = reply.found.flatMap fun s ↦ s.parent.toList)
    (h : ∀ s ∈ reply.found, ∃ entry, OwnEntry known captures entry ∧ entry.2 = s) :
    reply.Own known captures := by
  refine ⟨fun id hid ↦ ?_, fun s hs ↦ ?_⟩
  · rw [hmentions] at hid
    obtain ⟨s, hs, hid⟩ := List.mem_flatMap.mp hid
    obtain ⟨entry, hentry, rfl⟩ := h s hs
    exact hentry.parent id hid
  · obtain ⟨entry, hentry, rfl⟩ := h s hs
    exact hentry.source

theorem own_records {records : List SnapshotMetadata}
    (h : ∀ m ∈ records, ∃ entry, OwnEntry known captures entry ∧ .ofEntry entry = m) :
    (Reply.records records).Own known captures := by
  refine ⟨fun id hid ↦ ?_, fun s hs ↦ absurd hs List.not_mem_nil⟩
  obtain ⟨m, hm, hid⟩ := List.mem_flatMap.mp hid
  obtain ⟨entry, hentry, rfl⟩ := h m hm
  rcases List.mem_cons.mp hid with rfl | hid
  · exact hentry.id
  · exact hentry.parent id hid

/-- Answers from memory mention what is in memory. -/
theorem own_of_answer? (h : ∀ entry ∈ r.store.states, OwnEntry known captures entry)
    {inquiry : Inquiry} {answer : Reply} (hanswer : r.answer? inquiry = some answer) :
    answer.Own known captures := by
  have hrecords : ∀ m ∈ r.store.states.map SnapshotMetadata.ofEntry,
      ∃ entry, OwnEntry known captures entry ∧ .ofEntry entry = m := by
    intro m hm
    obtain ⟨entry, hentry, rfl⟩ := List.mem_map.mp hm
    exact ⟨entry, h entry hentry, rfl⟩
  cases inquiry with
  | take c => cases hanswer
  | clear => cases hanswer
  | atTick tick =>
      cases hanswer
      cases hfound : r.store.states.reverse.find? fun entry ↦ entry.2.tick.toNat ≤ tick with
      | none => exact own_of_found rfl fun s hs ↦ absurd hs List.not_mem_nil
      | some entry =>
          have hentry := List.mem_reverse.mp (List.mem_of_find?_eq_some hfound)
          exact own_of_found rfl (List.forall_mem_singleton.mpr ⟨entry, h entry hentry, rfl⟩)
  | recent count =>
      cases hanswer
      refine own_of_found rfl fun s hs ↦ ?_
      obtain ⟨entry, hentry, rfl⟩ := List.mem_map.mp hs
      exact ⟨entry, h entry (List.mem_of_mem_drop hentry), rfl⟩
  | history =>
      cases hanswer
      exact own_records hrecords
  | list =>
      cases hanswer
      exact own_records fun m hm ↦ hrecords m ((sorted_perm _ _).mem_iff.mp hm)
  | chain =>
      cases hanswer
      exact own_of_found rfl fun s hs ↦ absurd hs List.not_mem_nil
  | diff prev curr =>
      cases hanswer
      exact own_of_found rfl fun s hs ↦ absurd hs List.not_mem_nil

/-- What is saved for a capture without a parent has a known parent or none. -/
theorem Intact.own_stamp (hintact : r.Intact)
    (h : ∀ entry ∈ r.store.states, OwnEntry known captures entry) {c : Capture}
    (hc : c ∈ captures) (hparent : c.state.parent = none) {id : SnapshotId} (hid : id ∈ known) :
    OwnEntry known captures (id, r.stamp c) := by
  refine ⟨hid, fun other hother ↦ ?_, c, hc, _, _, rfl⟩
  -- A parent comes from the last snapshot in the history, which is in memory, or from the caller.
  have hlast : ∀ last ∈ (r.history.getLast?.map (·.id)).or c.state.parent, last ∈ known := by
    rw [hintact.map_getLast?, hparent, Option.or_none]
    intro last hlast
    obtain ⟨entry, hentry, rfl⟩ := Option.map_eq_some_iff.mp hlast
    exact (h entry (List.mem_of_getLast? hentry)).id
  have hother : other ∈ r.parentFor (r.stamp c).kind c.state := Option.mem_toList.mp hother
  rw [parentFor_eq_or] at hother
  split at hother
  · rw [hparent] at hother
    cases hother
  · exact hlast other hother
  · exact hlast other hother

theorem Intact.own_act (hintact : r.Intact)
    (h : ∀ entry ∈ r.store.states, OwnEntry known captures entry) {turn : Turn}
    (hnew : (Keyed.keys r.store.states ++ Reply.ids (r.act turn).1).Nodup)
    (hids : ∀ id ∈ Reply.ids (r.act turn).1, id ∈ known)
    (hcapture : ∀ c, turn.capture? = some c → c ∈ captures ∧ c.state.parent = none) :
    (∀ reply ∈ (r.act turn).1, reply.Own known captures) ∧
      ∀ entry ∈ (r.act turn).2.store.states, OwnEntry known captures entry := by
  cases turn with
  | disturb change =>
      refine ⟨fun reply hreply ↦ absurd hreply List.not_mem_nil, ?_⟩
      show ∀ entry ∈ (r.store.disturb change).states, _
      rwa [Store.states_disturb]
  | ask inquiry =>
      rcases r.clear_or_take_or_answer? inquiry with rfl | ⟨c, rfl⟩ | ⟨answer, hanswer⟩
      · exact ⟨List.forall_mem_singleton.mpr
          (own_of_found rfl fun s hs ↦ absurd hs List.not_mem_nil),
          fun entry hentry ↦ absurd hentry List.not_mem_nil⟩
      · obtain ⟨hc, hparent⟩ := hcapture c rfl
        have hid := hids _ List.mem_cons_self
        refine ⟨List.forall_mem_singleton.mpr ⟨List.forall_mem_singleton.mpr hid,
          fun s hs ↦ absurd hs List.not_mem_nil⟩, ?_⟩
        obtain ⟨backing, file, heq⟩ := hintact.create_eq rfl (new_of_nodup hnew)
        show ∀ entry ∈ (r.create c.tick c.state c.events).2.store.states, _
        rw [heq]
        intro entry hentry
        rcases List.mem_append.mp hentry with hentry | hentry
        · exact h entry hentry
        · rw [List.mem_singleton.mp hentry]
          exact hintact.own_stamp h hc hparent hid
      · obtain ⟨given, hact, hbrief⟩ := hintact.ask_eq hanswer
        rw [hact]
        refine ⟨List.forall_mem_singleton.mpr ?_, h⟩
        have hown := own_of_answer? h hanswer
        rw [← hbrief] at hown
        exact ⟨given.mentions_brief ▸ hown.mentions, given.found_brief ▸ hown.found⟩

theorem Intact.own_converse (hintact : r.Intact)
    (h : ∀ entry ∈ r.store.states, OwnEntry known captures entry) {turns : List Turn}
    (hnew : (Keyed.keys r.store.states ++ Reply.ids (r.converse turns).1).Nodup)
    (hids : ∀ id ∈ Reply.ids (r.converse turns).1, id ∈ known)
    (hcaptures : ∀ c ∈ Turn.captures turns, c ∈ captures ∧ c.state.parent = none) :
    ∀ reply ∈ (r.converse turns).1, reply.Own known captures := by
  induction turns generalizing r with
  | nil => exact fun reply hreply ↦ absurd hreply List.not_mem_nil
  | cons turn rest ih =>
      obtain ⟨hfirst, hrest⟩ := hintact.nodup_act hnew
      rw [ids_converse_cons] at hids
      obtain ⟨hidsFirst, hidsRest⟩ := List.forall_mem_append.mp hids
      have hturn : ∀ c, turn.capture? = some c → c ∈ captures ∧ c.state.parent = none :=
        fun c hc ↦ hcaptures c (List.mem_filterMap.mpr ⟨turn, List.mem_cons_self, hc⟩)
      have hlater : ∀ c ∈ Turn.captures rest, c ∈ captures ∧ c.state.parent = none := by
        intro c hc
        obtain ⟨later, hlater, hc⟩ := List.mem_filterMap.mp hc
        exact hcaptures c (List.mem_filterMap.mpr ⟨later, List.mem_cons_of_mem _ hlater, hc⟩)
      obtain ⟨hreplies, hstates⟩ := hintact.own_act h hfirst hidsFirst hturn
      exact List.forall_mem_append.mpr ⟨hreplies,
        ih (hintact.act hfirst).1 hstates hrest hidsRest hlater⟩

/-- A recorder keeps its strategy and its differ. -/
theorem settings_act (r : Recorder) (turn : Turn) :
    (r.act turn).2.strategy = r.strategy ∧ (r.act turn).2.differ = r.differ := by
  cases turn with
  | disturb change => exact ⟨rfl, rfl⟩
  | ask inquiry =>
      cases inquiry with
      | atTick tick =>
          show (r.atTick tick).2.strategy = _ ∧ (r.atTick tick).2.differ = _
          rw [atTick]
          split <;> exact ⟨rfl, rfl⟩
      | _ => exact ⟨rfl, rfl⟩

theorem settings_converse (r : Recorder) (turns : List Turn) :
    (r.converse turns).2.strategy = r.strategy ∧ (r.converse turns).2.differ = r.differ := by
  induction turns generalizing r with
  | nil => exact ⟨rfl, rfl⟩
  | cons turn rest ih =>
      obtain ⟨hstrategy, hdiffer⟩ := r.settings_act turn
      obtain ⟨hstrategyRest, hdifferRest⟩ := ih (r.act turn).2
      exact ⟨hstrategyRest.trans hstrategy, hdifferRest.trans hdiffer⟩

/-- A clear is a reset: whatever has been asked before it and is asked after it, the recorder
replies as a new one does, once the identifiers are renamed in the order in which they are given
out. It mentions no identifier from before the clear, and answers no state but those that are given
to be saved after it. -/
theorem clear_resets (strategy : Strategy) (differ : Differ) (backing backing' : Backing)
    (salt salt' : Uuid) (clock clock' : Nat) (before after : List Turn)
    (hparents : ∀ c ∈ Turn.captures after, c.state.parent = none) :
    let ran := (fresh (.fresh backing salt clock) strategy differ).converse before
    let used := ran.2.clear
    let new := fresh (.fresh backing' salt' clock') strategy differ
    (Reply.ids ran.1 ++ Reply.ids (used.converse after).1).Nodup →
    (Reply.ids (new.converse after).1).Nodup →
    (∃ f : Equiv.Perm SnapshotId,
      Reply.ids (new.converse after).1 = (Reply.ids (used.converse after).1).map f ∧
      (new.converse after).1.map (·.brief) =
        (used.converse after).1.map fun reply ↦ (reply.renamed f).brief) ∧
    ∀ reply ∈ (used.converse after).1,
      (∀ id ∈ reply.mentions,
        id ∈ Reply.ids (used.converse after).1 ∧ id ∉ Reply.ids ran.1) ∧
      ∀ s ∈ reply.found, ∃ c ∈ Turn.captures after, ∃ kind parent,
        s = c.state.stamped kind parent := by
  intro ran used new hids hids'
  obtain ⟨-, hafter, hdisjoint⟩ := List.nodup_append.mp hids
  obtain ⟨hstrategy, hdiffer⟩ :=
    settings_converse (fresh (.fresh backing salt clock) strategy differ) before
  have hmirrors : ∀ f, used.Mirrors f new := fun _ ↦
    ⟨hstrategy.symm, hdiffer.symm, rfl, rfl, intact_clear _, intact_fresh ..⟩
  refine ⟨?_, fun reply hreply ↦ ?_⟩
  · -- There is nothing to rename in what is saved after the clear: it has no parents.
    obtain ⟨f, hmap, -, hreplies⟩ := exists_renamed_replies hmirrors rfl hafter hids'
    rw [Turn.map_renamed fun c hc ↦ by rw [hparents c hc]; rfl] at hreplies
    exact ⟨f, hmap, hreplies⟩
  · have hown := (intact_clear ran.2).own_converse
      (fun _ hentry ↦ absurd hentry List.not_mem_nil) hafter (fun _ hid ↦ hid)
      (fun c hc ↦ ⟨hc, hparents c hc⟩) reply hreply
    refine ⟨fun id hid ↦ ?_, hown.found⟩
    have hmem := hown.mentions id hid
    exact ⟨hmem, fun hold ↦ hdisjoint id hold id hmem rfl⟩

/-- Two snapshots stand in files when the recorder is cleared; neither is found by its tick. -/
theorem clear_resets_directory :
    let initial := GameState.initial 1 (.zero false)
    let before := [.ask (.take ⟨1, initial, []⟩), .ask (.take ⟨2, { initial with tick := 2 }, []⟩)]
    let after := [.ask (.atTick 2), .ask (.take ⟨3, { initial with tick := 3 }, []⟩),
      .ask (.take ⟨4, { initial with tick := 4 }, []⟩), .ask (.recent 3), .ask .list, .ask .chain]
    let ran := (fresh (.fresh (.directory (some [])) ⟨7⟩ 0) .default
      ⟨⟨[], [], []⟩, false⟩).converse before
    let used := ran.2.clear
    let new := fresh (.fresh .memory ⟨8⟩ 0) .default ⟨⟨[], [], []⟩, false⟩
    (∃ f : Equiv.Perm SnapshotId,
      Reply.ids (new.converse after).1 = (Reply.ids (used.converse after).1).map f ∧
      (new.converse after).1.map (·.brief) =
        (used.converse after).1.map fun reply ↦ (reply.renamed f).brief) ∧
    ∀ reply ∈ (used.converse after).1,
      (∀ id ∈ reply.mentions,
        id ∈ Reply.ids (used.converse after).1 ∧ id ∉ Reply.ids ran.1) ∧
      ∀ s ∈ reply.found, ∃ c ∈ Turn.captures after, ∃ kind parent,
        s = c.state.stamped kind parent :=
  clear_resets .default ⟨⟨[], [], []⟩, false⟩ (.directory (some [])) .memory ⟨7⟩ ⟨8⟩ 0 0 _ _
    (by decide +kernel) (by decide +kernel) (by decide +kernel)

end Recorder

end Chronicle

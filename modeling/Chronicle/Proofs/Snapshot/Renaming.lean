import Chronicle.Proofs.Snapshot.Conversation
import Mathlib.Logic.Equiv.Basic

/-!
# Conversations up to names

What distinguishes two recorders with one strategy and one differ is the identifiers that their
stores give out, and what is behind these stores. Where both begin with nothing, and one is asked
what the other is asked, the replies are the same once the identifiers of one are renamed as those
of the other: `Recorder.Mirrors.converse`. There is such a renaming wherever neither gives out an
identifier twice, `exists_renaming`. So a directory changes no reply:
`Recorder.backing_unseen`.
-/

namespace Chronicle

/-! ### Renaming -/

/-- The state with its parent renamed. -/
def GameState.renamed (f : SnapshotId → SnapshotId) (s : GameState) : GameState :=
  { s with parent := s.parent.map f }

/-- The record with its identifiers renamed. -/
def SnapshotMetadata.renamed (f : SnapshotId → SnapshotId) (m : SnapshotMetadata) :
    SnapshotMetadata :=
  { m with id := f m.id, parent := m.parent.map f }

/-- What is asked, with the identifiers renamed in a state that is to be saved. A diff is of two
states as they are. -/
def Inquiry.renamed (f : SnapshotId → SnapshotId) : Inquiry → Inquiry
  | .take c => .take { c with state := c.state.renamed f }
  | inquiry => inquiry

/-- The turn with the identifiers renamed in a state that is to be saved. -/
def Turn.renamed (f : SnapshotId → SnapshotId) : Turn → Turn
  | .ask inquiry => .ask (inquiry.renamed f)
  | .disturb change => .disturb change

/-- The reply with its identifiers renamed. -/
def Reply.renamed (f : SnapshotId → SnapshotId) : Reply → Reply
  | .taken id => .taken (f id)
  | .state found => .state (found.map (·.renamed f))
  | .states found => .states (found.map (·.renamed f))
  | .records known => .records (known.map (·.renamed f))
  | reply => reply

theorem Reply.brief_renamed (f : SnapshotId → SnapshotId) (reply : Reply) :
    (reply.renamed f).brief = reply.brief.renamed f := by
  cases reply with
  | records known =>
      show records ((known.map _).map _) = records ((known.map _).map _)
      rw [List.map_map, List.map_map]
      rfl
  | _ => rfl

namespace Turn

/-- A turn is left alone by a renaming that leaves alone the parent of what it gives to be saved. -/
theorem renamed_eq_self {f : SnapshotId → SnapshotId} {turn : Turn}
    (h : ∀ c, turn.capture? = some c → c.state.parent.map f = c.state.parent) :
    turn.renamed f = turn := by
  cases turn with
  | disturb change => rfl
  | ask inquiry =>
      cases inquiry with
      | take c =>
          have hstate : c.state.renamed f = c.state := by rw [GameState.renamed, h c rfl]
          rw [renamed, Inquiry.renamed, hstate]
      | _ => rfl

theorem map_renamed {f : SnapshotId → SnapshotId} {turns : List Turn}
    (h : ∀ c ∈ captures turns, c.state.parent.map f = c.state.parent) :
    turns.map (·.renamed f) = turns := by
  refine (List.map_congr_left fun turn hturn ↦ ?_).trans (List.map_id turns)
  exact renamed_eq_self fun c hc ↦ h c (List.mem_filterMap.mpr ⟨turn, hturn, hc⟩)

theorem capture?_renamed (f : SnapshotId → SnapshotId) (turn : Turn) :
    (turn.renamed f).capture? =
      turn.capture?.map fun c ↦ { c with state := c.state.renamed f } := by
  cases turn with
  | disturb change => rfl
  | ask inquiry => cases inquiry <;> rfl

theorem captures_renamed (f : SnapshotId → SnapshotId) (turns : List Turn) :
    captures (turns.map (·.renamed f)) =
      (captures turns).map fun c ↦ { c with state := c.state.renamed f } := by
  rw [captures, List.filterMap_map, captures, List.map_filterMap]
  exact List.filterMap_congr fun turn _ ↦ capture?_renamed f turn

end Turn

/-! ### The identifiers that are given out -/

/-- The identifiers of the states that a store saves one after another, from a place in its
sequence on. -/
def SnapshotId.deriveAll (salt : Uuid) (sequence : Nat) : List Capture → List SnapshotId
  | [] => []
  | c :: rest => derive salt c.state.tick.toNat c.state.timestamp sequence ::
      deriveAll salt (min (sequence + 1) Store.lastSequence) rest

theorem SnapshotId.length_deriveAll (salt : Uuid) (sequence : Nat) (captures : List Capture) :
    (deriveAll salt sequence captures).length = captures.length := by
  induction captures generalizing sequence with
  | nil => rfl
  | cons c rest ih => rw [deriveAll, List.length_cons, List.length_cons, ih]

theorem SnapshotId.deriveAll_renamed (f : SnapshotId → SnapshotId) (salt : Uuid) (sequence : Nat)
    (captures : List Capture) :
    deriveAll salt sequence (captures.map fun c ↦ { c with state := c.state.renamed f }) =
      deriveAll salt sequence captures := by
  induction captures generalizing sequence with
  | nil => rfl
  | cons c rest ih =>
      rw [List.map_cons, deriveAll, deriveAll, ih]
      rfl

theorem Store.agrees_restoreAll (store : Store) (ids : List SnapshotId) :
    store.Agrees (store.restoreAll ids).2 := by
  induction ids generalizing store with
  | nil => exact ⟨rfl, rfl, rfl⟩
  | cons id rest ih =>
      have hfirst := @agrees_restore store id
      have hrest := ih (store.restore id).2
      exact ⟨hrest.backing.trans hfirst.backing, hrest.salt.trans hfirst.salt,
        hrest.sequence.trans hfirst.sequence⟩

namespace Recorder

variable {r r' : Recorder}

theorem agrees_atTick (r : Recorder) (tick : Nat) : r.store.Agrees (r.atTick tick).2.store := by
  rw [atTick]
  split
  · exact ⟨rfl, rfl, rfl⟩
  · exact Store.agrees_restore _

/-- A turn in which nothing is saved gives out nothing and does not move the sequence. -/
theorem act_quiet {turn : Turn} (h : turn.capture? = none) :
    Reply.ids (r.act turn).1 = [] ∧ (r.act turn).2.store.salt = r.store.salt ∧
      (r.act turn).2.store.sequence = r.store.sequence := by
  cases turn with
  | disturb change =>
      rw [act, Store.disturb]
      cases r.store.backing <;> exact ⟨rfl, rfl, rfl⟩
  | ask inquiry =>
      cases inquiry with
      | take c => cases h
      | atTick tick =>
          have hagrees := r.agrees_atTick tick
          exact ⟨rfl, hagrees.salt, hagrees.sequence⟩
      | recent count =>
          have hagrees := r.store.agrees_restoreAll
            ((r.history.drop (r.history.length - count)).map (·.id))
          exact ⟨rfl, hagrees.salt, hagrees.sequence⟩
      | _ => exact ⟨rfl, rfl, rfl⟩

/-- A turn gives out an identifier where something is saved in it. -/
theorem length_ids_act (r : Recorder) (turn : Turn) :
    (Reply.ids (r.act turn).1).length = turn.capture?.toList.length := by
  cases hcapture : turn.capture? with
  | none => rw [(act_quiet hcapture).1]; rfl
  | some c =>
      cases Turn.eq_of_capture? hcapture
      rfl

/-- The identifiers that are given out depend on the ticks and timestamps that are saved, and on
nothing that was saved before but its number. -/
theorem ids_converse (r : Recorder) (turns : List Turn) : Reply.ids (r.converse turns).1 =
    SnapshotId.deriveAll r.store.salt r.store.sequence (Turn.captures turns) := by
  induction turns generalizing r with
  | nil => rfl
  | cons turn rest ih =>
      rw [converse, Reply.ids_append, ih]
      show _ = SnapshotId.deriveAll _ _ ((turn :: rest).filterMap Turn.capture?)
      rw [List.filterMap_cons]
      cases hcapture : turn.capture? with
      | none =>
          obtain ⟨hids, hsalt, hsequence⟩ := @act_quiet r turn hcapture
          rw [hids, hsalt, hsequence]
          rfl
      | some c =>
          cases Turn.eq_of_capture? hcapture
          rfl

/-- Other names for what is saved change no identifier that is given out. -/
theorem ids_renamed (r : Recorder) (f : SnapshotId → SnapshotId) (turns : List Turn) :
    Reply.ids (r.converse (turns.map (·.renamed f))).1 = Reply.ids (r.converse turns).1 := by
  rw [ids_converse, ids_converse, Turn.captures_renamed, SnapshotId.deriveAll_renamed]

/-! ### Two recorders -/

/-- The second recorder is the first one with its identifiers renamed, as far as both answer. -/
structure Mirrors (f : Equiv.Perm SnapshotId) (r r' : Recorder) : Prop where
  strategy : r'.strategy = r.strategy
  differ : r'.differ = r.differ
  chain : r'.chain = r.chain
  states : r'.store.states = r.store.states.map fun entry ↦ (f entry.1, entry.2.renamed f)
  left : r.Intact
  right : r'.Intact

variable {f : Equiv.Perm SnapshotId}

theorem parentFor_eq_or (r : Recorder) (kind : SnapshotKind) (s : GameState) :
    r.parentFor kind s = match kind with
      | .full => s.parent
      | .incremental | .checkpoint => (r.history.getLast?.map (·.id)).or s.parent := by
  unfold parentFor
  cases kind <;> cases r.history.getLast? <;> rfl

/-- The last snapshot in the history is the last one in memory. -/
theorem Intact.map_getLast? (h : r.Intact) :
    r.history.getLast?.map (·.id) = r.store.states.getLast?.map (·.1) := by
  rw [← List.getLast?_map, h.map_id, Keyed.keys, List.getLast?_map]

/-- What is saved is renamed. -/
theorem Mirrors.stamp (h : r.Mirrors f r') (c : Capture) :
    r'.stamp { c with state := c.state.renamed f } = (r.stamp c).renamed f := by
  have hlast : r'.history.getLast?.map (·.id) = (r.history.getLast?.map (·.id)).map f := by
    rw [h.right.map_getLast?, h.left.map_getLast?, h.states, List.getLast?_map, Option.map_map,
      Option.map_map]
    rfl
  have hparent : ∀ kind, r'.parentFor kind (c.state.renamed f) =
      (r.parentFor kind c.state).map f := by
    intro kind
    rw [parentFor_eq_or, parentFor_eq_or, hlast]
    cases kind with
    | full => rfl
    | incremental => cases r.history.getLast?.map (·.id) <;> rfl
    | checkpoint => cases r.history.getLast?.map (·.id) <;> rfl
  simp only [Recorder.stamp, hparent, h.strategy, h.chain]
  rfl

/-- What is answered is renamed. -/
theorem Mirrors.answer? (h : r.Mirrors f r') (inquiry : Inquiry) :
    r'.answer? (inquiry.renamed f) = (r.answer? inquiry).map (·.renamed f) := by
  cases inquiry with
  | take c => rfl
  | clear => rfl
  | atTick tick =>
      simp only [Inquiry.renamed, Recorder.answer?, h.states, ← List.map_reverse, List.find?_map,
        Option.map_map, Option.map_some, Reply.renamed]
      rfl
  | recent count =>
      simp only [Inquiry.renamed, Recorder.answer?, h.states, List.length_map, ← List.map_drop,
        List.map_map, Option.map_some, Reply.renamed]
      rfl
  | history =>
      simp only [Inquiry.renamed, Recorder.answer?, h.states, List.map_map, Option.map_some,
        Reply.renamed]
      rfl
  | list =>
      simp only [Inquiry.renamed, Recorder.answer?, Option.map_some, Reply.renamed]
      rw [@map_sorted _ _ inTime (·.renamed f) inTime (fun _ _ ↦ rfl), h.states, List.map_map,
        List.map_map]
      rfl
  | chain => exact congrArg (fun chain ↦ some (Reply.chain chain)) h.chain
  | diff prev curr =>
      simp only [Inquiry.renamed, Recorder.answer?, Recorder.diff, h.differ]
      rfl

theorem Mirrors.keys_eq (h : r.Mirrors f r') :
    Keyed.keys r'.store.states = (Keyed.keys r.store.states).map f := by
  rw [Keyed.keys, Keyed.keys, h.states, List.map_map, List.map_map]
  rfl

/-- Snapshots under a new identifier and under the renamed one are taken in the same way. -/
theorem Mirrors.create (h : r.Mirrors f r') {c : Capture} {id : SnapshotId}
    (hid : (r.create c.tick c.state c.events).1 = id)
    (hid' : (r'.create c.tick (c.state.renamed f) c.events).1 = f id)
    (hnew : id ∉ Keyed.keys r.store.states) :
    (r.create c.tick c.state c.events).2.Mirrors f
      (r'.create c.tick (c.state.renamed f) c.events).2 := by
  -- This is where the renaming must not make two names one.
  have hnew' : f id ∉ Keyed.keys r'.store.states := by
    rw [h.keys_eq]
    exact fun hmem ↦ hnew ((List.mem_map_of_injective f.injective).mp hmem)
  have hleft := h.left.create (hid ▸ hnew)
  have hright := @Intact.create _ h.right { c with state := c.state.renamed f } (hid' ▸ hnew')
  obtain ⟨backing, file, heq⟩ := h.left.create_eq hid hnew
  obtain ⟨backing', file', heq'⟩ :=
    @Intact.create_eq _ h.right { c with state := c.state.renamed f } _ hid' hnew'
  rw [h.stamp] at heq'
  refine ⟨?_, ?_, ?_, ?_, hleft, hright⟩
  · exact h.strategy
  · exact h.differ
  · rw [heq, heq']
    show r'.chain.record c.tick _ = r.chain.record c.tick _
    rw [h.chain]
    rfl
  · rw [heq, heq']
    show r'.store.states ++ _ = (r.store.states ++ _).map _
    rw [h.states, List.map_append]
    rfl

/-- A turn that gives out a new identifier, and the renamed one, is answered in the same way. -/
theorem Mirrors.act (h : r.Mirrors f r') {turn : Turn}
    (hids : Reply.ids (r'.act (turn.renamed f)).1 = (Reply.ids (r.act turn).1).map f)
    (hnew : (Keyed.keys r.store.states ++ Reply.ids (r.act turn).1).Nodup) :
    (r'.act (turn.renamed f)).1.map (·.brief) =
        (r.act turn).1.map (fun reply ↦ (reply.renamed f).brief) ∧
      (r.act turn).2.Mirrors f (r'.act (turn.renamed f)).2 := by
  cases turn with
  | disturb change =>
      refine ⟨rfl, h.strategy, h.differ, h.chain, ?_, h.left.disturb change,
        h.right.disturb change⟩
      show (r'.store.disturb change).states = (r.store.disturb change).states.map _
      rw [Store.states_disturb, Store.states_disturb, h.states]
  | ask inquiry =>
      rcases r.clear_or_take_or_answer? inquiry with rfl | ⟨c, rfl⟩ | ⟨answer, hanswer⟩
      · exact ⟨rfl, h.strategy, h.differ, rfl, rfl, r.intact_clear, r'.intact_clear⟩
      · have hid := (List.cons.inj hids).1
        exact ⟨congrArg (fun id ↦ [Reply.taken id]) hid, h.create rfl hid (new_of_nodup hnew)⟩
      · obtain ⟨given, hact, hbrief⟩ := h.left.ask_eq hanswer
        have hanswer' := h.answer? inquiry
        rw [hanswer, Option.map_some] at hanswer'
        obtain ⟨given', hact', hbrief'⟩ := h.right.ask_eq hanswer'
        rw [Turn.renamed, hact, hact']
        refine ⟨?_, h⟩
        rw [List.map_singleton, List.map_singleton, hbrief', Reply.brief_renamed, hbrief]

theorem ids_converse_cons (r : Recorder) (turn : Turn) (rest : List Turn) :
    Reply.ids (r.converse (turn :: rest)).1 =
      Reply.ids (r.act turn).1 ++ Reply.ids ((r.act turn).2.converse rest).1 :=
  Reply.ids_append _ _

theorem Mirrors.converse (h : r.Mirrors f r') {turns : List Turn}
    (hids : Reply.ids (r'.converse (turns.map (·.renamed f))).1 =
      (Reply.ids (r.converse turns).1).map f)
    (hnew : (Keyed.keys r.store.states ++ Reply.ids (r.converse turns).1).Nodup) :
    (r'.converse (turns.map (·.renamed f))).1.map (·.brief) =
      (r.converse turns).1.map fun reply ↦ (reply.renamed f).brief := by
  induction turns generalizing r r' with
  | nil => rfl
  | cons turn rest ih =>
      obtain ⟨hfirst, hrest⟩ := h.left.nodup_act hnew
      -- Both give out as many identifiers in the first turn, so they can be told from later ones.
      have hlength : (Reply.ids (r'.act (turn.renamed f)).1).length =
          ((Reply.ids (r.act turn).1).map f).length := by
        rw [List.length_map, length_ids_act, length_ids_act, Turn.capture?_renamed]
        cases turn.capture? <;> rfl
      rw [List.map_cons, ids_converse_cons, ids_converse_cons, List.map_append] at hids
      obtain ⟨hidsFirst, hidsRest⟩ := List.append_inj hids hlength
      obtain ⟨hreplies, hmirrors⟩ := h.act hidsFirst hfirst
      rw [List.map_cons, Recorder.converse, Recorder.converse, List.map_append, List.map_append,
        hreplies, ih hmirrors hidsRest hrest]

end Recorder

/-! ### A renaming -/

/-- Two lists without repetition are renamed into each other where they are of one length. -/
theorem exists_renaming {α : Type} [DecidableEq α] {before after : List α} (hbefore : before.Nodup)
    (hafter : after.Nodup) (hlength : after.length = before.length) :
    ∃ f : Equiv.Perm α, before.map f = after ∧ ∀ a, a ∉ before → a ∉ after → f a = a := by
  induction before generalizing after with
  | nil =>
      rw [List.eq_nil_of_length_eq_zero hlength]
      exact ⟨.refl α, rfl, fun _ _ _ ↦ rfl⟩
  | cons a before ih =>
      obtain ⟨b, after, rfl⟩ := List.exists_cons_of_length_eq_add_one hlength
      obtain ⟨ha, hbefore⟩ := List.nodup_cons.mp hbefore
      obtain ⟨hb, hafter⟩ := List.nodup_cons.mp hafter
      obtain ⟨f, hmap, hfix⟩ := ih hbefore hafter (Nat.succ.inj hlength)
      -- The swap sends `a` where it should go, and moves nothing that is renamed already.
      refine ⟨f.trans (Equiv.swap (f a) b), ?_, ?_⟩
      · have hrest : before.map (f.trans (Equiv.swap (f a) b)) = before.map f := by
          refine List.map_congr_left fun x hx ↦ ?_
          have hxa : f x ≠ f a := fun heq ↦ ha (f.injective heq ▸ hx)
          have hxb : f x ≠ b := fun heq ↦ hb (heq ▸ hmap ▸ List.mem_map_of_mem hx)
          exact Equiv.swap_apply_of_ne_of_ne hxa hxb
        rw [List.map_cons, hrest, hmap, Equiv.trans_apply, Equiv.swap_apply_left]
      · intro x hxbefore hxafter
        obtain ⟨hxa, hxbefore⟩ := not_or.mp (mt List.mem_cons.mpr hxbefore)
        obtain ⟨hxb, hxafter⟩ := not_or.mp (mt List.mem_cons.mpr hxafter)
        have hx := hfix x hxbefore hxafter
        have hxfa : x ≠ f a := fun heq ↦ hxa (f.injective (hx.trans heq))
        rw [Equiv.trans_apply, hx, Equiv.swap_apply_of_ne_of_ne hxfa hxb]

namespace Recorder

/-- Where two recorders begin with nothing and give out no identifier twice, one answers what the
other answers, up to the names of the identifiers. -/
theorem exists_renamed_replies {r r' : Recorder} (h : ∀ f, r.Mirrors f r')
    (hstates : r.store.states = []) {turns : List Turn}
    (hids : (Reply.ids (r.converse turns).1).Nodup)
    (hids' : (Reply.ids (r'.converse turns).1).Nodup) :
    ∃ f : Equiv.Perm SnapshotId,
      Reply.ids (r'.converse turns).1 = (Reply.ids (r.converse turns).1).map f ∧
      (∀ id, id ∉ Reply.ids (r.converse turns).1 → id ∉ Reply.ids (r'.converse turns).1 →
        f id = id) ∧
      (r'.converse (turns.map (·.renamed f))).1.map (·.brief) =
        (r.converse turns).1.map fun reply ↦ (reply.renamed f).brief := by
  have hlength : (Reply.ids (r'.converse turns).1).length =
      (Reply.ids (r.converse turns).1).length := by
    rw [ids_converse, ids_converse, SnapshotId.length_deriveAll, SnapshotId.length_deriveAll]
  obtain ⟨f, hmap, hfix⟩ := exists_renaming hids hids' hlength
  refine ⟨f, hmap.symm, hfix, (h f).converse ?_ ?_⟩
  · rw [ids_renamed, hmap]
  · rwa [hstates]

/-- A directory changes no answer: a recorder on a directory, with whatever is in it and whatever
others do to it, replies as one without a directory does, once the identifiers are renamed in the
order in which they are given out. Records are compared without the file, and without the moment,
which each run reads off its own clock. -/
theorem backing_unseen (strategy : Strategy) (differ : Differ) (folder : Option Folder)
    (salt salt' : Uuid) (clock clock' : Nat) (turns : List Turn) :
    let memory := (fresh (.fresh .memory salt clock) strategy differ)
    let directory := (fresh (.fresh (.directory folder) salt' clock') strategy differ)
    (Reply.ids (memory.converse turns).1).Nodup → (Reply.ids (directory.converse turns).1).Nodup →
    ∃ f : Equiv.Perm SnapshotId,
      Reply.ids (directory.converse turns).1 = (Reply.ids (memory.converse turns).1).map f ∧
      (∀ id, id ∉ Reply.ids (memory.converse turns).1 →
        id ∉ Reply.ids (directory.converse turns).1 → f id = id) ∧
      (directory.converse (turns.map (·.renamed f))).1.map (·.brief) =
        (memory.converse turns).1.map fun reply ↦ (reply.renamed f).brief := by
  intro memory directory hids hids'
  have hmirrors : ∀ f, memory.Mirrors f directory :=
    fun _ ↦ ⟨rfl, rfl, rfl, rfl, intact_fresh .., intact_fresh ..⟩
  exact exists_renamed_replies hmirrors rfl hids hids'

/-- The first file is lost, the second one is not written, and later the run begins again. -/
theorem backing_unseen_spoiled :
    let initial := GameState.initial 1 (.zero false)
    let turns := [.ask (.take ⟨1, initial, []⟩), .disturb fun _ _ ↦ none,
      .ask (.take ⟨2, { initial with tick := 2 }, []⟩),
      .disturb fun moment _ ↦ some [("note.json", ⟨.text "null".toList, moment⟩)],
      .ask (.recent 2), .ask .list, .ask .clear, .ask (.take ⟨3, initial, ["hurt"]⟩),
      .ask (.atTick 5)]
    let memory := fresh (.fresh .memory ⟨7⟩ 0) .default ⟨⟨[], [], []⟩, false⟩
    let directory := fresh (.fresh (.directory (some [])) ⟨8⟩ 5) .default ⟨⟨[], [], []⟩, false⟩
    ∃ f : Equiv.Perm SnapshotId,
      Reply.ids (directory.converse turns).1 = (Reply.ids (memory.converse turns).1).map f ∧
      (∀ id, id ∉ Reply.ids (memory.converse turns).1 →
        id ∉ Reply.ids (directory.converse turns).1 → f id = id) ∧
      (directory.converse (turns.map (·.renamed f))).1.map (·.brief) =
        (memory.converse turns).1.map fun reply ↦ (reply.renamed f).brief :=
  backing_unseen .default ⟨⟨[], [], []⟩, false⟩ (some []) ⟨7⟩ ⟨8⟩ 0 5 _ (by decide +kernel)
    (by decide +kernel)

end Recorder

end Chronicle

import Chronicle.Proofs.Snapshot.Files

/-!
# Runs of a store

A run is a list of calls of a store whose directory nobody else touches. `Store.Logged.run` says
what it leaves behind: one file for each save, in the order of the saves, whatever is restored,
taken up, or forgotten in between.
-/

namespace Chronicle

/-- A call of a store. -/
inductive Call where
  | save (state : GameState)
  | restore (id : SnapshotId)
  | list
  | index (scan : Scan)
  | clear
deriving DecidableEq

/-- The states that calls save, in order. -/
def Call.saves : List Call → List GameState
  | [] => []
  | .save state :: rest => state :: saves rest
  | _ :: rest => saves rest

theorem Call.saves_cons (call : Call) (rest : List Call) :
    saves (call :: rest) = saves [call] ++ saves rest := by
  cases call <;> rfl

theorem Call.quiet_or_save (call : Call) : saves [call] = [] ∨ ∃ state, call = .save state := by
  cases call with
  | save state => exact .inr ⟨state, rfl⟩
  | _ => exact .inl rfl

/-- What a save answers and records. -/
structure Saved where
  id : SnapshotId
  state : GameState
  metadata : Option SnapshotMetadata

namespace Store

/-- Makes a call, and logs what it saves. -/
def perform (store : Store) : Call → List Saved × Store
  | .save state =>
    let (id, store) := store.save state
    ([⟨id, state, store.metadata? id⟩], store)
  | .restore id => ([], (store.restore id).2)
  | .list => ([], store)
  | .index scan => ([], (store.index scan).2)
  | .clear => ([], store.clear)

/-- Makes calls one after another, and logs what they save. -/
def run (store : Store) : List Call → List Saved × Store
  | [] => ([], store)
  | call :: rest =>
    let (saved, store) := store.perform call
    let (more, store) := store.run rest
    (saved ++ more, store)

end Store

/-! ### What a log says -/

/-- The file of a snapshot. -/
def Saved.file (saved : Saved) : String × Entry := saved.id.file saved.state

/-- The metadata are those of the state, with its file. -/
def Saved.Recorded (saved : Saved) : Prop :=
  ∃ moment, saved.metadata =
    some (.ofState saved.id saved.state (some saved.id.fileName) moment)

/-- The store has given out just the identifiers in the log, with the given salt. -/
structure Store.Numbered (store : Store) (salt : Uuid) (log : List Saved) : Prop where
  salt_eq : store.salt = salt
  sequence_eq : store.sequence = min log.length lastSequence
  ids_eq : log.map (·.id) = (SnapshotId.names (log.map (·.state))).map (Uuid.version5 salt)

/-- The store has saved just what the log says, with the given salt. -/
structure Store.Logged (store : Store) (salt : Uuid) (log : List Saved) : Prop
    extends store.Numbered salt log where
  recorded : ∀ saved ∈ log, saved.Recorded
  files : ∃ folder, store.backing = .directory (some folder) ∧
    folder.contents = log.map (·.file)

namespace Store

variable {store : Store} {salt : Uuid} {log : List Saved}

/-- A new store has given out no identifier. -/
theorem numbered_fresh (backing : Backing) (clock : Nat) :
    (fresh backing salt clock).Numbered salt [] := ⟨rfl, (Nat.zero_min _).symm, rfl⟩

/-- A new store on an empty directory has saved nothing. -/
theorem logged_fresh {place : Place} (hplace : place = .vacant ∨ place = .folder []) {clock : Nat}
    (hopen : openAt place salt clock = .ok store) : store.Logged salt [] := by
  rcases hplace with rfl | rfl <;> cases hopen <;>
    exact ⟨numbered_fresh _ _, fun _ h ↦ absurd h List.not_mem_nil, [], rfl, rfl⟩

/-- What a call that saves nothing leaves as it is. -/
structure Agrees (store after : Store) : Prop where
  backing : after.backing = store.backing
  salt : after.salt = store.salt
  sequence : after.sequence = store.sequence

theorem Agrees.numbered {after : Store} (h : store.Agrees after)
    (hlog : store.Numbered salt log) : after.Numbered salt log :=
  ⟨h.salt.trans hlog.salt_eq, h.sequence.trans hlog.sequence_eq, hlog.ids_eq⟩

theorem Agrees.logged {after : Store} (h : store.Agrees after) (hlog : store.Logged salt log) :
    after.Logged salt log :=
  ⟨h.numbered hlog.toNumbered, hlog.recorded, h.backing ▸ hlog.files⟩

theorem agrees_restore (id : SnapshotId) : store.Agrees (store.restore id).2 := by
  unfold restore
  split
  · exact ⟨rfl, rfl, rfl⟩
  · split
    · exact ⟨rfl, rfl, rfl⟩
    · exact ⟨rfl, rfl, rfl⟩

theorem agrees_indexEntries (folder : Folder) :
    store.Agrees (store.indexEntries folder).2 :=
  indexEntries_kept (p := store.Agrees)
    (fun _ _ _ _ _ _ _ _ h ↦ ⟨h.backing, h.salt, h.sequence⟩) ⟨rfl, rfl, rfl⟩

theorem agrees_index (scan : Scan) : store.Agrees (store.index scan).2 := by
  obtain ⟨entries, -, hindex⟩ := store.exists_index scan
  rw [hindex]
  exact agrees_indexEntries entries

/-- A save under a new identifier writes a new file. -/
theorem save_new {folder : Folder} (hbacking : store.backing = .directory (some folder))
    {state : GameState} {id : SnapshotId}
    (hid : id = SnapshotId.derive store.salt state.tick.toNat state.timestamp store.sequence)
    (hnew : id.fileName ∉ Keyed.keys folder) :
    store.save state = (id, { store with
      backing := .directory (some (folder ++ [(id.fileName, ⟨.text state.text, store.clock⟩)]))
      sequence := min (store.sequence + 1) lastSequence
      clock := store.clock + 1
      states := Keyed.insert id state store.states
      metadata := Keyed.insert id (.ofState id state (some id.fileName) store.clock)
        store.metadata }) := by
  have hwrite : store.backing.write id.fileName state.text store.clock =
      (.directory (some (folder ++ [(id.fileName, ⟨.text state.text, store.clock⟩)])), true) := by
    rw [hbacking, Backing.write, Folder.write?_new hnew]
  rw [Store.save, ← hid, hwrite]
  rfl

/-- A save gives out the identifier of its place in the log. -/
theorem Numbered.id_save (h : store.Numbered salt log) (hroom : log.length ≤ lastSequence)
    (state : GameState) : (store.save state).1 =
      SnapshotId.derive salt state.tick.toNat state.timestamp log.length := by
  show SnapshotId.derive store.salt _ _ store.sequence = _
  rw [h.salt_eq, h.sequence_eq, Nat.min_eq_left hroom]

/-- A save adds to the log. -/
theorem Numbered.save (h : store.Numbered salt log) (hroom : log.length ≤ lastSequence)
    (state : GameState) :
    (store.perform (.save state)).2.Numbered salt (log ++ (store.perform (.save state)).1) := by
  refine ⟨h.salt_eq, ?_, ?_⟩
  · show min (store.sequence + 1) lastSequence = _
    rw [h.sequence_eq, Nat.min_eq_left hroom, List.length_append]
    rfl
  · rw [List.map_append, List.map_append, h.ids_eq]
    show _ ++ [(store.save state).1] = (SnapshotId.names (log.map (·.state) ++ [state])).map _
    rw [h.id_save hroom, SnapshotId.names_concat, List.map_append, List.length_map]
    rfl

/-- Where the identifiers of a run are distinct, the next one is new. -/
theorem Numbered.derive_not_mem (h : store.Numbered salt log) {state : GameState}
    {rest : List GameState} (hids : ((SnapshotId.names (log.map (·.state) ++ state :: rest)).map
      (Uuid.version5 salt)).Nodup) :
    SnapshotId.derive salt state.tick.toNat state.timestamp log.length ∉ log.map (·.id) := by
  rw [List.append_cons] at hids
  have hfirst := hids.sublist ((SnapshotId.names_prefix _ rest).sublist.map _)
  rw [SnapshotId.names_concat, List.map_append, ← h.ids_eq, List.length_map] at hfirst
  intro hmem
  exact (List.nodup_append.mp hfirst).2.2 _ hmem _ List.mem_cons_self rfl

/-- A save under a new identifier adds to the log, and its file to the files. -/
theorem Logged.save {state : GameState} (h : store.Logged salt log)
    (hroom : log.length ≤ lastSequence) {id : SnapshotId}
    (hid : id = SnapshotId.derive salt state.tick.toNat state.timestamp log.length)
    (hnew : id ∉ log.map (·.id)) :
    ∃ saved, (store.perform (.save state)).1 = [saved] ∧ saved.state = state ∧
      (store.perform (.save state)).2.Logged salt (log ++ [saved]) := by
  have hnumbered := h.toNumbered.save hroom state
  obtain ⟨⟨hsalt, hsequence, -⟩, hrecorded, folder, hbacking, hfolder⟩ := h
  -- The files are those of the log, so that a new identifier has a new file name.
  have hname : id.fileName ∉ Keyed.keys folder := by
    rw [← Folder.keys_contents, hfolder]
    intro hmem
    obtain ⟨_, hfile, hname⟩ := List.mem_map.mp hmem
    obtain ⟨saved, hsaved, rfl⟩ := List.mem_map.mp hfile
    exact hnew (SnapshotId.fileName_inj hname ▸ List.mem_map_of_mem hsaved)
  have hsave := @save_new store folder hbacking state id
    (by rw [hsalt, hsequence, Nat.min_eq_left hroom, hid]) hname
  rw [perform, hsave] at hnumbered ⊢
  refine ⟨_, rfl, rfl, hnumbered, ?_, _, rfl, ?_⟩
  · refine List.forall_mem_append.mpr ⟨hrecorded, List.forall_mem_singleton.mpr ?_⟩
    refine ⟨store.clock, ?_⟩
    show List.lookup _ (Keyed.insert _ _ _) = _
    rw [Keyed.lookup_insert, if_pos rfl]
  · rw [Folder.contents_append, hfolder, List.map_append]
    rfl

/-- Every other call logs nothing. -/
theorem perform_quiet {call : Call} (h : Call.saves [call] = []) :
    (store.perform call).1 = [] ∧ store.Agrees (store.perform call).2 := by
  cases call with
  | save state => cases h
  | restore id => exact ⟨rfl, agrees_restore id⟩
  | list => exact ⟨rfl, rfl, rfl, rfl⟩
  | index scan => exact ⟨rfl, agrees_index scan⟩
  | clear => exact ⟨rfl, rfl, rfl, rfl⟩

/-- A call adds what it saves to the log. -/
theorem Logged.perform {call : Call} (h : store.Logged salt log)
    (hroom : log.length + (Call.saves [call]).length ≤ lastSequence)
    (hids : ((SnapshotId.names (log.map (·.state) ++ Call.saves [call])).map
      (Uuid.version5 salt)).Nodup) :
    (store.perform call).1.map (·.state) = Call.saves [call] ∧
      (store.perform call).2.Logged salt (log ++ (store.perform call).1) := by
  rcases call.quiet_or_save with hquiet | ⟨state, rfl⟩
  · obtain ⟨hnone, hagrees⟩ := @perform_quiet store call hquiet
    rw [hnone, hquiet, List.append_nil]
    exact ⟨rfl, hagrees.logged h⟩
  · obtain ⟨saved, hsaved, rfl, hlogged⟩ :=
      h.save (Nat.le_of_succ_le hroom) rfl (h.toNumbered.derive_not_mem hids)
    rw [hsaved]
    exact ⟨rfl, hlogged⟩

/-- Calls one after another add what they save to the log. -/
theorem Logged.run {calls : List Call} (h : store.Logged salt log)
    (hroom : log.length + (Call.saves calls).length ≤ lastSequence)
    (hids : ((SnapshotId.names (log.map (·.state) ++ Call.saves calls)).map
      (Uuid.version5 salt)).Nodup) :
    (store.run calls).1.map (·.state) = Call.saves calls ∧
      (store.run calls).2.Logged salt (log ++ (store.run calls).1) := by
  induction calls generalizing store log with
  | nil => exact ⟨rfl, by rwa [Store.run, List.append_nil]⟩
  | cons call rest ih =>
      rw [Call.saves_cons, List.length_append] at hroom
      rw [Call.saves_cons, ← List.append_assoc] at hids
      -- The names of the saves so far and of this call are in front of all names of the run.
      have hfirst := hids.sublist ((SnapshotId.names_prefix _ _).sublist.map _)
      obtain ⟨hstates, hlogged⟩ := h.perform (by omega) hfirst
      have hlength : (store.perform call).1.length = (Call.saves [call]).length := by
        rw [← hstates, List.length_map]
      obtain ⟨hmore, hend⟩ := ih hlogged (by rw [List.length_append]; omega)
        (by rwa [List.map_append, hstates])
      rw [Store.run, Call.saves_cons, List.map_append, hstates, hmore, ← List.append_assoc]
      exact ⟨rfl, hend⟩

end Store

end Chronicle

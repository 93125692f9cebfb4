import Chronicle.Proofs.Snapshot.Run
import Chronicle.Proofs.State.Records

/-!
# What a later store finds

A store that is opened on the directory of an earlier one and takes up the files in it knows the
snapshots that the earlier one saved, with their states and metadata, and no others. Only the moment
when a snapshot was recorded is lost, for which the moment of the last change of its file stands.
-/

namespace Chronicle

/-- A state that is read from a text can be read from its own. -/
theorem GameState.readable_of_parse {cs : List Char} {s : GameState} (h : parse cs = .ok s) :
    s.Readable :=
  toOption_eq_some.mpr (restores_of_parse h).readText

/-- Such a state can be read from its text with any stamp. -/
theorem GameState.readable_stamped {cs : List Char} {s : GameState} (h : parse cs = .ok s)
    (kind : SnapshotKind) (parent : Option SnapshotId) : (s.stamped kind parent).Readable :=
  toOption_eq_some.mpr (restores_stamped_of_parse h kind parent).readText

namespace Store

/-- The store knows the snapshots of a log and no others. The moment when they were recorded may be
another one. -/
structure Recalls (store : Store) (log : List Saved) : Prop where
  states : ∀ saved ∈ log, (store.restore saved.id).1 = some saved.state
  metadata : ∀ saved ∈ log, ∃ metadata moment, saved.metadata = some metadata ∧
    store.metadata? saved.id = some { metadata with recorded := moment }
  others : ∀ id, (∀ saved ∈ log, saved.id ≠ id) →
    store.metadata? id = none ∧ (store.restore id).1 = none

variable {store : Store} {salt : Uuid} {log : List Saved}

/-- A snapshot that is neither in memory nor in a file cannot be restored. -/
theorem restore_eq_none {folder : Folder} {id : SnapshotId}
    (hstates : store.states.lookup id = none) (hbacking : store.backing = .directory (some folder))
    (hname : id.fileName ∉ Keyed.keys folder) : (store.restore id).1 = none := by
  have hstored : store.stored? id = none := by
    rw [stored?, hbacking]
    show ((folder.text? id.fileName).bind GameState.ofText?) = none
    rw [Folder.text?, Keyed.lookup_eq_none hname]
    rfl
  rw [restore, hstates, hstored]

/-- Derived identifiers are distinct where those of distinct names are. -/
theorem nodup_ids {states : List GameState}
    (h : ∀ a ∈ SnapshotId.names states, ∀ b ∈ SnapshotId.names states,
      Uuid.version5 salt a = Uuid.version5 salt b → a = b) :
    ((SnapshotId.names states).map (Uuid.version5 salt)).Nodup := by
  refine List.pairwise_map.mpr ((SnapshotId.nodup_names states).imp_of_mem ?_)
  intro a b ha hb hne heq
  exact hne (h a ha b hb heq)

/-! ### Listings of the files of a log -/

section

variable {listing : Folder} (hlisting : listing.contents.Perm (log.map (·.file)))

include hlisting

theorem nodup_keys_of_perm (hids : (log.map (·.id)).Nodup) : (Keyed.keys listing).Nodup := by
  rw [← Folder.keys_contents]
  refine (hlisting.map Prod.fst).nodup_iff.mpr ?_
  rw [List.map_map]
  refine List.pairwise_map.mpr ((List.pairwise_map.mp hids).imp ?_)
  intro a b hne heq
  exact hne (SnapshotId.fileName_inj heq)

/-- No file has the name of a snapshot that is not in the log. -/
theorem fileName_not_mem_of_perm {id : SnapshotId} (hother : ∀ saved ∈ log, saved.id ≠ id) :
    id.fileName ∉ Keyed.keys listing := by
  intro hkey
  rw [← Folder.keys_contents] at hkey
  obtain ⟨_, hentry, hname⟩ := List.mem_map.mp hkey
  obtain ⟨saved, hsaved, rfl⟩ := List.mem_map.mp (hlisting.mem_iff.mp hentry)
  exact hother saved hsaved (SnapshotId.fileName_inj hname)

/-- A store that has nothing in memory takes up all the files. -/
theorem recalls_index (hids : (log.map (·.id)).Nodup) (hrecorded : ∀ saved ∈ log, saved.Recorded)
    (hreadable : ∀ saved ∈ log, saved.state.Readable) (salt : Uuid) (clock : Nat) :
    ∃ indexed, (fresh (.directory (some listing)) salt clock).index .whole =
      (.ok log.length, indexed) ∧ indexed.Recalls log := by
  have hfiles : ∀ entry ∈ listing.contents, ∃ id state, entry = SnapshotId.file id state ∧
      state.Readable ∧ (fresh (.directory (some listing)) salt clock).metadata? id = none := by
    intro entry hentry
    obtain ⟨saved, hsaved, rfl⟩ := List.mem_map.mp (hlisting.mem_iff.mp hentry)
    exact ⟨saved.id, saved.state, rfl, hreadable saved hsaved, rfl⟩
  obtain ⟨indexed, hindexed, htakes⟩ :=
    indexEntries_files hfiles (nodup_keys_of_perm hlisting hids)
  have hknown : ∀ saved ∈ log, indexed.Knows saved.id saved.state := fun saved hsaved ↦
    htakes.knows _ _ (hlisting.mem_iff.mpr (List.mem_map_of_mem hsaved)) (hreadable saved hsaved)
  have hlength : listing.length = log.length := by
    have hperm := hlisting.length_eq
    rwa [Folder.contents, List.length_map, List.length_map] at hperm
  refine ⟨indexed, ?_, ?_, ?_, ?_⟩
  · rw [index_whole rfl, hindexed, hlength]
  · intro saved hsaved
    rw [restore, (hknown saved hsaved).held]
  · intro saved hsaved
    obtain ⟨moment, hmetadata⟩ := hrecorded saved hsaved
    obtain ⟨later, hlater⟩ := (hknown saved hsaved).recorded
    exact ⟨_, later, hmetadata, hlater⟩
  · intro id hother
    have hname := fileName_not_mem_of_perm hlisting hother
    exact ⟨htakes.metadata id hname,
      restore_eq_none (htakes.states id hname) htakes.backing hname⟩

end

/-- Durability: whatever calls are made of a store on an empty directory, a store that is opened on
that directory later takes up as many snapshots as were saved, and recalls them. The files may be
listed in any order, and may have been changed at any moment as far as the later store can tell. -/
theorem recalls_of_run {place : Place} (hplace : place = .vacant ∨ place = .folder []) {clock : Nat}
    (hopen : openAt place salt clock = .ok store) {calls : List Call}
    (hdecoded : ∀ state ∈ Call.saves calls, ∃ cs, GameState.parse cs = .ok state)
    (hcount : (Call.saves calls).length < 2 ^ 64)
    (hdistinct : ∀ a ∈ SnapshotId.names (Call.saves calls),
      ∀ b ∈ SnapshotId.names (Call.saves calls),
        Uuid.version5 salt a = Uuid.version5 salt b → a = b) :
    (store.run calls).1.map (·.state) = Call.saves calls ∧
      ∃ folder, (store.run calls).2.backing = .directory (some folder) ∧
        ∀ listing : Folder, listing.contents.Perm folder.contents → ∀ salt' clock',
          ∃ reopened indexed, openAt (.folder listing) salt' clock' = .ok reopened ∧
            reopened.index .whole = (.ok (Call.saves calls).length, indexed) ∧
            indexed.Recalls (store.run calls).1 := by
  have hids := nodup_ids hdistinct
  have hroom : ([] : List Saved).length + (Call.saves calls).length ≤ lastSequence := by
    rw [List.length_nil, Nat.zero_add]
    exact Nat.le_sub_one_of_lt hcount
  obtain ⟨hstates, hlogged⟩ := (logged_fresh hplace hopen).run hroom hids
  rw [List.nil_append] at hlogged
  obtain ⟨folder, hbacking, hfolder⟩ := hlogged.files
  refine ⟨hstates, folder, hbacking, fun listing hlisting salt' clock' ↦ ?_⟩
  -- What can be listed later are the files of the log, each with a state that is read back.
  rw [hfolder] at hlisting
  have hreadable : ∀ saved ∈ (store.run calls).1, saved.state.Readable := by
    intro saved hsaved
    obtain ⟨cs, hcs⟩ := hdecoded saved.state (hstates ▸ List.mem_map_of_mem hsaved)
    exact GameState.readable_of_parse hcs
  obtain ⟨indexed, hindexed, hrecalls⟩ := recalls_index hlisting
    (by rw [hlogged.ids_eq, hstates]; exact hids) hlogged.recorded hreadable salt' clock'
  refine ⟨_, indexed, rfl, ?_, hrecalls⟩
  rw [hindexed, ← hstates, List.length_map]

/-- One state is saved twice, with a clear in between. -/
theorem recalls_of_run_twice :
    let store := fresh (.directory (some [])) ⟨7⟩ 0
    let calls : List Call :=
      [.save .checkpoint, .list, .clear, .restore ⟨3⟩, .save .checkpoint]
    (store.run calls).1.map (·.state) = [.checkpoint, .checkpoint] ∧
      ∃ folder, (store.run calls).2.backing = .directory (some folder) ∧
        ∀ listing : Folder, listing.contents.Perm folder.contents → ∀ salt' clock',
          ∃ reopened indexed, openAt (.folder listing) salt' clock' = .ok reopened ∧
            reopened.index .whole = (.ok 2, indexed) ∧ indexed.Recalls (store.run calls).1 := by
  intro store calls
  have hopen : openAt .vacant ⟨7⟩ 0 = .ok store := rfl
  have hsaves : Call.saves calls = [.checkpoint, .checkpoint] := rfl
  have hdecoded : ∀ state ∈ [GameState.checkpoint, .checkpoint],
      ∃ cs, GameState.parse cs = .ok state := by
    intro state hstate
    rw [show state = .checkpoint by simpa using hstate]
    exact ⟨_, GameState.parse_checkpointText⟩
  have hdistinct : ∀ a ∈ SnapshotId.names [.checkpoint, .checkpoint],
      ∀ b ∈ SnapshotId.names [.checkpoint, .checkpoint],
        Uuid.version5 ⟨7⟩ a = Uuid.version5 ⟨7⟩ b → a = b := by decide +kernel
  rw [← hsaves] at hdecoded hdistinct ⊢
  exact recalls_of_run (.inl rfl) hopen hdecoded (by rw [hsaves]; decide) hdistinct

end Store

end Chronicle

import Chronicle.Proofs.Snapshot.Listing
import Chronicle.Proofs.Snapshot.Permanence

/-!
# Records and states

A store keeps records and states apart: a restore brings in a state without a record, and an index
may later take up another state in its place. Whatever happens to a store, and whatever others leave
in its directory, every record describes the state in memory. `Store.consistent_live` says so of
every state that a store can reach, and what its listing, its index and a failed call do there. An
index is not atomic: a listing of the directory that fails at an entry leaves the entries before it
taken up, and another index takes up the rest.
-/

namespace Chronicle

namespace Store

variable {store after : Store} {id : SnapshotId} {state : GameState} {m : SnapshotMetadata}

/-- Every identifier has one record, which describes the state in memory. -/
structure Consistent (store : Store) : Prop where
  nodup : (Keyed.keys store.metadata).Nodup
  described : ∀ id m, store.metadata? id = some m → ∃ state file moment,
    store.states.lookup id = some state ∧ m = .ofState id state file moment

/-! ### What a step keeps -/

theorem consistent_empty (hmetadata : store.metadata = []) : store.Consistent := by
  refine ⟨?_, fun id m hm ↦ ?_⟩
  · rw [hmetadata]
    exact List.nodup_nil
  · rw [metadata?, hmetadata] at hm
    cases hm

/-- A state comes in together with its record, in place of those that the identifier had. -/
theorem Consistent.put {file : Option String} {moment : Nat} (h : store.Consistent)
    (hstates : after.states = Keyed.insert id state store.states)
    (hmetadata : after.metadata =
      Keyed.insert id (.ofState id state file moment) store.metadata) : after.Consistent := by
  refine ⟨?_, fun other m hm ↦ ?_⟩
  · rw [hmetadata]
    exact Keyed.nodup_keys_insert h.nodup _ _
  · rw [metadata?, hmetadata, Keyed.lookup_insert] at hm
    rw [hstates, Keyed.lookup_insert]
    split at hm
    · next heq =>
        cases hm
        subst heq
        exact ⟨state, file, moment, if_pos rfl, rfl⟩
    · next hne =>
        rw [if_neg hne]
        exact h.described other m hm

/-- A state that comes in without a record takes the place of none that has one. -/
theorem Consistent.restore (h : store.Consistent) (id : SnapshotId) :
    (store.restore id).2.Consistent := by
  unfold Store.restore
  split
  · exact h
  · next hnone =>
      split
      · refine ⟨h.nodup, fun other m hm ↦ ?_⟩
        obtain ⟨state, file, moment, hheld, hm⟩ := h.described other m hm
        have hne : other ≠ id := by
          rintro rfl
          rw [hnone] at hheld
          cases hheld
        refine ⟨state, file, moment, ?_, hm⟩
        rw [Keyed.lookup_insert, if_neg hne]
        exact hheld
      · exact h

theorem Consistent.indexEntries (h : store.Consistent) (listing : Folder) :
    (store.indexEntries listing).2.Consistent :=
  indexEntries_kept (fun _ _ _ _ _ _ _ _ hbefore ↦ hbefore.put rfl rfl) h

theorem Consistent.index (h : store.Consistent) (scan : Scan) :
    (store.index scan).2.Consistent := by
  obtain ⟨entries, -, hindex⟩ := store.exists_index scan
  rw [hindex]
  exact h.indexEntries entries

/-- Whatever happens to a store, its records go on describing its states. -/
theorem Consistent.act (h : store.Consistent) (step : Step) : (store.act step).2.Consistent := by
  cases step with
  | disturb change =>
      rw [Store.act, disturb]
      cases store.backing with
      | memory => exact h
      | directory folder => exact ⟨h.nodup, h.described⟩
  | call c =>
      cases c with
      | save state => exact h.put rfl rfl
      | restore id => exact h.restore id
      | list => exact h
      | index scan => exact h.index scan
      | clear => exact consistent_empty rfl

theorem Consistent.live (h : store.Consistent) (steps : List Step) :
    (store.live steps).2.Consistent := by
  induction steps generalizing store with
  | nil => exact h
  | cons step rest ih => exact ih (h.act step)

/-! ### The listing -/

theorem Consistent.id_eq (h : store.Consistent) (hm : store.metadata? id = some m) : m.id = id := by
  obtain ⟨state, file, moment, -, rfl⟩ := h.described id m hm
  rfl

/-- The identifiers in the records are the keys under which these stand. -/
theorem Consistent.map_id (h : store.Consistent) :
    (store.metadata.map (·.2)).map (·.id) = Keyed.keys store.metadata := by
  rw [List.map_map]
  refine List.map_congr_left fun entry hentry ↦ ?_
  exact h.id_eq (Keyed.lookup_eq_some_of_mem h.nodup hentry)

/-- No record is listed twice. -/
theorem Consistent.nodup_list (h : store.Consistent) : (store.list.map (·.id)).Nodup := by
  have hperm := (sorted_perm SnapshotMetadata.precedes (store.metadata.map (·.2))).map (·.id)
  rw [h.map_id] at hperm
  exact hperm.nodup_iff.mpr h.nodup

/-- What is listed is what is known. -/
theorem Consistent.mem_list (h : store.Consistent) :
    m ∈ store.list ↔ store.metadata? m.id = some m := by
  rw [list, (sorted_perm SnapshotMetadata.precedes _).mem_iff, List.mem_map]
  constructor
  · rintro ⟨⟨id, m⟩, hentry, rfl⟩
    have hknown : store.metadata? id = some m := Keyed.lookup_eq_some_of_mem h.nodup hentry
    show store.metadata? m.id = some m
    rw [h.id_eq hknown]
    exact hknown
  · intro hknown
    obtain ⟨_, _, hsplit, -⟩ := List.lookup_eq_some_iff.mp hknown
    exact ⟨(m.id, m), by rw [hsplit]; simp, rfl⟩

/-- An entry is left alone if it is no file of a snapshot, has no state, or is known already. -/
theorem indexEntry_eq_none {name : String} {stamped : Stamped} :
    store.indexEntry name stamped = none ↔ ∀ id state, SnapshotId.ofFileName? name = some id →
      stamped.entry.text?.bind GameState.ofText? = some state → store.metadata? id ≠ none := by
  rw [Option.eq_none_iff_forall_ne_some]
  constructor
  · intro h id state hname hstate hnew
    exact h _ (indexEntry_eq_some.mpr ⟨id, state, hname, hnew, hstate, rfl⟩)
  · intro h taken htaken
    obtain ⟨id, state, hname, hnew, hstate, -⟩ := indexEntry_eq_some.mp htaken
    exact h id state hname hstate hnew

/-- What is known stays known while files are taken up. -/
theorem metadata?_indexEntries (listing : Folder) (h : store.metadata? id ≠ none) :
    (store.indexEntries listing).2.metadata? id ≠ none := by
  refine indexEntries_kept (p := fun after ↦ after.metadata? id ≠ none) ?_ h
  intro entry _ before other state _ hnew _ hknown
  have hne : id ≠ other := by
    rintro rfl
    exact hknown hnew
  rw [metadata?_taking_ne hne]
  exact hknown

theorem backing_indexEntries (listing : Folder) :
    (store.indexEntries listing).2.backing = store.backing :=
  (agrees_indexEntries listing).backing

end Store

end Chronicle

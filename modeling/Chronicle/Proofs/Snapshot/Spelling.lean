import Chronicle.Proofs.Snapshot.Consistency
import Chronicle.Proofs.Snapshot.Durability

/-!
# Spellings of file names

An identifier can be spelled in several ways in the name of a file. An index takes up a snapshot
under any spelling, the first one that is listed with a state, while a restore from disk looks for
one spelling only, `SnapshotId.fileName`. So a snapshot that an index has taken up may be lost or
replaced when the store is cleared; `Store.restore_clear_indexed` says when it is not.
-/

namespace Chronicle

/-- The state that is listed first for a snapshot, however its name is spelled. -/
def Folder.held? (listing : Folder) (id : SnapshotId) : Option GameState :=
  listing.findSome? fun entry ↦
    if SnapshotId.ofFileName? entry.1 = some id then entry.2.entry.text?.bind GameState.ofText?
    else none

/-- The files of a snapshot have no name but the one that a restore looks for. -/
def Folder.SpellsPlainly (listing : Folder) (id : SnapshotId) : Prop :=
  ∀ entry ∈ listing, SnapshotId.ofFileName? entry.1 = some id → entry.1 = id.fileName

namespace Folder

variable {listing : Folder} {id : SnapshotId} {state : GameState}

theorem held?_cons (entry : String × Stamped) (rest : Folder) (id : SnapshotId) :
    held? (entry :: rest) id =
      (if SnapshotId.ofFileName? entry.1 = some id then entry.2.entry.text?.bind GameState.ofText?
        else none).or (rest.held? id) := by
  rw [held?, List.findSome?_cons]
  split
  · next hstate => rw [hstate]; rfl
  · next hnone => rw [hnone]; rfl

/-- Where its name is spelled in one way, what is listed for a snapshot is in that file. -/
theorem SpellsPlainly.text?_eq (h : listing.SpellsPlainly id) (hnames : (Keyed.keys listing).Nodup)
    (hheld : listing.held? id = some state) :
    (listing.text? id.fileName).bind GameState.ofText? = some state := by
  obtain ⟨entry, hentry, hstate⟩ := List.exists_of_findSome?_eq_some hheld
  obtain ⟨hname, hstate⟩ := Option.ite_none_right_eq_some.mp hstate
  rw [text?, ← h entry hentry hname, Keyed.lookup_eq_some_of_mem hnames hentry]
  exact hstate

end Folder

namespace Store

variable {store indexed : Store} {id : SnapshotId} {listing : Folder} {state : GameState}

/-- The state of a snapshot that is known already stays while files are taken up. -/
theorem states_indexEntries (listing : Folder) (h : store.metadata? id ≠ none) :
    (store.indexEntries listing).2.states.lookup id = store.states.lookup id := by
  refine (indexEntries_kept
    (p := fun after ↦ after.metadata? id ≠ none ∧ after.states.lookup id = store.states.lookup id)
    ?_ ⟨h, rfl⟩).2
  intro entry _ before other state _ hnew _ ⟨hknown, hstates⟩
  have hne : id ≠ other := by
    rintro rfl
    exact hknown hnew
  rw [metadata?_taking_ne hne, states_taking_ne hne]
  exact ⟨hknown, hstates⟩

/-- What is taken up for a snapshot is what is listed first for it. -/
theorem taken_of_held? (hnew : store.metadata? id = none)
    (hheld : listing.held? id = some state) :
    (store.indexEntries listing).2.metadata? id ≠ none ∧
      (store.indexEntries listing).2.states.lookup id = some state := by
  induction listing generalizing store with
  | nil => cases hheld
  | cons entry rest ih =>
      obtain ⟨name, stamped⟩ := entry
      rw [Folder.held?_cons] at hheld
      rw [indexEntries]
      split
      · next taken htaken =>
          obtain ⟨other, listed, hname, -, hlisted, rfl⟩ := indexEntry_eq_some.mp htaken
          by_cases hid : other = id
          · -- It is taken up here, and stays.
            subst hid
            rw [if_pos hname, hlisted] at hheld
            cases hheld
            have hknown :
                (store.taking other state name stamped.modified).metadata? other ≠ none := by
              rw [metadata?_taking]
              exact Option.some_ne_none _
            refine ⟨metadata?_indexEntries rest hknown, ?_⟩
            rw [states_indexEntries rest hknown, states_taking]
          · rw [if_neg (by rw [hname]; exact fun heq ↦ hid (Option.some.inj heq))] at hheld
            exact ih (by rw [metadata?_taking_ne (Ne.symm hid)]; exact hnew) hheld
      · next hnone =>
          refine ih hnew ?_
          have hentry : (if SnapshotId.ofFileName? name = some id then
              stamped.entry.text?.bind GameState.ofText? else none) = none := by
            refine Option.eq_none_iff_forall_ne_some.mpr fun listed hlisted ↦ ?_
            obtain ⟨hname, hlisted⟩ := Option.ite_none_right_eq_some.mp hlisted
            exact indexEntry_eq_none.mp hnone id listed hname hlisted hnew
          rwa [hentry, Option.none_or] at hheld

/-- A snapshot for which nothing is listed is not taken up. -/
theorem not_taken_of_held? (hnew : store.metadata? id = none)
    (hheld : listing.held? id = none) : (store.indexEntries listing).2.metadata? id = none := by
  refine indexEntries_kept (p := fun after ↦ after.metadata? id = none) ?_ hnew
  intro entry hentry before other state hname _ hstate hunknown
  have hne : id ≠ other := by
    rintro rfl
    have hfirst := List.findSome?_eq_none_iff.mp hheld entry hentry
    rw [if_pos hname, hstate] at hfirst
    cases hfirst
  rw [metadata?_taking_ne hne]
  exact hunknown

theorem restore_of_lookup (h : store.states.lookup id = some state) :
    (store.restore id).1 = some state := by
  rw [restore, h]

/-- After a clear the file decides. -/
theorem restore_clear (store : Store) (id : SnapshotId) :
    (store.clear.restore id).1 = store.stored? id := by
  have hstored : store.clear.stored? id = store.stored? id := rfl
  rw [restore, show store.clear.states.lookup id = none from rfl, hstored]
  cases store.stored? id <;> rfl

/-- A snapshot that has been taken up from a directory is restored as it is listed first, however
its name is spelled. After a clear it is restored from the file with the plain name, if that is
there. The two are the same where no other spelling is in use. -/
theorem restore_clear_indexed (listing : Folder) (salt : Uuid) (clock : Nat) (id : SnapshotId) :
    ∃ store added indexed, openAt (.folder listing) salt clock = .ok store ∧
      store.index .whole = (.ok added, indexed) ∧
      (indexed.metadata? id ≠ none ↔ listing.held? id ≠ none) ∧
      (indexed.metadata? id ≠ none → (indexed.restore id).1 = listing.held? id) ∧
      (indexed.clear.restore id).1 = (listing.text? id.fileName).bind GameState.ofText? ∧
      ((Keyed.keys listing).Nodup → listing.SpellsPlainly id → indexed.metadata? id ≠ none →
        (indexed.clear.restore id).1 = (indexed.restore id).1) := by
  let opened := fresh (.directory (some listing)) salt clock
  have hnew : opened.metadata? id = none := rfl
  let indexed := (opened.indexEntries listing).2
  have hknown : indexed.metadata? id ≠ none ↔ listing.held? id ≠ none := by
    refine not_congr ⟨fun hnone ↦ ?_, not_taken_of_held? hnew⟩
    refine Option.eq_none_iff_forall_ne_some.mpr fun state hheld ↦ ?_
    exact (taken_of_held? hnew hheld).1 hnone
  have hbefore : indexed.metadata? id ≠ none → (indexed.restore id).1 = listing.held? id := by
    intro hindexed
    obtain ⟨state, hheld⟩ := Option.ne_none_iff_exists'.mp (hknown.mp hindexed)
    rw [hheld, restore_of_lookup (taken_of_held? hnew hheld).2]
  have hafter : (indexed.clear.restore id).1 =
      (listing.text? id.fileName).bind GameState.ofText? := by
    rw [restore_clear, stored?, backing_indexEntries]
    rfl
  refine ⟨opened, _, indexed, rfl, index_whole rfl, hknown, hbefore, hafter, ?_⟩
  intro hnames hplain hindexed
  obtain ⟨state, hheld⟩ := Option.ne_none_iff_exists'.mp (hknown.mp hindexed)
  rw [hafter, hbefore hindexed, hheld, hplain.text?_eq hnames hheld]

/-- A snapshot whose file has a hyphenated name is lost when the store is cleared. -/
theorem restore_clear_hyphenated :
    let listing := [("00000000-0000-0000-0000-000000000005.json",
      Stamped.mk (.text GameState.checkpoint.text) 1)]
    ∃ store indexed, openAt (.folder listing) ⟨7⟩ 0 = .ok store ∧
      store.index .whole = (.ok 1, indexed) ∧ (indexed.metadata? ⟨5⟩).isSome ∧
      (indexed.restore ⟨5⟩).1 = some .checkpoint ∧ (indexed.clear.restore ⟨5⟩).1 = none := by
  have hread : GameState.checkpoint.Readable :=
    GameState.readable_of_parse GameState.parse_checkpointText
  have hlisted : (Entry.text GameState.checkpoint.text).text?.bind GameState.ofText? =
      some .checkpoint := by
    rw [Entry.text?, Option.bind_some]
    exact hread
  have hname : SnapshotId.ofFileName? "00000000-0000-0000-0000-000000000005.json" = some ⟨5⟩ := by
    decide +kernel
  -- Which state it is does not matter, only that its text is read as the state.
  generalize GameState.checkpoint = state at hlisted ⊢
  intro listing
  let opened := fresh (.directory (some listing)) ⟨7⟩ 0
  have hentry : opened.indexEntry "00000000-0000-0000-0000-000000000005.json"
      ⟨.text state.text, 1⟩ =
        some (opened.taking ⟨5⟩ state "00000000-0000-0000-0000-000000000005.json" 1) :=
    indexEntry_eq_some.mpr ⟨⟨5⟩, state, hname, rfl, hlisted, rfl⟩
  have hindex : opened.index .whole =
      (.ok 1, opened.taking ⟨5⟩ state "00000000-0000-0000-0000-000000000005.json" 1) := by
    rw [index_whole rfl, indexEntries, hentry]
    rfl
  have hplain : (SnapshotId.fileName ⟨5⟩ == "00000000-0000-0000-0000-000000000005.json") =
      false := by decide +kernel
  refine ⟨opened, _, rfl, hindex, ?_, restore_of_lookup states_taking, ?_⟩
  · rw [metadata?_taking]
    rfl
  · have hfile : listing.lookup (SnapshotId.fileName ⟨5⟩) = none := by
      rw [List.lookup_cons, hplain]
      rfl
    rw [restore_clear, stored?]
    show (Folder.text? listing (SnapshotId.fileName ⟨5⟩)).bind GameState.ofText? = none
    rw [Folder.text?, hfile]
    rfl

end Store

end Chronicle

import Chronicle.Proofs.Results
import Chronicle.Proofs.Uuid
import Chronicle.Snapshot.Store

/-!
# The files of snapshots

A file name stands for one snapshot, and the name that an identifier is derived from tells the place
in the sequence. A store that takes up a folder in which every entry is the file of a snapshot knows
these snapshots afterwards, and of others what it knew before: `Store.indexEntries_files`. How an
index of a store can go at all is `Store.index_cases`.
-/

namespace Chronicle

/-! ### Names of identifiers -/

/-- What follows the last underscore is determined. -/
theorem eq_of_append_underscore {a a' b b' : List Char} (hb : '_' ∉ b) (hb' : '_' ∉ b')
    (h : a ++ '_' :: b = a' ++ '_' :: b') : b = b' := by
  rcases List.append_eq_append_iff.mp h with ⟨c, -, hc⟩ | ⟨c, -, hc⟩
  · cases c with
    | nil => exact (List.cons.inj hc).2
    | cons x rest =>
        obtain ⟨-, hrest⟩ := List.cons.inj hc
        exact absurd (hrest ▸ by simp) hb
  · cases c with
    | nil => exact (List.cons.inj hc).2.symm
    | cons x rest =>
        obtain ⟨-, hrest⟩ := List.cons.inj hc
        exact absurd (hrest ▸ by simp) hb'

namespace SnapshotId

/-- The name of an identifier ends in its place in the sequence. -/
theorem sequence_of_name {tick tick' sequence sequence' : Nat} {timestamp timestamp' : Binary64}
    (h : name tick timestamp sequence = name tick' timestamp' sequence') :
    sequence = sequence' := by
  have hdigits : Nat.toDigits 10 sequence = Nat.toDigits 10 sequence' := by
    rw [name, name, ← List.cons_append, ← List.cons_append, ← List.append_assoc,
      ← List.append_assoc] at h
    exact eq_of_append_underscore Nat.underscore_not_in_toDigits Nat.underscore_not_in_toDigits h
  rw [← @Nat.ofDigitChars_ten_toDigits sequence, hdigits, Nat.ofDigitChars_ten_toDigits]

/-- The names of the states that a store saves one after another. -/
def names (states : List GameState) : List (List Char) :=
  states.zipIdx.map fun (s, sequence) ↦ name s.tick.toNat s.timestamp sequence

theorem names_concat (states : List GameState) (s : GameState) :
    names (states ++ [s]) = names states ++ [name s.tick.toNat s.timestamp states.length] := by
  simp [names, List.zipIdx_append]

theorem names_prefix (states more : List GameState) : names states <+: names (states ++ more) := by
  rw [names, names, List.zipIdx_append, List.map_append]
  exact List.prefix_append _ _

theorem nodup_names (states : List GameState) : (names states).Nodup := by
  have hplaces : (states.zipIdx.map Prod.snd).Nodup := by
    rw [List.zipIdx_map_snd]
    exact List.nodup_range'
  refine List.pairwise_map.mpr ((List.pairwise_map.mp hplaces).imp ?_)
  intro a b hne heq
  exact hne (sequence_of_name heq)

/-! ### File names -/

/-- A file name stands for the snapshot that it is made for. -/
theorem ofFileName?_fileName (id : SnapshotId) : ofFileName? id.fileName = some id := by
  have hlength : id.simple.length = 32 := Uuid.length_hexDigits _ _
  have hsuffix : ".json".toList.length = 5 := rfl
  have hcut : (id.simple ++ ".json".toList).length - 5 = id.simple.length := by
    rw [List.length_append, hsuffix, Nat.add_sub_cancel]
  rw [ofFileName?, fileName, String.toList_ofList]
  show (if List.drop _ _ = _ then _ else _) = _
  rw [hcut, List.drop_left, List.take_left, if_pos rfl, Uuid.parse?_simple]

theorem fileName_inj {a b : SnapshotId} (h : a.fileName = b.fileName) : a = b := by
  have heq : some a = some b := by
    rw [← ofFileName?_fileName a, h, ofFileName?_fileName]
  exact Option.some.inj heq

end SnapshotId

/-! ### Taking up files -/

/-- The entries of a folder without the moments of their last changes. -/
def Folder.contents (folder : Folder) : List (String × Entry) :=
  folder.map fun (name, stamped) ↦ (name, stamped.entry)

theorem Folder.contents_cons (entry : String × Stamped) (rest : Folder) :
    contents (entry :: rest) = (entry.1, entry.2.entry) :: contents rest := rfl

theorem Folder.contents_append (folder more : Folder) :
    contents (folder ++ more) = contents folder ++ contents more := List.map_append

theorem Folder.keys_contents (folder : Folder) :
    Keyed.keys folder.contents = Keyed.keys folder := by
  simp [Keyed.keys, contents]

/-- A file with a new name can be written, and goes to the end. -/
theorem Folder.write?_new {folder : Folder} {name : String} (h : name ∉ Keyed.keys folder)
    (cs : List Char) (now : Nat) :
    folder.write? name cs now = some (folder ++ [(name, ⟨.text cs, now⟩)]) := by
  rw [write?, Keyed.lookup_eq_none h, if_neg (by simp), Keyed.insert_eq_append h]

/-- The file of a snapshot. -/
def SnapshotId.file (id : SnapshotId) (state : GameState) : String × Entry :=
  (id.fileName, .text state.text)

/-- The text of the state is read as the state. -/
def GameState.Readable (state : GameState) : Prop := ofText? state.text = some state

theorem SnapshotId.fileName_mem_keys {id : SnapshotId} {state : GameState} {folder : Folder}
    (h : file id state ∈ folder.contents) : id.fileName ∈ Keyed.keys folder := by
  rw [← Folder.keys_contents]
  exact List.mem_map.mpr ⟨_, h, rfl⟩

theorem SnapshotId.file_inj {a b : SnapshotId} {s t : GameState} (hs : s.Readable)
    (ht : t.Readable) (h : file a s = file b t) : a = b ∧ s = t := by
  obtain ⟨hname, htext⟩ := Prod.mk.inj h
  have hstate : some s = some t := by
    rw [← hs, Entry.text.inj htext]
    exact ht
  exact ⟨fileName_inj hname, Option.some.inj hstate⟩

namespace Store

/-- What the store knows of a snapshot is what its file says. -/
structure Knows (store : Store) (id : SnapshotId) (state : GameState) : Prop where
  held : store.states.lookup id = some state
  recorded : ∃ moment, store.metadata? id = some (.ofState id state (some id.fileName) moment)

/-- The store after it has taken up a snapshot from the file of the given name. -/
def taking (store : Store) (id : SnapshotId) (state : GameState) (name : String) (moment : Nat) :
    Store :=
  { store with
    states := Keyed.insert id state store.states
    metadata := Keyed.insert id (.ofState id state (some name) moment) store.metadata }

variable {store indexed : Store} {id other : SnapshotId} {state : GameState} {name : String}
  {moment : Nat}

theorem states_taking : (store.taking id state name moment).states.lookup id = some state := by
  rw [taking, Keyed.lookup_insert, if_pos rfl]

theorem metadata?_taking : (store.taking id state name moment).metadata? id =
    some (.ofState id state (some name) moment) := by
  rw [metadata?, taking, Keyed.lookup_insert, if_pos rfl]

theorem knows_taking : (store.taking id state id.fileName moment).Knows id state :=
  ⟨states_taking, moment, metadata?_taking⟩

theorem states_taking_ne (h : other ≠ id) :
    (store.taking id state name moment).states.lookup other = store.states.lookup other := by
  rw [taking, Keyed.lookup_insert, if_neg h]

theorem metadata?_taking_ne (h : other ≠ id) :
    (store.taking id state name moment).metadata? other = store.metadata? other := by
  rw [metadata?, taking, Keyed.lookup_insert, if_neg h, metadata?]

/-- An entry is taken up if it is the file of an unknown snapshot and has a state. -/
theorem indexEntry_eq_some {stamped : Stamped} {after : Store} :
    store.indexEntry name stamped = some after ↔ ∃ id state,
      SnapshotId.ofFileName? name = some id ∧ store.metadata? id = none ∧
        stamped.entry.text?.bind GameState.ofText? = some state ∧
          after = store.taking id state name stamped.modified := by
  rw [indexEntry]
  constructor
  · intro h
    split at h
    · cases h
    · next id hname =>
        split at h
        · cases h
        · next hknown =>
            split at h
            · cases h
            · next state hstate =>
                cases h
                exact ⟨id, state, hname, by simpa using hknown, hstate, rfl⟩
  · rintro ⟨id, state, hname, hnew, hstate, rfl⟩
    simp only [hname, hnew, Option.isSome_none, Bool.false_eq_true, if_false, hstate]
    rfl

/-- Takes up entries that can all be listed, and counts those that were new. -/
def indexEntries (store : Store) : Folder → Nat × Store
  | [] => (0, store)
  | (name, stamped) :: rest =>
    match store.indexEntry name stamped with
    | some store =>
      let (added, store) := store.indexEntries rest
      (added + 1, store)
    | none => store.indexEntries rest

/-- Entries that can be listed are taken up before anything else that a listing gives. -/
theorem indexListed_append (entries : Folder) (rest : List (Option (String × Stamped))) :
    store.indexListed (entries.map some ++ rest) =
      (((store.indexEntries entries).2.indexListed rest).1.map (· + (store.indexEntries entries).1),
        ((store.indexEntries entries).2.indexListed rest).2) := by
  induction entries generalizing store with
  | nil =>
      refine Prod.ext ?_ rfl
      show (store.indexListed rest).1 = (store.indexListed rest).1.map (· + 0)
      cases (store.indexListed rest).1 <;> rfl
  | cons entry entries ih =>
      obtain ⟨name, stamped⟩ := entry
      rw [List.map_cons, List.cons_append, indexListed, indexEntries]
      cases store.indexEntry name stamped with
      | none => exact ih
      | some taken =>
          show ((taken.indexListed (entries.map some ++ rest)).1.map (· + 1),
            (taken.indexListed (entries.map some ++ rest)).2) = _
          rw [ih]
          refine Prod.ext ?_ rfl
          show ((_ : Except StoreError Nat).map _).map _ = _
          cases ((taken.indexEntries entries).2.indexListed rest).1 <;> rfl

/-- A listing that comes to its end takes up its entries and counts them. -/
theorem indexListed_map_some (entries : Folder) : store.indexListed (entries.map some) =
    (.ok (store.indexEntries entries).1, (store.indexEntries entries).2) := by
  have happend := @indexListed_append store entries []
  rw [List.append_nil] at happend
  rw [happend]
  show (Except.ok (0 + _), _) = _
  rw [Nat.zero_add]
  rfl

/-- What holds of a store still holds after it has taken up a listing, if it holds after each
snapshot that is taken up. -/
theorem indexEntries_kept {p : Store → Prop} {listing : Folder}
    (hp : ∀ entry ∈ listing, ∀ before id state, SnapshotId.ofFileName? entry.1 = some id →
      before.metadata? id = none → entry.2.entry.text?.bind GameState.ofText? = some state →
        p before → p (before.taking id state entry.1 entry.2.modified))
    (h : p store) : p (store.indexEntries listing).2 := by
  induction listing generalizing store with
  | nil => exact h
  | cons entry rest ih =>
      obtain ⟨hentry, hrest⟩ := List.forall_mem_cons.mp hp
      obtain ⟨name, stamped⟩ := entry
      rw [indexEntries]
      split
      · next taken htaken =>
          obtain ⟨id, state, hname, hnew, hstate, rfl⟩ := indexEntry_eq_some.mp htaken
          exact ih hrest (hentry store id state hname hnew hstate h)
      · exact ih hrest h

section

variable {folder : Folder}

/-- An index takes up the folder that is there. -/
theorem index_whole (h : store.backing = .directory (some folder)) :
    store.index .whole = (.ok (store.indexEntries folder).1, (store.indexEntries folder).2) := by
  rw [index, h]
  exact indexListed_map_some folder

/-- An index whose listing fails has taken up the entries before. -/
theorem index_broken (h : store.backing = .directory (some folder)) (count : Nat) :
    store.index (.broken count) =
      (.error .unusable, (store.indexEntries (folder.take count)).2) := by
  rw [index, h]
  exact indexListed_append (folder.take count) [none]

/-- How an index can go. Without a folder it fails at once, and with one the listing decides. -/
theorem index_cases (store : Store) (scan : Scan) :
    (store.backing.folder? = none ∧ ∃ error, store.index scan = (.error error, store)) ∨
      ∃ folder, store.backing = .directory (some folder) ∧
        ((scan = .whole ∧ store.index scan =
            (.ok (store.indexEntries folder).1, (store.indexEntries folder).2)) ∨
          ∃ count, scan = .broken count ∧ store.index scan =
            (.error .unusable, (store.indexEntries (folder.take count)).2)) := by
  cases hbacking : store.backing with
  | memory => exact .inl ⟨rfl, _, by rw [index, hbacking]⟩
  | directory there =>
      cases there with
      | none => exact .inl ⟨rfl, _, by rw [index, hbacking]⟩
      | some folder =>
          refine .inr ⟨folder, rfl, ?_⟩
          cases scan with
          | whole => exact .inl ⟨rfl, index_whole hbacking⟩
          | broken count => exact .inr ⟨count, rfl, index_broken hbacking count⟩

/-- However an index ends, it has taken up entries of the folder from the first on. -/
theorem exists_index (store : Store) (scan : Scan) :
    ∃ entries, entries <+: store.backing.folder?.getD [] ∧
      (store.index scan).2 = (store.indexEntries entries).2 := by
  obtain ⟨-, error, hindex⟩ | ⟨folder, hbacking, ⟨-, hindex⟩ | ⟨count, -, hindex⟩⟩ :=
    store.index_cases scan
  · exact ⟨[], List.nil_prefix, congrArg Prod.snd hindex⟩
  · rw [hbacking]
    exact ⟨folder, List.prefix_rfl, congrArg Prod.snd hindex⟩
  · rw [hbacking]
    exact ⟨_, List.take_prefix count folder, congrArg Prod.snd hindex⟩

end

/-- The file of an unknown snapshot is taken up. -/
theorem indexEntry_file (hread : state.Readable) (hnew : store.metadata? id = none) :
    store.indexEntry id.fileName ⟨.text state.text, moment⟩ =
      some (store.taking id state id.fileName moment) :=
  indexEntry_eq_some.mpr ⟨id, state, SnapshotId.ofFileName?_fileName id, hnew, hread, rfl⟩

/-- What a store leaves behind when it takes up a listing of files: it knows their snapshots, and
of others what it knew before. -/
structure TakesUp (store indexed : Store) (listing : Folder) : Prop where
  backing : indexed.backing = store.backing
  knows : ∀ id state, SnapshotId.file id state ∈ listing.contents → state.Readable →
    indexed.Knows id state
  states : ∀ id, id.fileName ∉ Keyed.keys listing →
    indexed.states.lookup id = store.states.lookup id
  metadata : ∀ id, id.fileName ∉ Keyed.keys listing → indexed.metadata? id = store.metadata? id

/-- The snapshot in the first file is not overwritten by a later one. -/
theorem TakesUp.cons {rest : Folder} (hread : state.Readable)
    (hfresh : id.fileName ∉ Keyed.keys rest)
    (h : (store.taking id state id.fileName moment).TakesUp indexed rest) :
    store.TakesUp indexed ((id.fileName, ⟨.text state.text, moment⟩) :: rest) := by
  have hother : ∀ other : SnapshotId, other.fileName ∉ Keyed.keys
      ((id.fileName, ⟨.text state.text, moment⟩) :: rest : Folder) →
      other ≠ id ∧ other.fileName ∉ Keyed.keys rest := by
    intro other hmem
    obtain ⟨hne, hmem⟩ := not_or.mp (mt List.mem_cons.mpr hmem)
    exact ⟨fun heq ↦ hne (congrArg SnapshotId.fileName heq), hmem⟩
  refine ⟨h.backing, ?_, ?_, ?_⟩
  · intro other otherState hmem hother
    rw [Folder.contents_cons] at hmem
    rcases List.mem_cons.mp hmem with hfirst | hmem
    · obtain ⟨rfl, rfl⟩ := SnapshotId.file_inj hother hread hfirst
      obtain ⟨hheld, moment, hrecorded⟩ := @knows_taking store other otherState moment
      exact ⟨(h.states other hfresh).trans hheld, moment,
        (h.metadata other hfresh).trans hrecorded⟩
    · exact h.knows other otherState hmem hother
  · intro other hmem
    obtain ⟨hne, hmem⟩ := hother other hmem
    exact (h.states other hmem).trans (states_taking_ne hne)
  · intro other hmem
    obtain ⟨hne, hmem⟩ := hother other hmem
    exact (h.metadata other hmem).trans (metadata?_taking_ne hne)

/-- A listing of files of unknown snapshots, no two of one name, is taken up as a whole. -/
theorem indexEntries_files {listing : Folder}
    (hfiles : ∀ entry ∈ listing.contents, ∃ id state, entry = SnapshotId.file id state ∧
      state.Readable ∧ store.metadata? id = none)
    (hnames : (Keyed.keys listing).Nodup) :
    ∃ indexed, store.indexEntries listing = (listing.length, indexed) ∧
      store.TakesUp indexed listing := by
  induction listing generalizing store with
  | nil =>
      exact ⟨store, rfl, rfl, fun _ _ h ↦ absurd h List.not_mem_nil, fun _ _ ↦ rfl, fun _ _ ↦ rfl⟩
  | cons entry rest ih =>
      obtain ⟨name, content, moment⟩ := entry
      rw [Folder.contents_cons] at hfiles
      obtain ⟨⟨id, state, hfile, hread, hnew⟩, hrest⟩ := List.forall_mem_cons.mp hfiles
      obtain ⟨rfl, rfl⟩ := Prod.mk.inj hfile
      obtain ⟨hfresh, hnames⟩ := List.nodup_cons.mp hnames
      -- The later files have other names, so that their snapshots are still unknown.
      have hlater : ∀ entry ∈ Folder.contents rest, ∃ other later,
          entry = SnapshotId.file other later ∧ later.Readable ∧
            (store.taking id state id.fileName moment).metadata? other = none := by
        intro entry hentry
        obtain ⟨other, later, rfl, hlater, hnew⟩ := hrest entry hentry
        have hne : other ≠ id := by
          rintro rfl
          exact hfresh (SnapshotId.fileName_mem_keys hentry)
        exact ⟨other, later, rfl, hlater, (metadata?_taking_ne hne).trans hnew⟩
      obtain ⟨indexed, hindexed, htakes⟩ := ih hlater hnames
      refine ⟨indexed, ?_, htakes.cons hread hfresh⟩
      rw [indexEntries, indexEntry_file hread hnew]
      simp only [hindexed, List.length_cons]

end Store

end Chronicle

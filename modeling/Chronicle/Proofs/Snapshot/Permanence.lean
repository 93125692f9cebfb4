import Chronicle.Proofs.Snapshot.Durability

/-!
# Known snapshots

Others may change the directory of a store between any two calls. The store knows a snapshot from
the moment when it saves it, or takes it up from a file, until the next clear, and `Store.permanent`
says that all this time it answers with one state and one record, whatever becomes of the file. No
identifier is given out twice. This needs that nobody leaves a file with the identifier of a
snapshot that is yet to be saved.
-/

namespace Chronicle

/-- What happens to a store: a call, or a change of its directory by others. -/
inductive Step where
  | call (c : Call)
  | disturb (change : Nat → Option Folder → Option Folder)

/-- The states that steps save, in order. -/
def Step.saves : List Step → List GameState
  | [] => []
  | .call c :: rest => Call.saves [c] ++ saves rest
  | .disturb _ :: rest => saves rest

theorem Step.saves_cons (step : Step) (rest : List Step) :
    saves (step :: rest) = saves [step] ++ saves rest := by
  cases step with
  | call c => simp [saves]
  | disturb change => rfl

namespace Store

/-- Lets one step happen, and logs what it saves. -/
def act (store : Store) : Step → List Saved × Store
  | .call c => store.perform c
  | .disturb change => ([], store.disturb change)

/-- Lets steps happen one after another, and logs what they save. -/
def live (store : Store) : List Step → List Saved × Store
  | [] => ([], store)
  | step :: rest =>
    let (saved, store) := store.act step
    let (more, store) := store.live rest
    (saved ++ more, store)

/-- No file in the directory has the identifier. -/
def FreeOf (store : Store) (id : SnapshotId) : Prop :=
  ∀ entry ∈ store.backing.folder?.getD [], entry.2.entry ≠ .folder →
    SnapshotId.ofFileName? entry.1 ≠ some id

/-- No file in the directory has the identifier of a snapshot that the steps save. -/
def FreeFor (store : Store) (steps : List Step) : Prop :=
  ∀ saved ∈ (store.live steps).1, store.FreeOf saved.id

/-- Others never leave a file with the identifier of a snapshot that is saved later. -/
def Undisputed (store : Store) : List Step → Prop
  | [] => True
  | .call c :: rest => (store.perform c).2.Undisputed rest
  | .disturb change :: rest =>
    (store.disturb change).FreeFor rest ∧ (store.disturb change).Undisputed rest

instance (store : Store) (id : SnapshotId) : Decidable (store.FreeOf id) :=
  inferInstanceAs (Decidable (∀ entry ∈ store.backing.folder?.getD [],
    entry.2.entry ≠ .folder → SnapshotId.ofFileName? entry.1 ≠ some id))

instance (store : Store) (steps : List Step) : Decidable (store.FreeFor steps) :=
  inferInstanceAs (Decidable (∀ saved ∈ (store.live steps).1, store.FreeOf saved.id))

instance decidableUndisputed : (store : Store) → (steps : List Step) →
    Decidable (store.Undisputed steps)
  | _, [] => isTrue trivial
  | store, .call c :: rest => decidableUndisputed (store.perform c).2 rest
  | store, .disturb change :: rest =>
    @instDecidableAnd _ _ inferInstance (decidableUndisputed (store.disturb change) rest)

/-- The state and the record of a snapshot that the store answers with. -/
structure Answers (store : Store) (id : SnapshotId) (state : GameState) (m : SnapshotMetadata) :
    Prop where
  state : (store.restore id).1 = some state
  metadata : store.metadata? id = some m

/-- A file in the directory has the state of a snapshot, of which the record is then known. -/
def Finds (store : Store) (id : SnapshotId) (state : GameState) (m : SnapshotMetadata) : Prop :=
  ∃ entry ∈ store.backing.folder?.getD [], SnapshotId.ofFileName? entry.1 = some id ∧
    entry.2.entry.text?.bind GameState.ofText? = some state ∧
    m = .ofState id state (some entry.1) entry.2.modified

variable {store after : Store} {salt : Uuid} {log : List Saved} {id : SnapshotId}
  {state : GameState} {m : SnapshotMetadata}

/-! ### Identifiers -/

/-- A step adds to the log. -/
theorem Numbered.act {step : Step} (h : store.Numbered salt log)
    (hroom : log.length + (Step.saves [step]).length ≤ lastSequence + 1) :
    (store.act step).1.map (·.state) = Step.saves [step] ∧
      (store.act step).2.Numbered salt (log ++ (store.act step).1) := by
  cases step with
  | disturb change =>
      have hagrees : (store.disturb change).salt = store.salt ∧
          (store.disturb change).sequence = store.sequence := by
        rw [disturb]
        cases store.backing <;> exact ⟨rfl, rfl⟩
      refine ⟨rfl, hagrees.1.trans h.salt_eq, ?_, ?_⟩
      · rw [Store.act, List.append_nil]
        exact hagrees.2.trans h.sequence_eq
      · rw [Store.act, List.append_nil]
        exact h.ids_eq
  | call c =>
      rcases c.quiet_or_save with hquiet | ⟨state, rfl⟩
      · obtain ⟨hnone, hagrees⟩ := @perform_quiet store c hquiet
        rw [Store.act, hnone, Step.saves, hquiet, List.append_nil]
        exact ⟨rfl, hagrees.numbered h⟩
      · exact ⟨rfl, h.save (Nat.le_of_succ_le_succ hroom) state⟩

/-- Steps one after another add to the log. -/
theorem Numbered.live {steps : List Step} (h : store.Numbered salt log)
    (hroom : log.length + (Step.saves steps).length ≤ lastSequence + 1) :
    (store.live steps).1.map (·.state) = Step.saves steps ∧
      (store.live steps).2.Numbered salt (log ++ (store.live steps).1) := by
  induction steps generalizing store log with
  | nil => exact ⟨rfl, by rwa [Store.live, List.append_nil]⟩
  | cons step rest ih =>
      rw [Step.saves_cons, List.length_append] at hroom
      obtain ⟨hstates, hnumbered⟩ := @Numbered.act store salt log step h (by omega)
      have hlength : (store.act step).1.length = (Step.saves [step]).length := by
        rw [← hstates, List.length_map]
      obtain ⟨hmore, hend⟩ := ih hnumbered (by rw [List.length_append]; omega)
      rw [Store.live, Step.saves_cons, List.map_append, hstates, hmore, ← List.append_assoc]
      exact ⟨rfl, hend⟩

/-! ### What a step leaves as it is -/

/-- The store has the state of a snapshot in memory, and its record. -/
structure Holds (store : Store) (id : SnapshotId) (state : GameState) (m : SnapshotMetadata) :
    Prop where
  held : store.states.lookup id = some state
  recorded : store.metadata? id = some m

theorem Holds.answers (h : store.Holds id state m) : store.Answers id state m :=
  ⟨by rw [restore, h.held], h.recorded⟩

/-- The store has the state of every snapshot that it knows in memory. -/
def Sound (store : Store) : Prop :=
  ∀ id m, store.metadata? id = some m → ∃ state, store.Holds id state m

theorem Answers.holds (h : store.Answers id state m) (hsound : store.Sound) :
    store.Holds id state m := by
  obtain ⟨found, hfound⟩ := hsound id m h.metadata
  have hsame : some found = some state := by
    rw [← hfound.answers.state]
    exact h.state
  cases hsame
  exact hfound

/-- A store knows afterwards what it knew before, and of other snapshots only what is said. -/
structure Keeps (store after : Store)
    (new : SnapshotId → GameState → SnapshotMetadata → Prop) : Prop where
  keeps : ∀ id state m, store.Holds id state m → after.Holds id state m
  fresh : ∀ id m, store.metadata? id = none → after.metadata? id = some m →
    ∃ state, new id state m ∧ after.Holds id state m

section

variable {new : SnapshotId → GameState → SnapshotMetadata → Prop}

theorem Keeps.refl (store : Store) : store.Keeps store new :=
  ⟨fun _ _ _ h ↦ h, fun _ _ hnone hsome ↦ by rw [hnone] at hsome; cases hsome⟩

theorem Keeps.trans {mid : Store} (h : store.Keeps mid new) (hmid : mid.Keeps after new) :
    store.Keeps after new := by
  refine ⟨fun id state m hholds ↦ hmid.keeps id state m (h.keeps id state m hholds), ?_⟩
  intro id m hnone hsome
  cases hknown : mid.metadata? id with
  | none => exact hmid.fresh id m hknown hsome
  | some found =>
      obtain ⟨state, hnew, hholds⟩ := h.fresh id found hnone hknown
      have hafter := hmid.keeps id state found hholds
      rw [hafter.recorded] at hsome
      cases hsome
      exact ⟨state, hnew, hafter⟩

theorem Keeps.sound (h : store.Keeps after new) (hsound : store.Sound) : after.Sound := by
  intro id m hm
  cases hknown : store.metadata? id with
  | none =>
      obtain ⟨state, -, hholds⟩ := h.fresh id m hknown hm
      exact ⟨state, hholds⟩
  | some found =>
      obtain ⟨state, hholds⟩ := hsound id found hknown
      have hafter := h.keeps id state found hholds
      rw [hafter.recorded] at hm
      cases hm
      exact ⟨state, hafter⟩

theorem Keeps.metadata?_eq_none (h : store.Keeps after new) (hnone : store.metadata? id = none)
    (hnew : ∀ state m, ¬ new id state m) : after.metadata? id = none := by
  rw [Option.eq_none_iff_forall_ne_some]
  intro m hm
  obtain ⟨state, hstate, -⟩ := h.fresh id m hnone hm
  exact hnew state m hstate

/-- Nothing makes way for a snapshot that was not known. -/
theorem keeps_taking {name : Option String} {moment : Nat} (hnew : store.metadata? id = none)
    (h : new id state (.ofState id state name moment))
    (hstates : after.states = Keyed.insert id state store.states)
    (hmetadata : after.metadata =
      Keyed.insert id (.ofState id state name moment) store.metadata) : store.Keeps after new := by
  have hlookup : ∀ other, after.metadata? other =
      if other = id then some (.ofState id state name moment) else store.metadata? other := by
    intro other
    rw [metadata?, hmetadata, Keyed.lookup_insert]
    rfl
  refine ⟨fun other held m hholds ↦ ?_, fun other m hnone hsome ↦ ?_⟩
  · have hne : other ≠ id := by
      rintro rfl
      rw [hholds.recorded] at hnew
      cases hnew
    refine ⟨?_, ?_⟩
    · rw [hstates, Keyed.lookup_insert, if_neg hne]
      exact hholds.held
    · rw [hlookup, if_neg hne]
      exact hholds.recorded
  · rw [hlookup] at hsome
    split at hsome
    · next heq =>
        cases hsome
        subst heq
        refine ⟨state, h, ?_, ?_⟩
        · rw [hstates, Keyed.lookup_insert, if_pos rfl]
        · rw [hlookup, if_pos rfl]
    · rw [hnone] at hsome
      cases hsome

/-- Nothing is lost where the records stay and states only come in. -/
theorem keeps_of_states (hmetadata : ∀ id, after.metadata? id = store.metadata? id)
    (hstates : ∀ id state, store.states.lookup id = some state →
      after.states.lookup id = some state) : store.Keeps after new := by
  refine ⟨fun id state m hholds ↦ ⟨hstates id state hholds.held, ?_⟩, fun id m hnone hsome ↦ ?_⟩
  · rw [hmetadata]
    exact hholds.recorded
  · rw [hmetadata, hnone] at hsome
    cases hsome

/-- What is restored from a file does not take the place of anything. -/
theorem keeps_restore (id : SnapshotId) : store.Keeps (store.restore id).2 new := by
  unfold restore
  split
  · exact .refl store
  · next hnone =>
      split
      · next found _ =>
          refine keeps_of_states (fun _ ↦ rfl) fun other state hother ↦ ?_
          have hne : other ≠ id := by
            rintro rfl
            rw [hnone] at hother
            cases hother
          rw [Keyed.lookup_insert, if_neg hne]
          exact hother
      · exact .refl store

/-- What is taken up from files does not take the place of anything. -/
theorem keeps_indexEntries {listing : Folder}
    (h : ∀ entry ∈ listing, ∀ id state, SnapshotId.ofFileName? entry.1 = some id →
      entry.2.entry.text?.bind GameState.ofText? = some state →
        new id state (.ofState id state (some entry.1) entry.2.modified)) :
    store.Keeps (store.indexEntries listing).2 new := by
  refine indexEntries_kept (p := fun after ↦ store.Keeps after new) ?_ (.refl store)
  intro entry hentry before id state hname hnew hstate hkeeps
  exact hkeeps.trans (keeps_taking hnew (h entry hentry id state hname hstate) rfl rfl)

end

theorem keeps_index (scan : Scan) {log : List Saved} :
    store.Keeps (store.index scan).2 fun id state m ↦
      ⟨id, state, some m⟩ ∈ log ∨ store.Finds id state m := by
  obtain ⟨entries, hentries, hindex⟩ := store.exists_index scan
  rw [hindex]
  refine keeps_indexEntries fun entry hentry id state hname hstate ↦ .inr ?_
  exact ⟨entry, hentries.subset hentry, hname, hstate, rfl⟩

/-- Any step but a clear keeps what is known. What becomes known is saved or found in a file. -/
theorem keeps_act {step : Step} (hstep : step ≠ .call .clear)
    (hunknown : ∀ saved ∈ (store.act step).1, store.metadata? saved.id = none) :
    store.Keeps (store.act step).2 fun id state m ↦
      ⟨id, state, some m⟩ ∈ (store.act step).1 ∨ store.Finds id state m := by
  cases step with
  | disturb change =>
      rw [act, disturb]
      cases store.backing with
      | memory => exact .refl store
      | directory folder => exact keeps_of_states (fun _ ↦ rfl) fun _ _ hheld ↦ hheld
  | call c =>
      cases c with
      | save state =>
          have hnew := hunknown _ List.mem_cons_self
          refine keeps_taking hnew (.inl ?_) rfl rfl
          refine List.mem_singleton.mpr (congrArg (Saved.mk _ state) (Eq.symm ?_))
          exact (Keyed.lookup_insert ..).trans (if_pos rfl)
      | restore id => exact keeps_restore id
      | list => exact .refl store
      | index scan => exact keeps_index scan
      | clear => exact absurd rfl hstep

/-! ### What a step leaves to the steps after it -/

/-- A write leaves no other file than its own. -/
theorem mem_write {backing : Backing} {name : String} {cs : List Char} {now : Nat}
    {entry : String × Stamped} (h : entry ∈ (backing.write name cs now).1.folder?.getD []) :
    entry.1 = name ∨ entry ∈ backing.folder?.getD [] := by
  match backing with
  | .memory | .directory none => exact .inr h
  | .directory (some folder) =>
      rw [Backing.write, Folder.write?] at h
      split at h
      · next written hwritten =>
          split at hwritten
          · cases hwritten
          · cases hwritten
            exact (Keyed.mem_insert h).imp_left (congrArg Prod.fst)
      · exact .inr h

theorem FreeOf.not_finds (h : store.FreeOf id) : ¬ store.Finds id state m := by
  rintro ⟨entry, hentry, hname, hread, -⟩
  refine h entry hentry (fun hfolder ↦ ?_) hname
  rw [hfolder] at hread
  cases hread

/-- A call leaves no file but those of the snapshots that it saves. -/
theorem FreeOf.perform {c : Call} (h : store.FreeOf id)
    (hother : ∀ saved ∈ (store.perform c).1, saved.id ≠ id) : (store.perform c).2.FreeOf id := by
  rcases c.quiet_or_save with hquiet | ⟨state, rfl⟩
  · obtain ⟨-, hagrees⟩ := @perform_quiet store c hquiet
    rw [FreeOf, hagrees.backing]
    exact h
  · intro entry hentry hfile
    rcases mem_write hentry with hname | hentry
    · rw [hname, SnapshotId.ofFileName?_fileName]
      exact fun heq ↦ hother _ List.mem_cons_self (Option.some.inj heq)
    · exact h entry hentry hfile

/-- The store can go through the steps: it has the states of what it knows, and neither knows nor
has a file of what the steps save. -/
structure Ready (store : Store) (steps : List Step) : Prop where
  sound : store.Sound
  unknown : ∀ saved ∈ (store.live steps).1, store.metadata? saved.id = none
  free : store.FreeFor steps
  undisputed : store.Undisputed steps
  nodup : ((store.live steps).1.map (·.id)).Nodup

theorem Ready.unknown_act {step : Step} {rest : List Step} (h : store.Ready (step :: rest)) :
    ∀ saved ∈ (store.act step).1, store.metadata? saved.id = none :=
  fun saved hsaved ↦ h.unknown saved (List.mem_append_left _ hsaved)

/-- No identifier is given out both by a step and after it. -/
theorem Ready.nodup_act {step : Step} {rest : List Step} (h : store.Ready (step :: rest)) :
    ((store.act step).1.map (·.id) ++ ((store.act step).2.live rest).1.map (·.id)).Nodup := by
  have hnodup : (((store.act step).1 ++ ((store.act step).2.live rest).1).map (·.id)).Nodup :=
    h.nodup
  rwa [List.map_append] at hnodup

/-- What is saved after a step is new to the store before it and to the step. -/
theorem Ready.later {step : Step} {rest : List Step} (h : store.Ready (step :: rest))
    {saved : Saved} (hsaved : saved ∈ ((store.act step).2.live rest).1) :
    store.metadata? saved.id = none ∧ store.FreeOf saved.id ∧
      ∀ first ∈ (store.act step).1, first.id ≠ saved.id := by
  have hmem : saved ∈ (store.live (step :: rest)).1 := List.mem_append_right _ hsaved
  refine ⟨h.unknown saved hmem, h.free saved hmem, fun first hfirst ↦ ?_⟩
  exact (List.nodup_append.mp h.nodup_act).2.2 _ (List.mem_map_of_mem hfirst) _
    (List.mem_map_of_mem hsaved)

/-- A step leaves the store ready for the steps after it. -/
theorem Ready.act {step : Step} {rest : List Step} (h : store.Ready (step :: rest)) :
    (store.act step).2.Ready rest := by
  refine ⟨?_, ?_, ?_, ?_, (List.nodup_append.mp h.nodup_act).2.1⟩
  · by_cases hclear : step = .call .clear
    · subst hclear
      exact fun _ _ hm ↦ by cases hm
    · exact (keeps_act hclear h.unknown_act).sound h.sound
  · intro saved hsaved
    obtain ⟨hnone, hfree, hne⟩ := h.later hsaved
    by_cases hclear : step = .call .clear
    · subst hclear
      rfl
    · -- What becomes known has another identifier: that of this step, or of a file.
      refine (keeps_act hclear h.unknown_act).metadata?_eq_none hnone fun state m hnew ↦ ?_
      rcases hnew with hfirst | hfound
      · exact hne _ hfirst rfl
      · exact hfree.not_finds hfound
  · intro saved hsaved
    obtain ⟨-, hfree, hne⟩ := h.later hsaved
    cases step with
    | call c => exact hfree.perform hne
    | disturb change => exact h.undisputed.1 saved hsaved
  · cases step with
    | call c => exact h.undisputed
    | disturb change => exact h.undisputed.2

/-- Steps one after another leave the store ready for those that are left. -/
theorem Ready.live {before after : List Step} (h : store.Ready (before ++ after)) :
    (store.live before).2.Ready after := by
  induction before generalizing store with
  | nil => exact h
  | cons step rest ih => exact ih h.act

/-- What is known stays known through any steps but a clear. -/
theorem Holds.live {between rest : List Step} (h : store.Holds id state m)
    (hready : store.Ready (between ++ rest)) (hclear : .call .clear ∉ between) :
    (store.live between).2.Holds id state m := by
  induction between generalizing store with
  | nil => exact h
  | cons step between ih =>
      obtain ⟨hstep, hclear⟩ := not_or.mp (mt List.mem_cons.mpr hclear)
      have hkeeps := keeps_act (Ne.symm hstep) hready.unknown_act
      exact ih (hkeeps.keeps id state m h) hready.act hclear

theorem live_append (before after : List Step) :
    (store.live (before ++ after)).2 = ((store.live before).2.live after).2 := by
  induction before generalizing store with
  | nil => rfl
  | cons step rest ih => exact ih

/-- What is saved is held. -/
theorem holds_save (store : Store) (state : GameState) :
    ∃ m, (store.save state).2.Holds (store.save state).1 state m :=
  ⟨_, (Keyed.lookup_insert ..).trans (if_pos rfl), (Keyed.lookup_insert ..).trans (if_pos rfl)⟩

/-- What is saved is answered with. -/
theorem answers_saved {step : Step} {saved : Saved} (h : saved ∈ (store.act step).1) :
    ∃ m, saved.metadata = some m ∧ (store.act step).2.Answers saved.id saved.state m := by
  cases step with
  | disturb change => exact absurd h List.not_mem_nil
  | call c =>
      rcases c.quiet_or_save with hquiet | ⟨state, rfl⟩
      · rw [act, (perform_quiet hquiet).1] at h
        exact absurd h List.not_mem_nil
      · rw [List.mem_singleton.mp h]
        obtain ⟨m, hholds⟩ := store.holds_save state
        exact ⟨m, hholds.recorded, hholds.answers⟩

/-- What is taken up is found in a file. -/
theorem finds_index {scan : Scan} (hnone : store.metadata? id = none)
    (hsome : (store.act (.call (.index scan))).2.metadata? id = some m) :
    ∃ state, store.Finds id state m ∧ (store.act (.call (.index scan))).2.Answers id state m := by
  have hquiet : (store.act (.call (.index scan))).1 = [] := (perform_quiet rfl).1
  have hkeeps := @keeps_act store (.call (.index scan)) nofun fun saved hsaved ↦
    absurd (hquiet ▸ hsaved) List.not_mem_nil
  obtain ⟨state, hnew, hholds⟩ := hkeeps.fresh id m hnone hsome
  refine ⟨state, hnew.resolve_left fun hsaved ↦ ?_, hholds.answers⟩
  exact absurd (hquiet ▸ hsaved) List.not_mem_nil

/-- Known snapshots are permanent, and no identifier is given out twice: whatever is asked of a
store, and whatever others do to its directory in the meantime, it answers with the state that was
saved or found in a file, and with the record made then, until the next clear. -/
theorem permanent {backing : Backing} {clock : Nat} {steps : List Step}
    (hcount : (Step.saves steps).length < 2 ^ 64)
    (hdistinct : ∀ a ∈ SnapshotId.names (Step.saves steps),
      ∀ b ∈ SnapshotId.names (Step.saves steps),
        Uuid.version5 salt a = Uuid.version5 salt b → a = b)
    (hfree : (fresh backing salt clock).FreeFor steps)
    (hundisputed : (fresh backing salt clock).Undisputed steps) :
    let start := fresh backing salt clock
    ((start.live steps).1.map (·.state) = Step.saves steps ∧
      ((start.live steps).1.map (·.id)).Nodup) ∧
    (∀ before step rest, steps = before ++ step :: rest →
      let store := (start.live before).2
      let after := (store.act step).2
      (∀ saved ∈ (store.act step).1, ∃ m, saved.metadata = some m ∧
        after.Answers saved.id saved.state m) ∧
      (∀ scan, step = .call (.index scan) → ∀ id m, store.metadata? id = none →
        after.metadata? id = some m →
          ∃ state, store.Finds id state m ∧ after.Answers id state m)) ∧
    ∀ before between rest, steps = before ++ between ++ rest → .call .clear ∉ between →
      ∀ id state m, (start.live before).2.Answers id state m →
        (start.live (before ++ between)).2.Answers id state m := by
  intro start
  have hroom : ([] : List Saved).length + (Step.saves steps).length ≤ lastSequence + 1 := by
    rw [List.length_nil, Nat.zero_add]
    exact Nat.le_of_lt hcount
  have hfresh : start.Numbered salt [] := numbered_fresh backing clock
  obtain ⟨hstates, hnumbered⟩ := hfresh.live hroom
  have hnodup : ((start.live steps).1.map (·.id)).Nodup := by
    have hids := hnumbered.ids_eq
    rw [List.nil_append, hstates] at hids
    rw [hids]
    exact nodup_ids hdistinct
  have hready : start.Ready steps :=
    ⟨nofun, fun _ _ ↦ rfl, hfree, hundisputed, hnodup⟩
  refine ⟨⟨hstates, hnodup⟩, fun before step rest hsteps ↦ ⟨fun _ ↦ answers_saved, ?_⟩, ?_⟩
  · rintro scan rfl id m
    exact finds_index
  · intro before between rest hsteps hclear id state m hanswers
    rw [hsteps, List.append_assoc] at hready
    have hbetween := hready.live
    rw [live_append]
    exact ((hanswers.holds hbetween.sound).live hbetween hclear).answers

/-- The directory is gone until others make it, with a file in it that is taken up although the
listing fails after it. They spoil that file afterwards, and remove the file of a snapshot. -/
theorem permanent_disturbed :
    let start := fresh (.directory none) ⟨7⟩ 0
    let name := SnapshotId.fileName ⟨5⟩
    let opening := GameState.initial 1 (.zero false)
    let before : List Step :=
      [.disturb fun _ _ ↦ some [(name, ⟨.text GameState.checkpoint.text, 3⟩)],
        .call (.index (.broken 1))]
    let between : List Step :=
      [.call (.save opening), .disturb fun _ _ ↦ some [(name, ⟨.binary, 4⟩)],
        .call (.index .whole), .call (.restore ⟨5⟩)]
    let rest : List Step := [.call .clear, .call (.save opening)]
    ((start.live (before ++ between ++ rest)).1.map (·.id)).Nodup ∧
      ∃ m, (start.live before).2.Answers ⟨5⟩ .checkpoint m ∧
        (start.live (before ++ between)).2.Answers ⟨5⟩ .checkpoint m := by
  intro start name opening before between rest
  have hdistinct : ∀ a ∈ SnapshotId.names [opening, opening],
      ∀ b ∈ SnapshotId.names [opening, opening],
        Uuid.version5 ⟨7⟩ a = Uuid.version5 ⟨7⟩ b → a = b := by decide +kernel
  obtain ⟨hfree, hundisputed, hstate, hmetadata⟩ : start.FreeFor (before ++ between ++ rest) ∧
      start.Undisputed (before ++ between ++ rest) ∧
      ((start.live before).2.restore ⟨5⟩).1 = some .checkpoint ∧
      (start.live before).2.metadata? ⟨5⟩ = some (.ofState ⟨5⟩ .checkpoint (some name) 3) := by
    decide +kernel
  obtain ⟨⟨-, hnodup⟩, -, hstays⟩ :=
    permanent (show (Step.saves (before ++ between ++ rest)).length < 2 ^ 64 by decide) hdistinct
      hfree hundisputed
  have hanswers := Answers.mk hstate hmetadata
  exact ⟨hnodup, _, hanswers, hstays before between rest rfl (by simp [between]) _ _ _ hanswers⟩

end Store

end Chronicle

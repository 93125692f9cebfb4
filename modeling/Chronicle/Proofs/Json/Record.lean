import Chronicle.Proofs.Json.Found

/-!
# Records that lose nothing

A record is stable if its fields are and if what stands in for a missing field is restored:
`Codec.stable_record`. Two things are followed through a description, field by field. `RebuildsAt`
says of a record that all its fields are restored, so that they pass their checks and build it
again. `Recovers` says of reading that it ends in such a record; since a description builds a
function first, which takes the fields one after another, it is only known at the end which record
that is, and `Recovers` collects what the record has to be.
-/

namespace Chronicle.Json

namespace Fields

variable {σ α β : Type} {f : Fields σ α} {inner : Origin} {s : σ}

/-- No field has a name under which an earlier one is found. -/
def Distinct (f : Fields σ α) : Prop :=
  f.fields.Pairwise fun a b ↦ a.name ≠ b.name ∧ b.name ∉ a.aliases

instance (f : Fields σ α) : Decidable f.Distinct :=
  inferInstanceAs (Decidable (f.fields.Pairwise fun a b ↦ a.name ≠ b.name ∧ b.name ∉ a.aliases))

/-- The fields of a record are restored, and build the given result. -/
structure RebuildsAt (f : Fields σ α) (inner : Origin) (s : σ) (a : α) : Prop where
  fits : ∀ field ∈ f.fields, (Node.ofValue (field.write s)).IntsFit
  checks : ∀ field ∈ f.fields, field.check inner (.ofValue (field.write s)) = .ok ()
  builds : ∀ found : Found.Fields, found.origin = inner →
    (∀ field ∈ f.fields, found.present.lookup field.name = some (.ofValue (field.write s))) →
    f.build found = .ok a

theorem rebuildsAt_pure (a : α) : (pure a : Fields σ α).RebuildsAt inner s a :=
  ⟨by simp [pure], by simp [pure], fun _ _ _ ↦ rfl⟩

/-- A field that is restored adds its value. -/
theorem RebuildsAt.and_field {f : Fields σ (α → β)} {g : α → β} (h : f.RebuildsAt inner s g)
    {name : String} {codec : Codec α} {get : σ → α} (hx : codec.Restores inner (get s))
    {absent : Found.Fields → Except ReadError α} {aliases : List String} :
    (f.and (field name codec get absent aliases)).RebuildsAt inner s (g (get s)) := by
  have hcheck : discard (codec.read inner (.ofValue (codec.write (get s)))) = .ok () := by
    rw [hx.reads]
    rfl
  refine ⟨?_, ?_, ?_⟩
  · simp only [and, List.forall_mem_append]
    exact ⟨h.fits, by simpa [field] using hx.fits⟩
  · simp only [and, List.forall_mem_append]
    exact ⟨h.checks, by simpa [field] using hcheck⟩
  · intro found horigin hpresent
    simp only [and, List.forall_mem_append] at hpresent
    obtain ⟨hbefore, hlast⟩ := hpresent
    have hlookup : found.present.lookup name = some (.ofValue (codec.write (get s))) :=
      hlast _ List.mem_cons_self
    have hread : (field name codec get absent aliases).build found = .ok (get s) := by
      simp only [field, hlookup, horigin]
      exact hx.reads
    simp only [and, h.builds found horigin hbefore, hread, ok_bind]

/-- What is built satisfies the predicate, which may ask of a record that it has the values that
were read; a record that has them is rebuilt. -/
def Recovers (f : Fields σ α) (inner : Origin) (Q : α → (σ → Prop) → Prop) : Prop :=
  ∀ found a, found.origin = inner → (∀ entry ∈ found.present, entry.2.IntsFit) →
    f.build found = .ok a → ∃ C, Q a C ∧ ∀ s, C s → f.RebuildsAt inner s a

theorem recovers_pure {a : α} {Q : α → (σ → Prop) → Prop} (h : Q a fun _ ↦ True) :
    (pure a).Recovers inner Q := by
  intro found b _ _ hbuild
  cases hbuild
  exact ⟨_, h, fun s _ ↦ rebuildsAt_pure a⟩

/-- A field that is restored wherever it comes from adds its value. -/
theorem Recovers.and_field {f : Fields σ (α → β)} {Q : β → (σ → Prop) → Prop} {name : String}
    {codec : Codec α} {get : σ → α} {absent : Found.Fields → Except ReadError α}
    {aliases : List String} (hcodec : codec.Stable inner)
    (habsent : ∀ found x, absent found = .ok x → codec.Restores inner x)
    (h : f.Recovers inner fun g C ↦ ∀ x, Q (g x) fun s ↦ C s ∧ get s = x) :
    (f.and (field name codec get absent aliases)).Recovers inner Q := by
  intro found b horigin hfit hbuild
  obtain ⟨g, hg, hbuild⟩ := bind_eq_ok.mp hbuild
  obtain ⟨x, hx, heq⟩ := bind_eq_ok.mp hbuild
  cases heq
  obtain ⟨C, hQ, hrebuilds⟩ := h found g horigin hfit hg
  have hrestores : codec.Restores inner x := by
    simp only [field] at hx
    split at hx
    · next node hnode =>
        obtain ⟨before, after, hsplit, _⟩ := List.lookup_eq_some_iff.mp hnode
        have hmem : (name, node) ∈ found.present := by
          rw [hsplit]
          simp
        exact hcodec node x (hfit _ hmem) (horigin ▸ hx)
    · exact habsent found x hx
  -- The field adds to what the record has to be: that its value is the one that was read.
  refine ⟨_, hQ x, fun s hs ↦ ?_⟩
  obtain ⟨hC, rfl⟩ := hs
  exact (hrebuilds s hC).and_field hrestores

/-- A field whose codec is faithful. -/
theorem Recovers.faithful {f : Fields σ (α → β)} {Q : β → (σ → Prop) → Prop} {name : String}
    {codec : Codec α} {get : σ → α} {absent : Found.Fields → Except ReadError α}
    {aliases : List String} (hcodec : codec.Faithful inner)
    (h : f.Recovers inner fun g C ↦ ∀ x, Q (g x) fun s ↦ C s ∧ get s = x) :
    (f.and (field name codec get absent aliases)).Recovers inner Q :=
  .and_field hcodec.stable (fun _ x _ ↦ hcodec x) h

/-- A field that must be there. -/
theorem Recovers.required {f : Fields σ (α → β)} {Q : β → (σ → Prop) → Prop} {name : String}
    {codec : Codec α} {get : σ → α} {aliases : List String} (hcodec : codec.Stable inner)
    (h : f.Recovers inner fun g C ↦ ∀ x, Q (g x) fun s ↦ C s ∧ get s = x) :
    (f.required name codec get aliases).Recovers inner Q :=
  .and_field hcodec (fun _ _ hx ↦ by cases hx) h

/-- A field that may be left out. -/
theorem Recovers.optional {f : Fields σ (α → β)} {Q : β → (σ → Prop) → Prop} {name : String}
    {codec : Codec α} {get : σ → α} {default : α} {aliases : List String}
    (hcodec : codec.Stable inner) (hdefault : codec.Restores inner default)
    (h : f.Recovers inner fun g C ↦ ∀ x, Q (g x) fun s ↦ C s ∧ get s = x) :
    (f.optional name codec get default aliases).Recovers inner Q :=
  .and_field hcodec (fun _ _ hx ↦ by cases hx; exact hdefault) h

/-! ### Documents for records -/

/-- A field is found under its name. -/
theorem Distinct.find? (h : f.Distinct) {before after : List (Field σ)} {field : Field σ}
    (hsplit : f.fields = before ++ field :: after) : f.find? field.name = some field := by
  rw [Distinct, hsplit, List.pairwise_append] at h
  have hbefore : ∀ other ∈ before,
      ¬ (other.name == field.name || other.aliases.contains field.name) = true := by
    intro other hother
    obtain ⟨hname, halias⟩ := h.2.2 other hother field List.mem_cons_self
    simp [hname, halias]
  rw [Fields.find?, hsplit, List.find?_append, List.find?_eq_none.mpr hbefore]
  simp

/-- What a document for the record has of a field. -/
def entry (s : σ) (field : Field σ) : String × Node := (field.name, .ofValue (field.write s))

theorem Distinct.lookup_entry_eq_none (h : f.Distinct) {before after : List (Field σ)}
    {field : Field σ} (hsplit : f.fields = before ++ field :: after) :
    (before.map (entry s)).lookup field.name = none := by
  rw [Distinct, hsplit, List.pairwise_append] at h
  rw [List.lookup_eq_none_iff]
  intro found hfound
  obtain ⟨other, hother, rfl⟩ := List.mem_map.mp hfound
  exact bne_iff_ne.mpr (h.2.2 other hother field List.mem_cons_self).1.symm

theorem Distinct.lookup_entry (h : f.Distinct) {field : Field σ} (hfield : field ∈ f.fields) :
    (f.fields.map (entry s)).lookup field.name = some (.ofValue (field.write s)) := by
  obtain ⟨before, after, hsplit⟩ := List.append_of_mem hfield
  rw [hsplit, List.map_append, List.lookup_append, h.lookup_entry_eq_none hsplit]
  simp [entry]

/-- The members that a record is written with are found in order. -/
theorem scanMembers_written (hdistinct : f.Distinct)
    (hchecks : ∀ field ∈ f.fields, field.check inner (.ofValue (field.write s)) = .ok ())
    {before after : List (Field σ)} (hsplit : f.fields = before ++ after) :
    f.scanMembers inner (before.map (entry s))
        (Node.ofMembers (after.map fun field ↦ (field.name, field.write s))) =
      .ok (f.fields.map (entry s)) := by
  induction after generalizing before with
  | nil =>
      rw [hsplit, List.append_nil]
      rfl
  | cons field after ih =>
      have hcheck := hchecks field (by rw [hsplit]; simp)
      have hnext := @ih (before ++ [field]) (by rw [hsplit, List.append_cons])
      rw [List.map_append, List.map_singleton] at hnext
      simp only [List.map_cons, Node.ofMembers, scanMembers, hdistinct.find? hsplit,
        hdistinct.lookup_entry_eq_none hsplit, hcheck]
      exact hnext

/-- The fields that are found in a text have only integers that fit. -/
theorem Holds.intsFit {node : Node} {present : List (String × Node)} (h : f.Holds node present)
    (hfit : node.IntsFit) : ∀ entry ∈ present, entry.2.IntsFit := by
  intro entry hentry
  cases h with
  | object members stop =>
      obtain ⟨m, hm, heq⟩ := mem_of_mem_held hentry
      rw [heq]
      exact membersFit_iff.mp hfit m hm
  | list items stop => exact itemsFit_iff.mp hfit entry.2 (List.of_mem_zip hentry).2

end Fields

namespace Codec

variable {α : Type} {f : Fields α α} {origin : Origin}

/-- A record is restored if its fields are, one level deeper. -/
theorem restores_record (name : String) (hdistinct : f.Distinct) {inner : Origin}
    (henter : origin.enter = .ok inner) {a : α} (h : f.RebuildsAt inner a a) :
    (record name f).Restores origin a := by
  refine ⟨?_, ?_⟩
  · show MembersFit (Node.ofMembers (f.fields.map fun field ↦ (field.name, field.write a)))
    rw [membersFit_iff, Node.ofMembers_eq_map, List.map_map]
    intro node hnode
    obtain ⟨field, hfield, rfl⟩ := List.mem_map.mp hnode
    exact h.fits field hfield
  · have hscan := Fields.scanMembers_written hdistinct h.checks (List.nil_append f.fields).symm
    have hbuild := h.builds
      ⟨inner, f.fields.map (Fields.entry a), fun field ↦ .shape (.missingField field)⟩ rfl
      fun field hfield ↦ hdistinct.lookup_entry hfield
    show (origin.enter >>= fun inner ↦
      f.scanMembers inner [] (Node.ofMembers (f.members a)) >>= fun present ↦
        closing none >>= fun _ ↦
          f.build ⟨inner, present, fun field ↦ .shape (.missingField field)⟩) = _
    rw [henter, ok_bind]
    rw [show f.scanMembers inner [] (Node.ofMembers (f.members a)) = _ from hscan, ok_bind]
    exact hbuild

/-- A record that is read from a text is built from fields with integers that fit. -/
theorem exists_build {name : String} {node : Node} {a : α} (hfit : node.IntsFit)
    (hread : (record name f).read origin node = .ok a) :
    ∃ inner found, origin.enter = .ok inner ∧ found.origin = inner ∧
      (∀ entry ∈ found.present, entry.2.IntsFit) ∧ f.build found = .ok a := by
  obtain ⟨inner, found, henter, horigin, hholds, hbuild⟩ := exists_found hread
  exact ⟨inner, found, henter, horigin, hholds.intsFit hfit, hbuild⟩

/-- A record that is read is restored if its description recovers it. -/
theorem stable_record (name : String) (hdistinct : f.Distinct)
    (h : ∀ inner, origin.enter = .ok inner → f.Recovers inner fun a C ↦ C a) :
    (record name f).Stable origin := by
  intro node a hfit hread
  obtain ⟨inner, found, henter, horigin, hpresent, hbuild⟩ := exists_build hfit hread
  obtain ⟨C, hC, hrebuilds⟩ := h inner henter found a horigin hpresent hbuild
  exact restores_record name hdistinct henter (hrebuilds a hC)

end Codec

end Chronicle.Json

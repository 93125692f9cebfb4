import Chronicle.Proofs.Json.Codec
import Chronicle.Proofs.Uuid
import Chronicle.State.Basic

/-!
# Parts of states in documents

Identifiers, kinds, and tallies are restored whatever they are. A tally is written in the order of
its names, so that reading it puts every count behind those before it.
-/

namespace Chronicle

open Json Codec

variable {origin inner : Origin}

theorem SnapshotId.faithful_codec : SnapshotId.codec.Faithful origin := by
  intro id
  refine ⟨trivial, ?_⟩
  simp only [codec, Node.ofValue, String.toList_ofList, Uuid.parse?_hyphenated]

theorem SnapshotKind.faithful_codec : SnapshotKind.codec.Faithful origin :=
  faithful_variant fun kind ↦ by cases kind <;> rfl

/-! ### Tallies -/

namespace Tally

/-- A name behind all others is put at the end. -/
theorem place_append {name : String} {count : Int64} {entries : List (String × Int64)}
    (h : ∀ entry ∈ entries, entry.1 < name) :
    place name count entries = entries ++ [(name, count)] := by
  induction entries with
  | nil => rfl
  | cons entry rest ih =>
      obtain ⟨hentry, hrest⟩ := List.forall_mem_cons.mp h
      rw [place, if_neg (String.lt_asymm hentry), if_neg (String.ne_of_lt hentry).symm, ih hrest]
      rfl

/-- The counts behind those that are read already are read in order. -/
theorem readMembers_written {tally whole : Tally} {more : List (String × Int64)}
    (h : tally.entries ++ more = whole.entries) :
    readMembers origin tally (Node.ofMembers (more.map fun entry ↦
      (entry.1, int64.write entry.2))) = .ok whole := by
  induction more generalizing tally with
  | nil =>
      obtain ⟨entries, hsorted⟩ := tally
      obtain ⟨entries', hsorted'⟩ := whole
      rw [List.append_nil] at h
      cases h
      rfl
  | cons entry rest ih =>
      obtain ⟨name, count⟩ := entry
      have hsorted := whole.sorted
      rw [← h, List.pairwise_append] at hsorted
      -- The whole tally is sorted, so that this name is behind those that are read already.
      have hplace : place name count tally.entries = tally.entries ++ [(name, count)] :=
        place_append fun entry hentry ↦ hsorted.2.2 entry hentry (name, count) List.mem_cons_self
      rw [List.map_cons, Node.ofMembers, readMembers, (faithful_int64 count).reads, ok_bind]
      refine ih ?_
      show place name count tally.entries ++ rest = whole.entries
      rw [hplace, ← List.append_cons, h]

theorem faithful_codec (hallows : origin.Allows 1) : codec.Faithful origin := by
  intro tally
  obtain ⟨inner, henter, _⟩ := hallows.enter
  refine ⟨?_, ?_⟩
  · show MembersFit (Node.ofMembers (tally.entries.map fun entry ↦
      (entry.1, int64.write entry.2)))
    rw [membersFit_iff, Node.ofMembers_eq_map, List.map_map]
    intro node hnode
    obtain ⟨entry, _, rfl⟩ := List.mem_map.mp hnode
    exact (faithful_int64 entry.2 : int64.Restores inner entry.2).fits
  · show (origin.enter >>= fun inner ↦
      readMembers inner empty (Node.ofMembers (tally.entries.map fun entry ↦
        (entry.1, int64.write entry.2))) >>= fun tally ↦
          closing none >>= fun _ ↦ Except.ok tally) = _
    rw [henter, ok_bind, readMembers_written (List.nil_append tally.entries)]
    rfl

end Tally

end Chronicle

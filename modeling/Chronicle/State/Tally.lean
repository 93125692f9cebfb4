import Chronicle.Json.Codec

/-!
# Tallies

A tally counts by name: cooldowns by skill, points by node, progress by event. Its entries are
kept in the order of the names, so two tallies with the same counts are the same tally.
-/

namespace Chronicle

/-- Counts by name. -/
structure Tally where
  entries : List (String × Int64)
  sorted : entries.Pairwise fun a b ↦ a.1 < b.1
deriving DecidableEq

namespace Tally

def empty : Tally := ⟨[], .nil⟩

/-- Puts an entry at its place among sorted ones, instead of one with the same name. -/
def place (name : String) (count : Int64) : List (String × Int64) → List (String × Int64)
  | [] => [(name, count)]
  | entry :: rest =>
    if name < entry.1 then (name, count) :: entry :: rest
    else if name = entry.1 then (name, count) :: rest
    else entry :: place name count rest

theorem mem_place {name : String} {count : Int64} {entry : String × Int64}
    {entries : List (String × Int64)} (h : entry ∈ place name count entries) :
    entry = (name, count) ∨ entry ∈ entries := by
  induction entries with
  | nil => simpa [place] using h
  | cons head rest ih =>
      simp only [place] at h
      split at h
      · simpa using h
      · split at h
        · rcases List.mem_cons.mp h with h | h
          · exact .inl h
          · exact .inr (List.mem_cons_of_mem _ h)
        · rcases List.mem_cons.mp h with h | h
          · exact .inr (h ▸ List.mem_cons_self)
          · exact (ih h).imp_right (List.mem_cons_of_mem _)

theorem place_sorted (name : String) (count : Int64) {entries : List (String × Int64)}
    (h : entries.Pairwise fun a b ↦ a.1 < b.1) :
    (place name count entries).Pairwise fun a b ↦ a.1 < b.1 := by
  induction entries with
  | nil => simp [place]
  | cons head rest ih =>
      obtain ⟨hhead, hrest⟩ := List.pairwise_cons.mp h
      simp only [place]
      split
      · next hlt =>
          refine List.pairwise_cons.mpr ⟨fun entry hentry ↦ ?_, h⟩
          rcases List.mem_cons.mp hentry with rfl | hentry
          · exact hlt
          · exact String.lt_trans hlt (hhead entry hentry)
      · next hnlt =>
          split
          · next heq =>
              subst heq
              exact List.pairwise_cons.mpr ⟨hhead, hrest⟩
          · next hne =>
              refine List.pairwise_cons.mpr ⟨fun entry hentry ↦ ?_, ih hrest⟩
              rcases mem_place hentry with rfl | hentry
              · exact Std.lt_of_le_of_ne (String.not_lt.mp hnlt) (Ne.symm hne)
              · exact hhead entry hentry

/-- Sets the count of a name. -/
def insert (name : String) (count : Int64) (tally : Tally) : Tally :=
  ⟨place name count tally.entries, place_sorted name count tally.sorted⟩

open Json

/-- Reads the members of an object into a tally; the last count of a name stands. -/
def readMembers (origin : Origin) (tally : Tally) :
    List (Option String × Node) → Except ReadError Tally
  | [] => .ok tally
  | (none, _) :: _ => .error (.text .malformed)
  | (some name, node) :: rest => do
      let count ← Codec.int64.read origin node
      readMembers origin (tally.insert name count) rest

/-- A tally stands in a document as an object. -/
def codec : Codec Tally where
  read origin node := match node with
    | .object members stop => do
        let inner ← origin.enter
        let tally ← readMembers inner empty members
        closing stop
        Except.ok tally
    | _ => .error (node.unexpected "a map")
  write tally := .object (tally.entries.map fun (name, count) ↦ (name, Codec.int64.write count))

end Tally

end Chronicle

/-!
# Entries by key

A map is a list of entries in the order in which their keys were first set; `List.lookup` reads
it. `insert` replaces the value of a key in place and appends a new key, so inserting entries one
after another keeps each key once, at its first position and with its last value.
-/

namespace Chronicle.Keyed

variable {κ α : Type}

/-- The keys of the entries, in order. -/
def keys (entries : List (κ × α)) : List κ := entries.map (·.1)

/-- Where every key stands once, the key of an entry is new to those before it. -/
theorem not_mem_keys_of_nodup {before rest : List (κ × α)} {key : κ} {value : α}
    (h : (keys (before ++ (key, value) :: rest)).Nodup) : key ∉ keys before := by
  rw [keys, List.map_append, List.nodup_append] at h
  intro hmem
  exact h.2.2 key hmem key List.mem_cons_self rfl

variable [DecidableEq κ]

/-- Sets the value of a key. -/
def insert (key : κ) (value : α) : List (κ × α) → List (κ × α)
  | [] => [(key, value)]
  | entry :: rest =>
    if entry.1 = key then (key, value) :: rest else entry :: insert key value rest

/-- Inserts every entry of the second list, in order. -/
def merge (entries more : List (κ × α)) : List (κ × α) :=
  more.foldl (fun acc entry ↦ insert entry.1 entry.2 acc) entries

/-- The entries without those of a key. -/
def erase (key : κ) (entries : List (κ × α)) : List (κ × α) :=
  entries.filter fun entry ↦ entry.1 ≠ key

theorem lookup_insert (key other : κ) (value : α) (entries : List (κ × α)) :
    (insert key value entries).lookup other =
      if other = key then some value else entries.lookup other := by
  induction entries with
  | nil =>
      by_cases h : other = key
      · simp [insert, h]
      · simp [insert, List.lookup_cons, h, beq_false_of_ne h]
  | cons entry rest ih =>
      obtain ⟨k, v⟩ := entry
      by_cases hk : k = key
      · subst hk
        by_cases h : other = k
        · simp [insert, h]
        · simp [insert, List.lookup_cons, h, beq_false_of_ne h]
      · by_cases ho : other = k
        · subst ho
          simp [insert, hk]
        · simp [insert, List.lookup_cons, hk, beq_false_of_ne ho, ih]

/-- An entry is found under its key if no other entry has that key. -/
theorem lookup_eq_some_of_mem {entries : List (κ × α)} (hkeys : (keys entries).Nodup) {key : κ}
    {value : α} (h : (key, value) ∈ entries) : entries.lookup key = some value := by
  induction entries with
  | nil => exact absurd h List.not_mem_nil
  | cons entry rest ih =>
      obtain ⟨hfresh, hrest⟩ := List.nodup_cons.mp hkeys
      by_cases hkey : key = entry.1
      · have hfirst : (key, value) = entry := by
          refine (List.mem_cons.mp h).resolve_right fun hmem ↦ hfresh ?_
          exact List.mem_map.mpr ⟨_, hmem, hkey⟩
        simp [← hfirst]
      · have hmem : (key, value) ∈ rest :=
          (List.mem_cons.mp h).resolve_left fun hfirst ↦ hkey (congrArg Prod.fst hfirst)
        rw [List.lookup_cons, beq_false_of_ne hkey]
        exact ih hrest hmem

/-- Nothing is found under a key that no entry has. -/
theorem lookup_eq_none {key : κ} {entries : List (κ × α)} (h : key ∉ keys entries) :
    entries.lookup key = none := by
  refine List.lookup_eq_none_iff.mpr fun entry hentry ↦ bne_iff_ne.mpr ?_
  rintro rfl
  exact h (List.mem_map_of_mem (f := Prod.fst) hentry)

/-- Something is found under the key of an entry. -/
theorem lookup_ne_none {key : κ} {entries : List (κ × α)} (h : key ∈ keys entries) :
    entries.lookup key ≠ none := by
  obtain ⟨entry, hentry, rfl⟩ := List.mem_map.mp h
  intro hnone
  exact bne_iff_ne.mp (List.lookup_eq_none_iff.mp hnone entry hentry) rfl

/-- Where every key stands once, what is found under a key is what stands there. -/
theorem lookup_eq_some_iff {entries : List (κ × α)} (hkeys : (keys entries).Nodup) {key : κ}
    {value : α} : entries.lookup key = some value ↔ (key, value) ∈ entries := by
  refine ⟨fun h ↦ ?_, lookup_eq_some_of_mem hkeys⟩
  obtain ⟨before, after, rfl, -⟩ := List.lookup_eq_some_iff.mp h
  simp

/-- Where every key stands once, the order does not matter to a lookup. -/
theorem lookup_perm {entries entries' : List (κ × α)} (hkeys : (keys entries).Nodup)
    (h : entries.Perm entries') (key : κ) : entries.lookup key = entries'.lookup key := by
  refine Option.ext fun value ↦ ?_
  have hkeys' : (keys entries').Nodup := (h.map Prod.fst).nodup_iff.mp hkeys
  rw [lookup_eq_some_iff hkeys, lookup_eq_some_iff hkeys', h.mem_iff]

/-- An entry of another key does not matter to a lookup. -/
theorem lookup_append_cons_of_ne {key other : κ} (h : other ≠ key) (before after : List (κ × α))
    (value : α) :
    (before ++ (key, value) :: after).lookup other = (before ++ after).lookup other := by
  rw [List.lookup_append, List.lookup_append, List.lookup_cons, beq_false_of_ne h]

/-- An entry is found where no other has its key. -/
theorem lookup_append_cons {key : κ} {value : α} {before after : List (κ × α)}
    (hkeys : (keys (before ++ (key, value) :: after)).Nodup) :
    (before ++ (key, value) :: after).lookup key = some value :=
  lookup_eq_some_of_mem hkeys (by simp)

/-- Without the one entry of a key nothing is found under it. -/
theorem lookup_append_eq_none {key : κ} {value : α} {before after : List (κ × α)}
    (hkeys : (keys (before ++ (key, value) :: after)).Nodup) :
    (before ++ after).lookup key = none := by
  refine lookup_eq_none fun hmem ↦ ?_
  have hperm : (keys (before ++ (key, value) :: after)).Perm (key :: keys (before ++ after)) :=
    List.perm_middle.map _
  exact (List.nodup_cons.mp (hperm.nodup_iff.mp hkeys)).1 hmem

/-- A new key goes to the end. -/
theorem insert_eq_append {key : κ} {entries : List (κ × α)} (h : key ∉ keys entries)
    (value : α) : insert key value entries = entries ++ [(key, value)] := by
  induction entries with
  | nil => rfl
  | cons entry rest ih =>
      obtain ⟨hkey, hrest⟩ := not_or.mp (mt List.mem_cons.mpr h)
      rw [insert, if_neg (Ne.symm hkey), ih hrest]
      rfl

theorem mem_insert {key : κ} {value : α} {entries : List (κ × α)} {entry : κ × α}
    (h : entry ∈ insert key value entries) : entry = (key, value) ∨ entry ∈ entries := by
  induction entries with
  | nil => exact .inl (List.mem_singleton.mp h)
  | cons first rest ih =>
      rw [insert] at h
      split at h
      · exact (List.mem_cons.mp h).imp_right (List.mem_cons_of_mem _)
      · rcases List.mem_cons.mp h with h | h
        · exact .inr (h ▸ List.mem_cons_self)
        · exact (ih h).imp_right (List.mem_cons_of_mem _)

theorem mem_keys_insert {key other : κ} {value : α} {entries : List (κ × α)} :
    other ∈ keys (insert key value entries) ↔ other = key ∨ other ∈ keys entries := by
  constructor
  · intro h
    obtain ⟨entry, hentry, rfl⟩ := List.mem_map.mp h
    exact (mem_insert hentry).imp (congrArg Prod.fst) (List.mem_map_of_mem (f := Prod.fst))
  · intro h
    refine Decidable.byContradiction fun hmem ↦ ?_
    have hnone := lookup_eq_none hmem
    rw [lookup_insert] at hnone
    split at hnone
    · cases hnone
    · next hne => exact lookup_ne_none (h.resolve_left hne) hnone

/-- Every key is kept once. -/
theorem nodup_keys_insert {entries : List (κ × α)} (h : (keys entries).Nodup) (key : κ)
    (value : α) : (keys (insert key value entries)).Nodup := by
  induction entries with
  | nil => exact List.nodup_cons.mpr ⟨List.not_mem_nil, .nil⟩
  | cons entry rest ih =>
      obtain ⟨hfresh, hrest⟩ := List.nodup_cons.mp h
      rw [insert]
      split
      · next heq => exact List.nodup_cons.mpr ⟨heq ▸ hfresh, hrest⟩
      · next hne =>
          refine List.nodup_cons.mpr ⟨fun hmem ↦ ?_, ih hrest⟩
          exact (mem_keys_insert.mp hmem).elim hne hfresh

/-- A key keeps its place, and a new one goes to the end. -/
theorem keys_insert (key : κ) (value : α) (entries : List (κ × α)) :
    keys (insert key value entries) =
      if key ∈ keys entries then keys entries else keys entries ++ [key] := by
  induction entries with
  | nil => rfl
  | cons entry rest ih =>
      have hkeys : keys (entry :: rest) = entry.1 :: keys rest := rfl
      rw [insert, hkeys]
      by_cases hfirst : entry.1 = key
      · rw [if_pos hfirst, if_pos (hfirst ▸ List.mem_cons_self), ← hfirst]
        rfl
      · rw [if_neg hfirst]
        show entry.1 :: keys (insert key value rest) = _
        rw [ih]
        by_cases hmem : key ∈ keys rest
        · rw [if_pos hmem, if_pos (List.mem_cons_of_mem _ hmem)]
        · rw [if_neg hmem, if_neg fun h ↦ (List.mem_cons.mp h).elim (hfirst ·.symm) hmem]
          rfl

/-! ### Some of the keys -/

/-- Entries can be left out by key before an insertion as well as after. -/
theorem filter_insert (p : κ → Bool) (key : κ) (value : α) (entries : List (κ × α)) :
    (insert key value entries).filter (fun entry ↦ p entry.1) =
      if p key then insert key value (entries.filter fun entry ↦ p entry.1)
      else entries.filter fun entry ↦ p entry.1 := by
  induction entries with
  | nil =>
      rw [insert, List.filter_cons]
      rfl
  | cons entry rest ih =>
      rw [insert]
      by_cases hkey : entry.1 = key
      · subst hkey
        rw [if_pos rfl, List.filter_cons, List.filter_cons]
        split
        · rw [insert, if_pos rfl]
        · rfl
      · rw [if_neg hkey, List.filter_cons, List.filter_cons, ih]
        split
        · split
          · rw [insert, if_neg hkey]
          · rfl
        · rfl

/-- Values can be changed before an insertion as well as after. -/
theorem map_insert {β : Type} (g : α → β) (key : κ) (value : α) (entries : List (κ × α)) :
    (insert key value entries).map (fun entry ↦ (entry.1, g entry.2)) =
      insert key (g value) (entries.map fun entry ↦ (entry.1, g entry.2)) := by
  induction entries with
  | nil => rfl
  | cons entry rest ih =>
      rw [insert, List.map_cons, insert]
      split
      · rfl
      · rw [List.map_cons, ih]

/-! ### Merging -/

theorem merge_append (entries front back : List (κ × α)) :
    merge entries (front ++ back) = merge (merge entries front) back := List.foldl_append

/-- What is found under a key is left alone by entries with other keys. -/
theorem lookup_merge_of_not_mem {key : κ} {more : List (κ × α)} (h : key ∉ keys more)
    (entries : List (κ × α)) : (merge entries more).lookup key = entries.lookup key := by
  induction more generalizing entries with
  | nil => rfl
  | cons entry rest ih =>
      obtain ⟨hne, hrest⟩ := not_or.mp (mt List.mem_cons.mpr h)
      rw [merge, List.foldl_cons, ← merge, ih hrest, lookup_insert, if_neg hne]

/-- The last entry of a key is found under it. -/
theorem lookup_merge {key : κ} {value : α} {before after : List (κ × α)}
    (h : key ∉ keys after) (entries : List (κ × α)) :
    (merge entries (before ++ (key, value) :: after)).lookup key = some value := by
  rw [List.append_cons, merge_append, lookup_merge_of_not_mem h, merge_append]
  show (insert key value _).lookup key = _
  rw [lookup_insert, if_pos rfl]

theorem nodup_keys_merge {entries : List (κ × α)} (h : (keys entries).Nodup)
    (more : List (κ × α)) : (keys (merge entries more)).Nodup := by
  induction more generalizing entries with
  | nil => exact h
  | cons entry rest ih => exact ih (nodup_keys_insert h entry.1 entry.2)

theorem mem_keys_merge {key : κ} {entries more : List (κ × α)} :
    key ∈ keys (merge entries more) ↔ key ∈ keys entries ∨ key ∈ keys more := by
  induction more generalizing entries with
  | nil => simp [merge, keys]
  | cons entry rest ih =>
      have hkeys : keys (entry :: rest) = entry.1 :: keys rest := rfl
      rw [merge, List.foldl_cons, ← merge, ih, mem_keys_insert, hkeys, List.mem_cons,
        or_comm (a := key = entry.1), or_assoc]

/-- Entries with new keys, each once, go to the end as they are. -/
theorem merge_eq_append {entries more : List (κ × α)} (h : (keys (entries ++ more)).Nodup) :
    merge entries more = entries ++ more := by
  induction more generalizing entries with
  | nil => exact (List.append_nil entries).symm
  | cons entry rest ih =>
      have hnew : insert entry.1 entry.2 entries = entries ++ [entry] :=
        insert_eq_append (not_mem_keys_of_nodup h) entry.2
      rw [merge, List.foldl_cons, ← merge, hnew, ih (by rwa [← List.append_cons]),
        ← List.append_cons]

/-! ### Erasing -/

theorem erase_cons (key : κ) (entry : κ × α) (rest : List (κ × α)) :
    erase key (entry :: rest) =
      if entry.1 = key then erase key rest else entry :: erase key rest := by
  by_cases h : entry.1 = key
  · simp [erase, h]
  · simp [erase, h]

theorem erase_append (key : κ) (front back : List (κ × α)) :
    erase key (front ++ back) = erase key front ++ erase key back := List.filter_append ..

/-- Nothing is left out under a key that no entry has. -/
theorem erase_eq_self {key : κ} {entries : List (κ × α)} (h : key ∉ keys entries) :
    erase key entries = entries := by
  refine List.filter_eq_self.mpr fun entry hentry ↦ decide_eq_true ?_
  rintro rfl
  exact h (List.mem_map_of_mem hentry)

/-- What is found under a key is left alone when entries of another key are left out. -/
theorem lookup_erase_of_ne {key other : κ} (h : other ≠ key) (entries : List (κ × α)) :
    (erase key entries).lookup other = entries.lookup other := by
  induction entries with
  | nil => rfl
  | cons entry rest ih =>
      rw [erase_cons]
      split
      · next hkey =>
          rw [ih, List.lookup_cons, hkey, beq_false_of_ne h]
      · rw [List.lookup_cons, List.lookup_cons, ih]

theorem erase_insert_self (key : κ) (value : α) (entries : List (κ × α)) :
    erase key (insert key value entries) = erase key entries := by
  rw [erase, filter_insert fun other ↦ decide (other ≠ key), if_neg (by simp), erase]

theorem erase_insert_ne {key other : κ} (h : other ≠ key) (value : α) (entries : List (κ × α)) :
    erase key (insert other value entries) = insert other value (erase key entries) := by
  rw [erase, filter_insert fun other ↦ decide (other ≠ key), if_pos (decide_eq_true h), erase]

/-- Entries of a key can be left out before merging as well as after. -/
theorem erase_merge (key : κ) (entries more : List (κ × α)) :
    erase key (merge entries more) = merge (erase key entries) (erase key more) := by
  induction more generalizing entries with
  | nil => rfl
  | cons entry rest ih =>
      rw [merge, List.foldl_cons, ← merge, ih, erase_cons]
      split
      · next h => rw [← h, erase_insert_self]
      · next h => rw [erase_insert_ne h]; rfl

end Chronicle.Keyed

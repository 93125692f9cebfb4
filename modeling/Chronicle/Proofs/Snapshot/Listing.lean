import Chronicle.Proofs.Snapshot.Durability
import Mathlib.Data.List.Sort

/-!
# Listings of snapshots

A store lists its snapshots by tick, and by timestamp where the tick is the same. Where a store
recalls a log in which no two snapshots have one tick, the listing has them in the order of their
ticks, and restoring what is listed gives the states of the log: `Store.Recalls.list_eq` and
`Store.Recalls.restoreAll_list`.
-/

namespace Chronicle

namespace SnapshotMetadata

/-- A snapshot is not after another: its tick is earlier, or the tick is the same and the timestamp
is not later. -/
def NotAfter (a b : SnapshotMetadata) : Prop :=
  a.tick < b.tick ∨ a.tick = b.tick ∧ a.timestamp.key ≤ b.timestamp.key

theorem NotAfter.trans {a b c : SnapshotMetadata} (hab : a.NotAfter b) (hbc : b.NotAfter c) :
    a.NotAfter c := by
  rcases hab with hab | ⟨htick, hab⟩
  · rcases hbc with hbc | ⟨hlater, -⟩
    · exact .inl (UInt64.lt_trans hab hbc)
    · exact .inl (hlater ▸ hab)
  · rcases hbc with hbc | ⟨hlater, hbc⟩
    · exact .inl (htick ▸ hbc)
    · exact .inr ⟨htick.trans hlater, Int.le_trans hab hbc⟩

theorem NotAfter.tick_le {a b : SnapshotMetadata} (h : a.NotAfter b) : a.tick ≤ b.tick := by
  rcases h with hlt | ⟨heq, -⟩
  · exact UInt64.le_of_lt hlt
  · exact UInt64.le_of_eq heq

/-- A snapshot that may stand before another is not after it. -/
theorem notAfter_of_precedes {a b : SnapshotMetadata} (h : a.precedes b = true) :
    a.NotAfter b := by
  rw [precedes, order] at h
  rcases Nat.lt_trichotomy a.tick.toNat b.tick.toNat with hlt | heq | hgt
  · exact .inl (UInt64.lt_iff_toNat_lt.mpr hlt)
  · refine .inr ⟨UInt64.toNat_inj.mp heq, Int.not_lt.mp fun hlater ↦ ?_⟩
    rw [Nat.compare_eq_eq.mpr heq, Binary64.order, compare_gt_iff_gt.mpr hlater] at h
    cases h
  · rw [Nat.compare_eq_gt.mpr hgt] at h
    cases h

/-- A snapshot that may not stand before another is not before it. -/
theorem notAfter_of_not_precedes {a b : SnapshotMetadata} (h : a.precedes b = false) :
    b.NotAfter a := by
  rw [precedes, order] at h
  rcases Nat.lt_trichotomy a.tick.toNat b.tick.toNat with hlt | heq | hgt
  · rw [Nat.compare_eq_lt.mpr hlt] at h
    cases h
  · refine .inr ⟨UInt64.toNat_inj.mp heq.symm, Int.not_lt.mp fun hearlier ↦ ?_⟩
    rw [Nat.compare_eq_eq.mpr heq, Binary64.order, compare_lt_iff_lt.mpr hearlier] at h
    cases h
  · exact .inl (UInt64.lt_iff_toNat_lt.mpr hgt)

end SnapshotMetadata

namespace Store

variable {store : Store} {log : List Saved}

/-- Snapshots are listed by tick, and by timestamp where the tick is the same. -/
theorem list_pairwise (store : Store) : store.list.Pairwise SnapshotMetadata.NotAfter :=
  @sorted_pairwise _ SnapshotMetadata.precedes SnapshotMetadata.NotAfter
    (fun _ _ _ ↦ SnapshotMetadata.NotAfter.trans)
    (fun _ _ ↦ SnapshotMetadata.notAfter_of_precedes)
    (fun _ _ ↦ SnapshotMetadata.notAfter_of_not_precedes) _

/-- Restoring a snapshot changes no answer. -/
theorem restore_restore (store : Store) (a b : SnapshotId) :
    ((store.restore a).2.restore b).1 = (store.restore b).1 := by
  cases hheld : store.states.lookup a with
  | some state =>
      have hsame : (store.restore a).2 = store := by rw [restore, hheld]
      rw [hsame]
  | none =>
      cases hstored : store.stored? a with
      | none =>
          have hsame : (store.restore a).2 = store := by rw [restore, hheld, hstored]
          rw [hsame]
      | some state =>
          have hafter : (store.restore a).2 =
              { store with states := Keyed.insert a state store.states } := by
            rw [restore, hheld, hstored]
          rw [hafter]
          by_cases hb : b = a
          · subst hb
            rw [restore, restore, hheld, hstored, Keyed.lookup_insert, if_pos rfl]
          · have hsame : ({ store with states := Keyed.insert a state store.states } :
                Store).stored? b = store.stored? b := rfl
            rw [restore, restore, Keyed.lookup_insert, if_neg hb, hsame]
            cases store.states.lookup b with
            | some _ => rfl
            | none => cases store.stored? b <;> rfl

/-- Snapshots that are restored one after another are restored as each of them alone. -/
theorem restoreAll_eq {ids : List SnapshotId} :
    (store.restoreAll ids).1 = ids.filterMap fun id ↦ (store.restore id).1 := by
  induction ids generalizing store with
  | nil => rfl
  | cons id rest ih =>
      show (store.restore id).1.toList ++ ((store.restore id).2.restoreAll rest).1 = _
      rw [ih]
      simp only [restore_restore]
      cases h : (store.restore id).1 with
      | none => simp only [List.filterMap_cons, h, Option.toList_none, List.nil_append]
      | some state => simp only [List.filterMap_cons, h, Option.toList_some, List.singleton_append]

/-! ### What is listed of a log -/

namespace Recalls

variable (h : store.Recalls log) (hrecorded : ∀ saved ∈ log, saved.Recorded)
  (hkeys : (Keyed.keys store.metadata).Nodup) (hids : (log.map (·.id)).Nodup)

include h hrecorded

/-- A snapshot in the log is known by its identifier and its tick. -/
theorem metadata_eq {saved : Saved} (hsaved : saved ∈ log) :
    ∃ m, store.metadata? saved.id = some m ∧ m.id = saved.id ∧ m.tick = saved.state.tick := by
  obtain ⟨_, moment, hmetadata, hknown⟩ := h.metadata saved hsaved
  obtain ⟨_, hrecorded⟩ := hrecorded saved hsaved
  rw [hrecorded] at hmetadata
  cases hmetadata
  exact ⟨_, hknown, rfl, rfl⟩

include hkeys

/-- What is known is known of a snapshot in the log. -/
theorem exists_saved {id : SnapshotId} {m : SnapshotMetadata} (hmem : (id, m) ∈ store.metadata) :
    ∃ saved ∈ log, saved.id = id ∧ m.id = id ∧ m.tick = saved.state.tick := by
  have hlookup : store.metadata? id = some m := Keyed.lookup_eq_some_of_mem hkeys hmem
  have hknown : ∃ saved ∈ log, saved.id = id := by
    by_contra hnone
    have hother : ∀ saved ∈ log, saved.id ≠ id := fun saved hsaved heq ↦
      hnone ⟨saved, hsaved, heq⟩
    rw [(h.others id hother).1] at hlookup
    cases hlookup
  obtain ⟨saved, hsaved, rfl⟩ := hknown
  obtain ⟨known, hm, hid, htick⟩ := h.metadata_eq hrecorded hsaved
  rw [hm] at hlookup
  cases hlookup
  exact ⟨saved, hsaved, rfl, hid, htick⟩

include hids

/-- The listing has just the snapshots in the log. -/
theorem list_perm :
    (store.list.map fun m ↦ (m.id, m.tick)).Perm
      (log.map fun saved ↦ (saved.id, saved.state.tick)) := by
  have hmetadata : (store.metadata.map fun entry ↦ (entry.2.id, entry.2.tick)).Nodup := by
    refine List.Nodup.of_map Prod.fst ?_
    rw [List.map_map]
    refine (congrArg List.Nodup (List.map_congr_left fun entry hentry ↦ ?_)).mpr hkeys
    obtain ⟨_, _, _, hid, _⟩ := h.exists_saved hrecorded hkeys hentry
    exact hid
  have hlog : (log.map fun saved ↦ (saved.id, saved.state.tick)).Nodup := by
    refine List.Nodup.of_map Prod.fst ?_
    rw [List.map_map]
    exact hids
  -- Neither list has an entry twice, so that it is enough that both have the same ones.
  have hsame : (store.metadata.map fun entry ↦ (entry.2.id, entry.2.tick)).Perm
      (log.map fun saved ↦ (saved.id, saved.state.tick)) := by
    rw [List.perm_ext_iff_of_nodup hmetadata hlog]
    intro pair
    constructor
    · intro hpair
      obtain ⟨entry, hentry, rfl⟩ := List.mem_map.mp hpair
      obtain ⟨saved, hsaved, hid, hown, htick⟩ := h.exists_saved hrecorded hkeys hentry
      exact List.mem_map.mpr ⟨saved, hsaved, by rw [hid, hown, htick]⟩
    · intro hpair
      obtain ⟨saved, hsaved, rfl⟩ := List.mem_map.mp hpair
      obtain ⟨m, hm, hid, htick⟩ := h.metadata_eq hrecorded hsaved
      obtain ⟨_, _, hsplit, -⟩ := List.lookup_eq_some_iff.mp hm
      exact List.mem_map.mpr ⟨(saved.id, m), by rw [hsplit]; simp, by rw [← hid, ← htick]⟩
  have hlist := (sorted_perm SnapshotMetadata.precedes (store.metadata.map (·.2))).map
    fun m ↦ (m.id, m.tick)
  rw [List.map_map] at hlist
  exact hlist.trans hsame

/-- Where the ticks in the log increase, the listing has its order. -/
theorem list_eq (hticks : log.Pairwise fun a b ↦ a.state.tick < b.state.tick) :
    (store.list.map fun m ↦ (m.id, m.tick)) = log.map fun saved ↦ (saved.id, saved.state.tick) := by
  have hperm := h.list_perm hrecorded hkeys hids
  have hinjective : ∀ a ∈ log, ∀ b ∈ log, a.state.tick = b.state.tick → a = b := by
    refine List.inj_on_of_nodup_map (List.pairwise_map.mpr (hticks.imp ?_))
    intro a b hlt
    exact UInt64.ne_of_lt hlt
  refine @List.Perm.eq_of_pairwise _ (fun a b ↦ a.2 ≤ b.2) _ _ ?_ ?_ ?_ hperm
  · intro a b ha hb hab hba
    obtain ⟨s, hs, rfl⟩ := List.mem_map.mp (hperm.mem_iff.mp ha)
    obtain ⟨t, ht, rfl⟩ := List.mem_map.mp hb
    rw [hinjective s hs t ht (UInt64.le_antisymm hab hba)]
  · exact List.pairwise_map.mpr (store.list_pairwise.imp SnapshotMetadata.NotAfter.tick_le)
  · exact List.pairwise_map.mpr (hticks.imp UInt64.le_of_lt)

/-- The states that are listed are those of the log, in its order. -/
theorem restoreAll_list (hticks : log.Pairwise fun a b ↦ a.state.tick < b.state.tick) :
    (store.restoreAll (store.list.map (·.id))).1 = log.map (·.state) := by
  have hlist : store.list.map (·.id) = log.map (·.id) := by
    have hpairs := congrArg (List.map Prod.fst) (h.list_eq hrecorded hkeys hids hticks)
    rwa [List.map_map, List.map_map] at hpairs
  rw [restoreAll_eq, hlist, List.filterMap_map, ← List.filterMap_eq_map]
  exact List.filterMap_congr fun saved hsaved ↦ h.states saved hsaved

end Recalls

end Store

end Chronicle

import Chronicle.Proofs.Json.Codec

/-!
# Free-form parts of documents

Values and free-form records are stable: `Codec.stable_value` and `Codec.stable_attributes`. What is
read of an object has every name once, in the order of the first occurrences, which is why reading
it again changes nothing.
-/

namespace Chronicle.Json

namespace Codec

variable {origin inner : Origin}

/-- Every name stands once, and every value is restored. -/
structure Settled (origin : Origin) (members : Attributes) : Prop where
  nodup : (Keyed.keys members).Nodup
  restores : ∀ member ∈ members, value.Restores origin member.2

theorem settled_nil : Settled origin [] := ⟨.nil, by simp⟩

/-- A member that is restored can be set. -/
theorem Settled.insert {members : Attributes} (h : Settled origin members) (name : String)
    {v : Value} (hv : value.Restores origin v) :
    Settled origin (Keyed.insert name v members) := by
  refine ⟨Keyed.nodup_keys_insert h.nodup name v, fun member hmember ↦ ?_⟩
  rcases Keyed.mem_insert hmember with rfl | hmember
  · exact hv
  · exact h.restores member hmember

theorem Settled.membersFit {members : Attributes} (h : Settled origin members) :
    MembersFit (Node.ofMembers members) := by
  rw [membersFit_iff, Node.ofMembers_eq_map]
  intro node hnode
  obtain ⟨member, hmember, rfl⟩ := List.mem_map.mp hnode
  exact (h.restores member hmember).fits

theorem toValues_ofItems {items : List Value} (h : ∀ v ∈ items, value.Restores origin v) :
    Node.toValues origin (Node.ofItems items) = .ok items := by
  induction items with
  | nil => rfl
  | cons v rest ih =>
      obtain ⟨hv, hrest⟩ := List.forall_mem_cons.mp h
      have hread : Node.toValue origin (.ofValue v) = .ok v := hv.reads
      rw [Node.ofItems, Node.toValues, hread, ok_bind, ih hrest]
      rfl

/-- Members with new names are added behind those before them. -/
theorem toMembers_ofMembers {before members : Attributes}
    (hkeys : (Keyed.keys (before ++ members)).Nodup)
    (h : ∀ member ∈ members, value.Restores origin member.2) :
    Node.toMembers origin before (Node.ofMembers members) = .ok (before ++ members) := by
  induction members generalizing before with
  | nil =>
      rw [List.append_nil]
      rfl
  | cons member rest ih =>
      obtain ⟨name, v⟩ := member
      obtain ⟨hv, hrest⟩ := List.forall_mem_cons.mp h
      have hread : Node.toValue origin (.ofValue v) = .ok v := hv.reads
      have hfresh := Keyed.not_mem_keys_of_nodup hkeys
      -- The member moves over to those before, where the rest will be added behind it.
      rw [List.append_cons] at hkeys
      rw [Node.ofMembers, Node.toMembers, hread, ok_bind, Keyed.insert_eq_append hfresh,
        ih hkeys hrest, List.append_assoc]
      rfl

theorem restores_list_value (henter : origin.enter = .ok inner) {items : List Value}
    (h : ∀ v ∈ items, value.Restores inner v) : value.Restores origin (.list items) := by
  refine ⟨?_, ?_⟩
  · show ItemsFit (Node.ofItems items)
    rw [itemsFit_iff, Node.ofItems_eq_map]
    intro node hnode
    obtain ⟨v, hv, rfl⟩ := List.mem_map.mp hnode
    exact (h v hv).fits
  · show Node.toValue origin (.list (Node.ofItems items) none) = _
    rw [Node.toValue, henter, ok_bind, toValues_ofItems h]
    rfl

theorem Settled.restores_object (henter : origin.enter = .ok inner) {members : Attributes}
    (h : Settled inner members) : value.Restores origin (.object members) := by
  refine ⟨h.membersFit, ?_⟩
  show Node.toValue origin (.object (Node.ofMembers members) none) = _
  rw [Node.toValue, henter, ok_bind, toMembers_ofMembers (by exact h.nodup) h.restores]
  rfl

/-- A free-form record is restored if its members are settled, one level deeper. -/
theorem Settled.restores_attributes (henter : origin.enter = .ok inner) {members : Attributes}
    (h : Settled inner members) : attributes.Restores origin members := by
  refine ⟨h.membersFit, ?_⟩
  show (origin.enter >>= fun inner ↦
    Node.toMembers inner [] (Node.ofMembers members) >>= fun values ↦
      closing none >>= fun _ ↦ Except.ok values) = _
  rw [henter, ok_bind, toMembers_ofMembers (by exact h.nodup) h.restores]
  rfl

mutual
/-- A value that is read is restored. -/
theorem restores_of_toValue (origin : Origin) (node : Node) (v : Value) (hfit : node.IntsFit)
    (hread : Node.toValue origin node = .ok v) : value.Restores origin v := by
  match node with
  | .null | .bool _ | .float _ | .str _ =>
      cases hread
      exact ⟨trivial, rfl⟩
  | .int n =>
      cases hread
      exact ⟨hfit, rfl⟩
  | .list items stop =>
      obtain ⟨inner, values, henter, hvalues, heq⟩ := enclosed_eq_ok hread
      cases heq
      exact restores_list_value henter (restores_of_toValues inner items _ hfit hvalues)
  | .object members stop =>
      obtain ⟨inner, values, henter, hvalues, heq⟩ := enclosed_eq_ok hread
      cases heq
      exact (settled_of_toMembers inner [] members _ settled_nil hfit hvalues).restores_object
        henter
  | .flawed | .broken _ => cases hread

/-- The items that are read are restored. -/
theorem restores_of_toValues (origin : Origin) (nodes : List Node) (values : List Value)
    (hfit : ItemsFit nodes) (hread : Node.toValues origin nodes = .ok values) :
    ∀ v ∈ values, value.Restores origin v := by
  match nodes with
  | [] =>
      cases hread
      simp
  | node :: rest =>
      obtain ⟨v, hv, hread⟩ := bind_eq_ok.mp hread
      obtain ⟨more, hmore, heq⟩ := bind_eq_ok.mp hread
      cases heq
      exact List.forall_mem_cons.mpr ⟨restores_of_toValue origin node v hfit.1 hv,
        restores_of_toValues origin rest more hfit.2 hmore⟩

/-- The members that are read are settled if those before them are. -/
theorem settled_of_toMembers (origin : Origin) (before : Attributes)
    (nodes : List (Option String × Node)) (members : Attributes)
    (hbefore : Settled origin before) (hfit : MembersFit nodes)
    (hread : Node.toMembers origin before nodes = .ok members) : Settled origin members := by
  match nodes with
  | [] =>
      cases hread
      exact hbefore
  | (none, _) :: _ => cases hread
  | (some name, node) :: rest =>
      obtain ⟨v, hv, hread⟩ := bind_eq_ok.mp hread
      exact settled_of_toMembers origin _ rest members
        (hbefore.insert name (restores_of_toValue origin node v hfit.1 hv)) hfit.2 hread
end

theorem stable_value : value.Stable origin :=
  fun node v hfit hread ↦ restores_of_toValue origin node v hfit hread

theorem stable_attributes : attributes.Stable origin := by
  intro node members hfit hread
  cases node with
  | object nodes stop =>
      obtain ⟨inner, values, henter, hvalues, heq⟩ := enclosed_eq_ok hread
      cases heq
      exact (settled_of_toMembers inner [] nodes _ settled_nil hfit hvalues).restores_attributes
        henter
  | _ => cases hread

end Codec

end Chronicle.Json

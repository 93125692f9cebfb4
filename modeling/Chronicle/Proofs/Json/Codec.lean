import Chronicle.Json.Codec
import Chronicle.Proofs.Json.Document
import Chronicle.Proofs.Results

/-!
# Codecs that lose nothing

A codec restores a value if what it writes for the value is read as that value again. It is
faithful if it restores every value, and stable if it restores what it reads. Free-form parts are
only stable: they can hold an integer that no text holds, or be deeper than a text may be.

What is restored has integers that fit in 64 bits, so that it also comes through a text, and what
is read may be assumed to come from a text.
-/

namespace Chronicle.Json

/-- So many levels may follow. -/
def Origin.Allows : Origin → Nat → Prop
  | .text levels, n => n ≤ levels
  | .memory, _ => True

theorem Origin.Allows.mono {origin : Origin} {m n : Nat} (h : origin.Allows n) (hle : m ≤ n) :
    origin.Allows m := by
  cases origin with
  | text levels => exact Nat.le_trans hle h
  | memory => trivial

/-- Where a level may follow it can be entered. -/
theorem Origin.Allows.enter {origin : Origin} {n : Nat} (h : origin.Allows (n + 1)) :
    ∃ inner, origin.enter = .ok inner ∧ inner.Allows n := by
  match origin with
  | .memory => exact ⟨.memory, rfl, trivial⟩
  | .text 0 => exact absurd h (Nat.not_succ_le_zero n)
  | .text (levels + 1) => exact ⟨.text levels, rfl, Nat.le_of_succ_le_succ h⟩

/-- A level that is entered counts. -/
theorem Origin.Allows.of_enter {origin inner : Origin} {n : Nat} (h : origin.Allows (n + 1))
    (hinner : origin.enter = .ok inner) : inner.Allows n := by
  obtain ⟨entered, henter, hallows⟩ := h.enter
  rw [henter] at hinner
  cases hinner
  exact hallows

/-- What is read inside a list or an object is read one level deeper, up to its end. -/
theorem enclosed_eq_ok {α β : Type} {origin : Origin} {stop : Option Break}
    {f : Origin → Except ReadError α} {g : α → Except ReadError β} {b : β}
    (h : (origin.enter >>= fun inner ↦ f inner >>= fun a ↦ closing stop >>= fun _ ↦ g a) = .ok b) :
    ∃ inner a, origin.enter = .ok inner ∧ f inner = .ok a ∧ g a = .ok b := by
  obtain ⟨inner, henter, h⟩ := bind_eq_ok.mp h
  obtain ⟨a, ha, h⟩ := bind_eq_ok.mp h
  obtain ⟨_, _, h⟩ := bind_eq_ok.mp h
  exact ⟨inner, a, henter, ha, h⟩

theorem Node.ofItems_eq_map (items : List Value) : Node.ofItems items = items.map .ofValue := by
  induction items with
  | nil => rfl
  | cons v rest ih => rw [Node.ofItems, ih, List.map_cons]

theorem Node.ofMembers_eq_map (members : Attributes) :
    Node.ofMembers members = members.map fun member ↦ (some member.1, .ofValue member.2) := by
  induction members with
  | nil => rfl
  | cons member rest ih => rw [Node.ofMembers, ih, List.map_cons]

namespace Codec

variable {α β : Type} {codec : Codec α} {origin : Origin}

/-- What is written for a value is read as that value. -/
structure Restores (codec : Codec α) (origin : Origin) (a : α) : Prop where
  fits : (Node.ofValue (codec.write a)).IntsFit
  reads : codec.read origin (.ofValue (codec.write a)) = .ok a

/-- Every value is restored. -/
def Faithful (codec : Codec α) (origin : Origin) : Prop := ∀ a, codec.Restores origin a

/-- Every value that is read is restored. -/
def Stable (codec : Codec α) (origin : Origin) : Prop :=
  ∀ node a, node.IntsFit → codec.read origin node = .ok a → codec.Restores origin a

theorem Faithful.stable (h : codec.Faithful origin) : codec.Stable origin :=
  fun _ a _ _ ↦ h a

/-! ### Whole texts -/

/-- What is read from a text is read from the document in it. -/
theorem exists_node {cs : List Char} {a : α} (hread : codec.readText cs = .ok a) :
    ∃ node : Node, node.IntsFit ∧ codec.read (.text maxLevels) node = .ok a := by
  have hfits := Node.intsFit_parse cs
  unfold Codec.readText at hread
  generalize Node.parse cs = parsed at hread hfits
  obtain ⟨node, rest⟩ := parsed
  obtain ⟨b, hb, hblank⟩ := bind_eq_ok.mp hread
  cases hempty : (skipSpace rest).isEmpty with
  | false => simp [hempty] at hblank
  | true =>
      rw [if_pos hempty] at hblank
      cases hblank
      exact ⟨node, hfits, hb⟩

/-- What a stable codec reads from a text is restored from one. -/
theorem restores_of_readText (h : codec.Stable (.text maxLevels)) {cs : List Char} {a : α}
    (hread : codec.readText cs = .ok a) : codec.Restores (.text maxLevels) a := by
  obtain ⟨node, hfits, hnode⟩ := exists_node hread
  exact h node a hfits hnode

/-- The text of a value is read as the value. -/
theorem readText_pretty (codec : Codec α) {v : Value} (hfit : (Node.ofValue v).IntsFit) :
    codec.readText v.pretty = codec.read (.text maxLevels) (.ofValue v) := by
  unfold Codec.readText
  rw [Node.parse_pretty hfit]
  show (codec.read (.text maxLevels) (.ofValue v) >>= _) = _
  cases codec.read (.text maxLevels) (.ofValue v) <;> rfl

/-- The text of a restored value is read as that value. -/
theorem Restores.readText {a : α} (h : codec.Restores (.text maxLevels) a) :
    codec.readText (codec.write a).pretty = .ok a := by
  rw [readText_pretty codec h.fits, h.reads]

/-! ### Scalars -/

theorem faithful_integer {low high : Int} (hlow : -2 ^ 63 ≤ low) (hhigh : high < 2 ^ 64)
    (expected : String) : (integer low high expected).Faithful origin := by
  intro n
  refine ⟨⟨Int.le_trans hlow n.2.1, Int.lt_of_le_of_lt n.2.2 hhigh⟩, ?_⟩
  show (if h : low ≤ n.1 ∧ n.1 ≤ high then _ else _) = _
  rw [dif_pos n.2]

/-- A type that stands as another does is restored if it can be told from the other. -/
theorem Faithful.via {decode : α → β} {encode : β → α} (h : codec.Faithful origin)
    (hdecode : ∀ b, decode (encode b) = b) : (codec.via decode encode).Faithful origin := by
  intro b
  obtain ⟨hfits, hreads⟩ := h (encode b)
  refine ⟨hfits, ?_⟩
  show (codec.read origin (.ofValue (codec.write (encode b)))).map decode = _
  rw [hreads]
  exact congrArg _ (hdecode b)

theorem faithful_int64 : int64.Faithful origin :=
  (faithful_integer (by decide) (by decide) _).via Int64.ofInt_toInt

theorem faithful_uint64 : uint64.Faithful origin := by
  refine (faithful_integer (by decide) (by decide) _).via fun n ↦ ?_
  rw [Int.toNat_natCast, UInt64.ofNat_toNat]

theorem faithful_uint32 : uint32.Faithful origin := by
  refine (faithful_integer (by decide) (by decide) _).via fun n ↦ ?_
  rw [Int.toNat_natCast, UInt32.ofNat_toNat]

theorem faithful_float : float.Faithful origin := fun _ ↦ ⟨trivial, rfl⟩

theorem faithful_bool : bool.Faithful origin := fun _ ↦ ⟨trivial, rfl⟩

theorem faithful_str : str.Faithful origin := fun _ ↦ ⟨trivial, rfl⟩

/-- A variant is restored if its label is the label of no other. -/
theorem faithful_variant {choices : List (String × α)} {label : α → String}
    (h : ∀ a, choices.lookup (label a) = some a) : (variant choices label).Faithful origin := by
  intro a
  refine ⟨trivial, ?_⟩
  simp only [variant, Node.ofValue, h a]

/-! ### Optional values -/

theorem restores_none : (option codec).Restores origin none := ⟨trivial, rfl⟩

/-- What is not null is not taken for nothing. -/
theorem read_option {node : Node} (h : node ≠ .null) :
    (option codec).read origin node = (codec.read origin node).map some := by
  cases node with
  | null => exact absurd rfl h
  | _ => rfl

theorem Restores.some {a : α} (h : codec.Restores origin a) (hnull : codec.write a ≠ .null) :
    (option codec).Restores origin (some a) := by
  have hnode : Node.ofValue (codec.write a) ≠ .null := by
    cases hv : codec.write a with
    | null => exact absurd hv hnull
    | _ => simp [Node.ofValue]
  refine ⟨h.fits, ?_⟩
  show (option codec).read origin (.ofValue (codec.write a)) = _
  rw [read_option hnode, h.reads]
  rfl

theorem Faithful.option (h : codec.Faithful origin) (hnull : ∀ a, codec.write a ≠ .null) :
    (option codec).Faithful origin := by
  intro a
  cases a with
  | none => exact restores_none
  | some a => exact (h a).some (hnull a)

theorem Stable.option (h : codec.Stable origin) (hnull : ∀ a, codec.write a ≠ .null) :
    (option codec).Stable origin := by
  intro node a hnode hread
  by_cases hnone : node = .null
  · rw [hnone] at hread
    cases hread
    exact restores_none
  · rw [read_option hnone] at hread
    obtain ⟨b, hb, rfl⟩ := map_eq_ok.mp hread
    exact (h node b hnode hb).some (hnull b)

/-! ### Lists -/

theorem readItems_map {items : List α} (h : ∀ a ∈ items, codec.Restores origin a) :
    codec.readItems origin (Node.ofItems (items.map codec.write)) = .ok items := by
  induction items with
  | nil => rfl
  | cons a rest ih =>
      obtain ⟨ha, hrest⟩ := List.forall_mem_cons.mp h
      rw [List.map_cons, Node.ofItems, readItems, ha.reads, ok_bind, ih hrest]
      rfl

/-- A list is restored if each of its items is, one level deeper. -/
theorem restores_list {inner : Origin} (henter : origin.enter = .ok inner) {items : List α}
    (h : ∀ a ∈ items, codec.Restores inner a) : (list codec).Restores origin items := by
  refine ⟨?_, ?_⟩
  · show ItemsFit (Node.ofItems (items.map codec.write))
    rw [itemsFit_iff, Node.ofItems_eq_map, List.map_map]
    intro node hnode
    obtain ⟨a, ha, rfl⟩ := List.mem_map.mp hnode
    exact (h a ha).fits
  · show (origin.enter >>= fun inner ↦
      codec.readItems inner (Node.ofItems (items.map codec.write)) >>= fun values ↦
        closing none >>= fun _ ↦ Except.ok values) = _
    rw [henter, ok_bind, readItems_map h]
    rfl

theorem Faithful.list (hallows : origin.Allows 1)
    (h : ∀ inner, origin.enter = .ok inner → codec.Faithful inner) :
    (list codec).Faithful origin := by
  intro items
  obtain ⟨inner, henter, _⟩ := hallows.enter
  exact restores_list henter fun a _ ↦ h inner henter a

/-- The items that are read are restored. -/
theorem restores_of_readItems (h : codec.Stable origin) {nodes : List Node} {items : List α}
    (hfit : ItemsFit nodes) (hread : codec.readItems origin nodes = .ok items) :
    ∀ a ∈ items, codec.Restores origin a := by
  induction nodes generalizing items with
  | nil =>
      cases hread
      simp
  | cons node rest ih =>
      obtain ⟨hnode, hrest⟩ := hfit
      obtain ⟨a, ha, hread⟩ := bind_eq_ok.mp hread
      obtain ⟨more, hmore, heq⟩ := bind_eq_ok.mp hread
      cases heq
      exact List.forall_mem_cons.mpr ⟨h node a hnode ha, ih hrest hmore⟩

theorem Stable.list (h : ∀ inner, origin.enter = .ok inner → codec.Stable inner) :
    (list codec).Stable origin := by
  intro node items hnode hread
  cases node with
  | list nodes stop =>
      obtain ⟨inner, values, henter, hvalues, heq⟩ := enclosed_eq_ok hread
      cases heq
      exact restores_list henter (restores_of_readItems (h inner henter) hnode hvalues)
  | _ => cases hread

end Codec

end Chronicle.Json

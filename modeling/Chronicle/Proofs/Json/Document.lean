import Chronicle.Proofs.Json.Number
import Chronicle.Proofs.Json.Text
import Mathlib.Algebra.Group.Int.Defs

/-!
# Documents in texts

`Node.parse_pretty` says that the text of a value is read back as the value's node, down to the
last bit of each float. Integers have to fit in 64 bits, with or without a sign, since others are
read as floats. `Node.intsFit_parse` says that this is no restriction on what comes from a text.

The parser has fuel for twice the length of a text. A value needs no more than that, and the items
behind a bracket no more than that and one.
-/

namespace Chronicle.Json

mutual
/-- Every integer fits in 64 bits, with a sign or without. -/
def Node.IntsFit : Node → Prop
  | .int n => -2 ^ 63 ≤ n ∧ n < 2 ^ 64
  | .list items _ => ItemsFit items
  | .object members _ => MembersFit members
  | _ => True

/-- The integers of all items fit. -/
def ItemsFit : List Node → Prop
  | [] => True
  | node :: rest => node.IntsFit ∧ ItemsFit rest

/-- The integers of all members fit. -/
def MembersFit : List (Option String × Node) → Prop
  | [] => True
  | (_, node) :: rest => node.IntsFit ∧ MembersFit rest
end

theorem itemsFit_iff {items : List Node} : ItemsFit items ↔ ∀ node ∈ items, node.IntsFit := by
  induction items with
  | nil => simp [ItemsFit]
  | cons node rest ih => simp [ItemsFit, ih]

theorem membersFit_iff {members : List (Option String × Node)} :
    MembersFit members ↔ ∀ member ∈ members, member.2.IntsFit := by
  induction members with
  | nil => simp [MembersFit]
  | cons member rest ih => simp [MembersFit, ih]

/-! ### Blanks -/

theorem skipSpace_newline (level : Nat) (cs : List Char) :
    skipSpace (Value.newline level ++ cs) = skipSpace cs := by
  have hblank : ∀ c ∈ Value.newline level, isSpace c = true := by
    intro c hc
    rcases List.mem_cons.mp hc with rfl | hc
    · decide
    · rw [List.eq_of_mem_replicate hc]
      decide
  exact List.dropWhile_append_of_pos hblank

theorem skipSpace_cons {c : Char} (h : isSpace c = false) (cs : List Char) :
    skipSpace (c :: cs) = c :: cs := by
  rw [skipSpace, List.dropWhile_cons_of_neg (by simp [h])]

/-- What can stand at the front of a value. -/
def startsValue (c : Char) : Bool := !isSpace c && c != ']' && c != '\x7d'

theorem startsValue_of_isDigit {c : Char} (h : c.isDigit = true) : startsValue c = true := by
  have hnone : [' ', '\n', '\t', '\r', ']', '\x7d'].all (fun d ↦ !d.isDigit) = true := by decide
  have hne : ∀ d ∈ [' ', '\n', '\t', '\r', ']', '\x7d'], c ≠ d := by
    rintro d hd rfl
    have hd := List.all_eq_true.mp hnone c hd
    rw [h] at hd
    cases hd
  simp only [List.forall_mem_cons] at hne
  simp [startsValue, isSpace, hne]

/-- A value starts with a character that is neither a blank nor a closing bracket. -/
theorem prettyAt_eq_cons (level : Nat) (v : Value) :
    ∃ c cs, v.prettyAt level = c :: cs ∧ startsValue c = true := by
  cases v with
  | null => exact ⟨_, _, rfl, by decide⟩
  | bool b => cases b <;> exact ⟨_, _, rfl, by decide⟩
  | int n =>
      obtain ⟨c, cs, hcs, hc⟩ := toDigits_eq_cons n.natAbs
      simp only [Value.prettyAt, Value.intText, hcs]
      split
      · exact ⟨_, _, rfl, by decide⟩
      · exact ⟨_, _, rfl, startsValue_of_isDigit hc⟩
  | float x =>
      obtain ⟨c, cs, hcs, hc⟩ := documentText_head (Decimal.shortest .even x)
      simp only [Value.prettyAt, Binary64.documentText, hcs]
      split
      · exact ⟨_, _, rfl, by decide⟩
      · exact ⟨_, _, rfl, startsValue_of_isDigit hc⟩
  | str s => exact ⟨_, _, rfl, by decide⟩
  | list items => cases items <;> exact ⟨_, _, rfl, by decide⟩
  | object members => cases members <;> exact ⟨_, _, rfl, by decide⟩

/-- There is no blank in front of a value. -/
theorem skipSpace_prettyAt (level : Nat) (v : Value) (rest : List Char) :
    skipSpace (v.prettyAt level ++ rest) = v.prettyAt level ++ rest := by
  obtain ⟨c, cs, htext, hc⟩ := prettyAt_eq_cons level v
  simp only [startsValue, Bool.and_eq_true, Bool.not_eq_true'] at hc
  rw [htext, List.cons_append, skipSpace_cons hc.1.1]

/-- There is no closing bracket in front of a value. -/
theorem head_prettyAt (level : Nat) (v : Value) (rest : List Char) :
    (v.prettyAt level ++ rest).head? ≠ some ']' := by
  obtain ⟨c, cs, htext, hc⟩ := prettyAt_eq_cons level v
  rw [htext]
  rintro h
  cases h
  exact absurd hc (by decide)

theorem skipSpace_stringText (s : String) (rest : List Char) :
    skipSpace (Value.stringText s ++ rest) = Value.stringText s ++ rest :=
  skipSpace_cons (by decide) _

/-- No value breaks off. -/
theorem stop?_ofValue (v : Value) : (Node.ofValue v).stop? = none := by
  cases v <;> rfl

/-- What is behind an item cannot belong to a number in it. -/
theorem endsNumber_prettyItems (level : Nat) (items : List Value) (rest : List Char) :
    EndsNumber (Value.prettyItems level items ++ rest) := by
  intro c hc
  cases items <;> cases hc <;> decide

/-- What is behind a member cannot belong to a number in it. -/
theorem endsNumber_prettyMembers (level : Nat) (members : List (String × Value))
    (rest : List Char) : EndsNumber (Value.prettyMembers level members ++ rest) := by
  intro c hc
  cases members <;> cases hc <;> decide

/-! ### Values -/

/-- A number without a sign starts with a digit. -/
theorem scanNode_digit {c : Char} (h : c.isDigit = true) {cs rest : List Char}
    (hcs : skipSpace cs = c :: rest) (fuel : Nat) :
    scanNode (fuel + 1) cs = scanNumber false (c :: rest) := by
  rw [scanNode, hcs]
  split
  case h_1 heq => cases heq
  case h_9 heq =>
    cases heq
    rw [if_pos h]
  -- What is left are the characters that start something else.
  all_goals
    rename_i heq
    cases heq
    exact absurd h (by decide)

/-- A number behind a minus sign. -/
theorem scanNode_minus {cs rest : List Char} (hcs : skipSpace cs = '-' :: rest) (fuel : Nat) :
    scanNode (fuel + 1) cs = scanNumber true rest := by
  rw [scanNode, hcs]
  rfl

/-- A float is read back with its sign. -/
theorem scanNode_documentText (x : Binary64) {cs rest : List Char} (hrest : EndsNumber rest)
    (hcs : skipSpace cs = x.documentText ++ rest) (fuel : Nat) :
    scanNode (fuel + 1) cs = (.float x, rest) := by
  have hread := scanNumber_shortest x hrest
  obtain ⟨c, more, hbody, hc⟩ := documentText_head (Decimal.shortest .even x)
  simp only [Binary64.documentText] at hcs
  cases hsign : x.negative with
  | true =>
      rw [hsign, if_pos rfl, List.cons_append] at hcs
      rw [hsign] at hread
      rw [scanNode_minus hcs, hread]
  | false =>
      rw [hsign, if_neg Bool.false_ne_true, hbody] at hcs
      rw [hsign, hbody] at hread
      rw [scanNode_digit hc hcs]
      exact hread

/-- An integer is read back with its sign. -/
theorem scanNode_intText {n : Int} (h : -2 ^ 63 ≤ n ∧ n < 2 ^ 64) {cs rest : List Char}
    (hrest : EndsNumber rest) (hcs : skipSpace cs = Value.intText n ++ rest) (fuel : Nat) :
    scanNode (fuel + 1) cs = (.int n, rest) := by
  obtain ⟨c, more, hdigits, hc⟩ := toDigits_eq_cons n.natAbs
  have hread := fun negative ↦ scanNumber_toDigits negative n.natAbs hrest
  by_cases hsign : n < 0
  · -- Only a negative integer has a sign; it is the sign of the number behind it.
    rw [Value.intText, if_pos hsign, List.cons_append] at hcs
    rw [scanNode_minus hcs, hread, integerNode, if_pos (by simp; omega)]
    congr 2
    omega
  · rw [Value.intText, if_neg hsign, hdigits] at hcs
    rw [hdigits] at hread
    rw [scanNode_digit hc hcs]
    refine (hread false).trans ?_
    rw [integerNode, if_neg (by simp), if_pos (by simp; omega)]
    congr 2
    omega

/-- A string is read back as a value. -/
theorem scanNode_stringText (s : String) {cs rest : List Char}
    (hcs : skipSpace cs = Value.stringText s ++ rest) (fuel : Nat) :
    scanNode (fuel + 1) cs = (.str s, rest) := by
  rw [Value.stringText, List.cons_append, List.append_assoc, List.singleton_append] at hcs
  simp [scanNode, hcs, scanString_escape]

/-- A list that is not empty. -/
theorem scanNode_list {cs inside rest : List Char} {items : List Node} {fuel : Nat}
    (hcs : skipSpace cs = '[' :: inside) (hne : (skipSpace inside).head? ≠ some ']')
    (hitems : scanItems fuel inside = (items, none, rest)) :
    scanNode (fuel + 1) cs = (.list items none, rest) := by
  cases hinside : skipSpace inside with
  | nil => simp [scanNode, hcs, hinside, hitems]
  | cons c more =>
      have hc : c ≠ ']' := fun heq ↦ hne (by rw [hinside, heq, List.head?_cons])
      simp [scanNode, hcs, hinside, hc, hitems]

/-- An object that is not empty. -/
theorem scanNode_object {cs inside rest : List Char} {members : List (Option String × Node)}
    {fuel : Nat} (hcs : skipSpace cs = '\x7b' :: inside)
    (hne : (skipSpace inside).head? ≠ some '\x7d')
    (hmembers : scanMembers fuel inside = (members, none, rest)) :
    scanNode (fuel + 1) cs = (.object members none, rest) := by
  cases hinside : skipSpace inside with
  | nil => simp [scanNode, hcs, hinside, hmembers]
  | cons c more =>
      have hc : c ≠ '\x7d' := fun heq ↦ hne (by rw [hinside, heq, List.head?_cons])
      simp [scanNode, hcs, hinside, hc, hmembers]

/-- With this fuel every value whose text it suffices for is read back. -/
def NodesRead (fuel : Nat) : Prop :=
  ∀ (level : Nat) (v : Value) (cs rest : List Char), (Node.ofValue v).IntsFit → EndsNumber rest →
    2 * (v.prettyAt level).length ≤ fuel → skipSpace cs = v.prettyAt level ++ rest →
    scanNode fuel cs = (.ofValue v, rest)

/-- With this fuel the items of a list are read back from one of them on. -/
def ItemsRead (fuel : Nat) : Prop :=
  ∀ (level : Nat) (v : Value) (items : List Value) (cs rest : List Char),
    (Node.ofValue v).IntsFit → ItemsFit (Node.ofItems items) →
    2 * ((v.prettyAt (level + 1)).length + (Value.prettyItems level items).length) < fuel →
    skipSpace cs = v.prettyAt (level + 1) ++ (Value.prettyItems level items ++ rest) →
    scanItems fuel cs = (.ofValue v :: Node.ofItems items, none, rest)

/-- With this fuel the members of an object are read back from one of them on. -/
def MembersRead (fuel : Nat) : Prop :=
  ∀ (level : Nat) (name : String) (v : Value) (members : List (String × Value))
    (cs rest : List Char), (Node.ofValue v).IntsFit → MembersFit (Node.ofMembers members) →
    2 * ((v.prettyAt (level + 1)).length + (Value.prettyMembers level members).length) < fuel →
    skipSpace cs = Value.stringText name ++
      ':' :: ' ' :: (v.prettyAt (level + 1) ++ (Value.prettyMembers level members ++ rest)) →
    scanMembers fuel cs = ((some name, .ofValue v) :: Node.ofMembers members, none, rest)

theorem nodesRead_succ {fuel : Nat} (hitemsRead : ItemsRead fuel)
    (hmembersRead : MembersRead fuel) : NodesRead (fuel + 1) := by
  intro level v cs rest hfit hrest hfuel hcs
  match v with
  | .null | .bool true | .bool false =>
      rw [scanNode, hcs]
      rfl
  | .int n => exact scanNode_intText hfit hrest hcs fuel
  | .float x => exact scanNode_documentText x hrest hcs fuel
  | .str s => exact scanNode_stringText s hcs fuel
  | .list [] | .object [] =>
      rw [scanNode, hcs]
      rfl
  | .list (v :: items) =>
      obtain ⟨hv, hitems⟩ := hfit
      rw [Value.prettyAt, List.cons_append, List.append_assoc, List.append_assoc] at hcs
      rw [Value.prettyAt, List.length_cons, List.length_append, List.length_append] at hfuel
      -- Behind the bracket there is a line break, which the first item is read across.
      have hinside := (skipSpace_newline (level + 1) _).trans
        (skipSpace_prettyAt (level + 1) v (Value.prettyItems level items ++ rest))
      refine scanNode_list hcs ?_ (hitemsRead level v items _ rest hv hitems (by omega) hinside)
      rw [hinside]
      exact head_prettyAt _ _ _
  | .object ((name, v) :: members) =>
      obtain ⟨hv, hmembers⟩ := hfit
      rw [Value.prettyAt] at hcs hfuel
      simp only [List.append_assoc, List.cons_append, List.length_cons, List.length_append]
        at hcs hfuel
      have hinside := (skipSpace_newline (level + 1) _).trans (skipSpace_stringText name
        (':' :: ' ' :: (v.prettyAt (level + 1) ++ (Value.prettyMembers level members ++ rest))))
      refine scanNode_object hcs ?_
        (hmembersRead level name v members _ rest hv hmembers (by omega) hinside)
      rw [hinside]
      simp [Value.stringText]

theorem itemsRead_succ {fuel : Nat} (hnodesRead : NodesRead fuel) (hitemsRead : ItemsRead fuel) :
    ItemsRead (fuel + 1) := by
  intro level v items cs rest hv hitems hfuel hcs
  have hfirst := hnodesRead (level + 1) v cs _ hv (endsNumber_prettyItems level items rest)
    (by omega) hcs
  simp only [scanItems, hfirst, stop?_ofValue]
  match items with
  | [] =>
      rw [Value.prettyItems, List.append_assoc, skipSpace_newline]
      rfl
  | w :: more =>
      obtain ⟨hw, hmore⟩ := hitems
      have hcomma : ∀ text, skipSpace (',' :: text) = ',' :: text := skipSpace_cons (by decide)
      rw [Value.prettyItems] at hfuel ⊢
      simp only [List.append_assoc, List.cons_append, List.length_cons, List.length_append]
        at hfuel ⊢
      have hnext := (skipSpace_newline (level + 1) _).trans
        (skipSpace_prettyAt (level + 1) w (Value.prettyItems level more ++ rest))
      simp only [hcomma, hitemsRead level w more _ rest hw hmore (by omega) hnext]
      rfl

theorem membersRead_succ {fuel : Nat} (hnodesRead : NodesRead fuel)
    (hmembersRead : MembersRead fuel) : MembersRead (fuel + 1) := by
  intro level name v members cs rest hv hmembers hfuel hcs
  rw [Value.stringText, List.cons_append, List.append_assoc] at hcs
  have hblank : skipSpace (' ' :: (v.prettyAt (level + 1) ++
      (Value.prettyMembers level members ++ rest))) = _ :=
    skipSpace_prettyAt (level + 1) v _
  have hfirst := hnodesRead (level + 1) v _ _ hv (endsNumber_prettyMembers level members rest)
    (by omega) hblank
  have hcolon : ∀ text, skipSpace (':' :: text) = ':' :: text := skipSpace_cons (by decide)
  simp only [scanMembers, hcs, List.singleton_append, scanString_escape, hcolon, hfirst,
    stop?_ofValue]
  match members with
  | [] =>
      rw [Value.prettyMembers, List.append_assoc, skipSpace_newline]
      rfl
  | (other, w) :: more =>
      obtain ⟨hw, hmore⟩ := hmembers
      have hcomma : ∀ text, skipSpace (',' :: text) = ',' :: text := skipSpace_cons (by decide)
      rw [Value.prettyMembers] at hfuel ⊢
      simp only [List.append_assoc, List.cons_append, List.length_cons, List.length_append]
        at hfuel ⊢
      have hnext := (skipSpace_newline (level + 1) _).trans (skipSpace_stringText other
        (':' :: ' ' :: (w.prettyAt (level + 1) ++ (Value.prettyMembers level more ++ rest))))
      simp only [hcomma, hmembersRead level other w more _ rest hw hmore (by omega) hnext]
      rfl

/-- Any fuel suffices for the texts that it is enough for. -/
theorem reads (fuel : Nat) : NodesRead fuel ∧ ItemsRead fuel ∧ MembersRead fuel := by
  induction fuel with
  | zero =>
      -- No fuel is enough for no text, but every value has one.
      refine ⟨?_, ?_, ?_⟩
      · intro level v cs rest _ _ hfuel _
        obtain ⟨c, more, htext, _⟩ := prettyAt_eq_cons level v
        rw [htext, List.length_cons] at hfuel
        omega
      · intro level v items cs rest _ _ hfuel _
        omega
      · intro level name v members cs rest _ _ hfuel _
        omega
  | succ fuel ih =>
      obtain ⟨hnodes, hitems, hmembers⟩ := ih
      exact ⟨nodesRead_succ hitems hmembers, itemsRead_succ hnodes hitems,
        membersRead_succ hnodes hmembers⟩

/-- The text of a value is read back as the value's node. -/
theorem Node.parse_pretty {v : Value} (hfit : (Node.ofValue v).IntsFit) :
    Node.parse v.pretty = (.ofValue v, []) := by
  have htext := skipSpace_prettyAt 0 v []
  rw [List.append_nil] at htext
  refine (reads _).1 0 v _ [] hfit (by simp [EndsNumber]) (Nat.le_add_right _ 2) ?_
  rw [List.append_nil]
  exact htext

/-! ### Integers in texts -/

theorem intsFit_integerNode (negative : Bool) (n : Nat) : (integerNode negative n).IntsFit := by
  unfold integerNode
  split
  · simp only [Node.IntsFit]
    omega
  · split
    · simp only [Node.IntsFit]
      omega
    · split <;> trivial

theorem intsFit_decimalNode (negative : Bool) (digits : Nat) (exponent : Int) :
    (decimalNode negative digits exponent).IntsFit := by
  unfold decimalNode
  split <;> trivial

theorem intsFit_scanExponent (negative : Bool) (digits places : Nat) (cs : List Char) :
    (scanExponent negative digits places cs).1.IntsFit := by
  unfold scanExponent
  split
  dsimp only
  split
  · trivial
  · exact intsFit_decimalNode _ _ _

theorem intsFit_scanTail (negative : Bool) (digits : Nat) (places : Option Nat)
    (cs : List Char) : (scanTail negative digits places cs).1.IntsFit := by
  unfold scanTail
  split
  · exact intsFit_scanExponent _ _ _ _
  · exact intsFit_scanExponent _ _ _ _
  · split
    · exact intsFit_decimalNode _ _ _
    · exact intsFit_integerNode _ _

theorem intsFit_scanNumber (negative : Bool) (cs : List Char) :
    (scanNumber negative cs).1.IntsFit := by
  unfold scanNumber
  dsimp only
  split
  · trivial
  · split
    · trivial
    · unfold scanFraction
      split
      · dsimp only
        split
        · trivial
        · exact intsFit_scanTail _ _ _ _
      · exact intsFit_scanTail _ _ _ _

theorem intsFit_scanWord {node : Node} (h : node.IntsFit) (word cs : List Char) :
    (scanWord node word cs).1.IntsFit := by
  induction word generalizing cs with
  | nil => exact h
  | cons w word ih =>
      cases cs with
      | nil => trivial
      | cons c cs =>
          rw [scanWord]
          split
          · exact ih cs
          · trivial

/-- With this fuel whatever is read has only integers that fit. -/
structure ScansFit (fuel : Nat) : Prop where
  nodes : ∀ cs, (scanNode fuel cs).1.IntsFit
  items : ∀ cs, ItemsFit (scanItems fuel cs).1
  members : ∀ cs, MembersFit (scanMembers fuel cs).1

theorem ScansFit.nodes_succ {fuel : Nat} (h : ScansFit fuel) (cs : List Char) :
    (scanNode (fuel + 1) cs).1.IntsFit := by
  rw [scanNode]
  split
  · trivial
  · exact intsFit_scanWord (by trivial) _ _
  · exact intsFit_scanWord (by trivial) _ _
  · exact intsFit_scanWord (by trivial) _ _
  · exact intsFit_scanNumber _ _
  · split <;> trivial
  · split
    · trivial
    · exact h.items _
  · split
    · trivial
    · exact h.members _
  · split
    · exact intsFit_scanNumber _ _
    · trivial

theorem ScansFit.items_succ {fuel : Nat} (h : ScansFit fuel) (cs : List Char) :
    ItemsFit (scanItems (fuel + 1) cs).1 := by
  have hnode := h.nodes cs
  rw [scanItems]
  generalize scanNode fuel cs = scanned at *
  obtain ⟨item, after⟩ := scanned
  dsimp only
  split
  · exact ⟨hnode, trivial⟩
  · split
    · exact ⟨hnode, h.items _⟩
    · exact ⟨hnode, trivial⟩
    · exact ⟨hnode, trivial⟩
    · exact ⟨hnode, trivial⟩

theorem ScansFit.members_succ {fuel : Nat} (h : ScansFit fuel) (cs : List Char) :
    MembersFit (scanMembers (fuel + 1) cs).1 := by
  rw [scanMembers]
  split
  · split
    · trivial
    · split
      · next rest _ =>
          have hnode := h.nodes rest
          generalize scanNode fuel rest = scanned at *
          obtain ⟨value, after⟩ := scanned
          dsimp only
          split
          · exact ⟨hnode, trivial⟩
          · split
            · exact ⟨hnode, h.members _⟩
            · exact ⟨hnode, trivial⟩
            · exact ⟨hnode, trivial⟩
            · exact ⟨hnode, trivial⟩
      · exact ⟨trivial, trivial⟩
      · exact ⟨trivial, trivial⟩
  · trivial
  · trivial

theorem scansFit (fuel : Nat) : ScansFit fuel := by
  induction fuel with
  | zero => exact ⟨fun _ ↦ trivial, fun _ ↦ trivial, fun _ ↦ trivial⟩
  | succ fuel ih => exact ⟨ih.nodes_succ, ih.items_succ, ih.members_succ⟩

/-- Whatever is parsed has only integers that fit. -/
theorem Node.intsFit_parse (cs : List Char) : (Node.parse cs).1.IntsFit :=
  (scansFit _).nodes cs

end Chronicle.Json

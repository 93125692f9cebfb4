import Chronicle.Value.Basic

/-!
# Documents as they stand in a text

A `Node` is what a text holds, before anything is asked of it: members may repeat a name, and where
the text stops being a document the tree stops too. A reader takes the nodes in the order of the
text, so the first thing wrong with them is the first thing wrong with the text. Some flaws matter
only to a reader that uses the place: a number that is out of range and half of a surrogate pair
can be passed over.
-/

namespace Chronicle.Json

/-- What is wrong with a text: it breaks the grammar, or it ends too early. -/
inductive Fault where
  | malformed
  | truncated
deriving DecidableEq, Repr

/-- A place where the text stops being a document, as it appears to a reader that uses the value
there and to one that passes over it. -/
structure Break where
  used : Fault
  skipped : Fault
deriving DecidableEq, Repr

/-- A break that looks the same to every reader. -/
def Break.of (fault : Fault) : Break := ⟨fault, fault⟩

/-- A document, or as much of one as the text holds. -/
inductive Node where
  | null
  | bool (b : Bool)
  | int (n : Int)
  | float (x : Binary64)
  | str (s : String)
  /-- The items of a list, and the break that cuts it off. -/
  | list (items : List Node) (stop : Option Break)
  /-- The members of an object, where a name that cannot be used is `none`, and the break that
  cuts it off. -/
  | object (members : List (Option String × Node)) (stop : Option Break)
  /-- A number or string that can only be passed over. -/
  | flawed
  /-- A place without a value. -/
  | broken (place : Break)
deriving Inhabited

namespace Node

/-- The break that ends the text inside the node. A break inside an item or member also cuts off
what contains it. -/
def stop? : Node → Option Break
  | .list _ stop | .object _ stop => stop
  | .broken place => some place
  | _ => none

mutual
/-- The node of a value, which has no flaws. -/
def ofValue : Value → Node
  | .null => .null
  | .bool b => .bool b
  | .int n => .int n
  | .float x => .float x
  | .str s => .str s
  | .list items => .list (ofItems items) none
  | .object members => .object (ofMembers members) none

/-- The nodes of the items of a list. -/
def ofItems : List Value → List Node
  | [] => []
  | v :: rest => ofValue v :: ofItems rest

/-- The nodes of the members of an object. -/
def ofMembers : List (String × Value) → List (Option String × Node)
  | [] => []
  | (name, v) :: rest => (some name, ofValue v) :: ofMembers rest
end

end Node

end Chronicle.Json

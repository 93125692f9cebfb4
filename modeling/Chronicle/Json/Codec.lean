import Chronicle.Json.Parser
import Chronicle.Json.ReadError

/-!
# Codecs

A codec reads a type from a document and writes it as a value. Reading looks at the nodes in the
order of the text and reports the first thing that is wrong.
-/

namespace Chronicle.Json

/-- How a type stands in a document. -/
structure Codec (α : Type) where
  read : Origin → Node → Except ReadError α
  write : α → Value

mutual
/-- The value of a node in a part of a document that is kept as it is. A repeated name keeps its
first position and takes its last value. -/
def Node.toValue : Origin → Node → Except ReadError Value
  | _, .null => .ok .null
  | _, .bool b => .ok (.bool b)
  | _, .int n => .ok (.int n)
  | _, .float x => .ok (.float x)
  | _, .str s => .ok (.str s)
  | origin, .list items stop => do
      let inner ← origin.enter
      let values ← Node.toValues inner items
      closing stop
      pure (.list values)
  | origin, .object members stop => do
      let inner ← origin.enter
      let values ← Node.toMembers inner [] members
      closing stop
      pure (.object values)
  | _, .flawed => .error (.text .malformed)
  | _, .broken place => .error (.text place.used)

/-- The values of the items of a list. -/
def Node.toValues : Origin → List Node → Except ReadError (List Value)
  | _, [] => .ok []
  | origin, node :: rest => do
      let value ← Node.toValue origin node
      let values ← Node.toValues origin rest
      pure (value :: values)

/-- The members of an object, added to those before them. -/
def Node.toMembers :
    Origin → Attributes → List (Option String × Node) → Except ReadError Attributes
  | _, before, [] => .ok before
  | _, _, (none, _) :: _ => .error (.text .malformed)
  | origin, before, (some name, node) :: rest => do
      let value ← Node.toValue origin node
      Node.toMembers origin (Keyed.insert name value before) rest
end

namespace Codec

variable {α : Type}

/-- The number of levels that the used part of a text may nest. -/
def maxLevels : Nat := 127

/-- Reads a whole text. Only blanks may follow the document. -/
def readText (codec : Codec α) (cs : List Char) : Except ReadError α := do
  let (node, rest) := Node.parse cs
  let a ← codec.read (.text maxLevels) node
  if (skipSpace rest).isEmpty then pure a else .error (.text .malformed)

/-- Reads a value in memory. -/
def readValue (codec : Codec α) (v : Value) : Except ReadError α :=
  codec.read .memory (.ofValue v)

/-- Values stand for themselves. -/
def value : Codec Value := ⟨Node.toValue, id⟩

/-- A free-form record. -/
def attributes : Codec Attributes where
  read origin node := match node with
    | .object members stop => do
        let inner ← origin.enter
        let values ← Node.toMembers inner [] members
        closing stop
        pure values
    | _ => .error (node.unexpected "a map")
  write members := .object members

/-- An integer between two bounds. Floats are not integers, whatever their value. -/
def integer (low high : Int) (expected : String) : Codec { n : Int // low ≤ n ∧ n ≤ high } where
  read _ node := match node with
    | .int n =>
      if h : low ≤ n ∧ n ≤ high then .ok ⟨n, h⟩
      else .error (.shape (.wrongValue (.int n) expected))
    | _ => .error (node.unexpected expected)
  write n := .int n

/-- A type that stands in a document as another does. -/
def via {β : Type} (codec : Codec α) (decode : α → β) (encode : β → α) : Codec β where
  read origin node := (codec.read origin node).map decode
  write b := codec.write (encode b)

def int64 : Codec Int64 :=
  (integer (-0x8000000000000000) 0x7FFFFFFFFFFFFFFF "i64").via (fun n ↦ .ofInt n)
    fun n ↦ ⟨n.toInt, n.le_toInt, Int.le_sub_one_of_lt n.toInt_lt⟩

def uint64 : Codec UInt64 :=
  (integer 0 0xFFFFFFFFFFFFFFFF "u64").via (fun n ↦ .ofNat n.val.toNat)
    fun n ↦ ⟨n.toNat, by omega, by have := n.toNat_lt; omega⟩

def uint32 : Codec UInt32 :=
  (integer 0 0xFFFFFFFF "u32").via (fun n ↦ .ofNat n.val.toNat)
    fun n ↦ ⟨n.toNat, by omega, by have := n.toNat_lt; omega⟩

/-- A float. An integer stands for the float nearest to it. -/
def float : Codec Binary64 where
  read _ node := match node with
    | .float x => .ok x
    | .int n => .ok (.ofInt n)
    | _ => .error (node.unexpected "f64")
  write x := .float x

def bool : Codec Bool where
  read _ node := match node with
    | .bool b => .ok b
    | _ => .error (node.unexpected "a boolean")
  write b := .bool b

def str : Codec String where
  read _ node := match node with
    | .str s => .ok s
    | _ => .error (node.unexpected "a string")
  write s := .str s

/-- Null for nothing. -/
def option (codec : Codec α) : Codec (Option α) where
  read origin node := match node with
    | .null => .ok none
    | _ => (codec.read origin node).map some
  write
    | none => .null
    | some a => codec.write a

/-- Reads the items of a list one after another. -/
def readItems (codec : Codec α) (origin : Origin) : List Node → Except ReadError (List α)
  | [] => .ok []
  | node :: rest => do
      let a ← codec.read origin node
      let more ← codec.readItems origin rest
      pure (a :: more)

def list (codec : Codec α) : Codec (List α) where
  read origin node := match node with
    | .list items stop => do
        let inner ← origin.enter
        let values ← codec.readItems inner items
        closing stop
        pure values
    | _ => .error (node.unexpected "a sequence")
  write items := .list (items.map codec.write)

/-- The text that stands for a unit variant of an enumeration, alone or as the one name of an
object whose value is null. -/
def variant (choices : List (String × α)) (label : α → String) : Codec α where
  read origin node :=
    let choose (name : String) : Except ReadError α :=
      match choices.lookup name with
      | some a => .ok a
      | none => .error (.shape (.unknownVariant name (choices.map (·.1))))
    let unit : Node → Except ReadError Unit
      | .null => .ok ()
      | other => .error (other.unexpected "unit")
    match node with
    | .str name => choose name
    | .object members stop =>
      match origin with
      | .memory =>
        match members with
        | [(some name, payload)] => do
            let a ← choose name
            unit payload
            pure a
        | _ => .error (.shape (.wrongValue .map "map with a single key"))
      | .text _ => do
          discard origin.enter
          match members with
          | [] => closing stop
          | (none, _) :: _ => .error (.text .malformed)
          | (some name, payload) :: rest =>
            let a ← choose name
            unit payload
            if !rest.isEmpty then throw (.text .malformed)
            closing stop
            return a
          .error (.text .malformed)
    | .flawed => .error (.text .malformed)
    | .broken place => .error (.text place.used)
    | _ =>
      match origin with
      | .memory => .error (node.unexpected "string or map")
      | .text _ => .error (.text .malformed)
  write a := .str (label a)

end Codec

end Chronicle.Json

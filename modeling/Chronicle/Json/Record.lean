import Chronicle.Json.Codec

/-!
# Records

A record is described once, by its fields in declaration order, and the description serves for
reading and writing. A field has a name, older names that are still read, a codec, and possibly a
default. `Fields σ α` describes fields that write a `σ` and build an `α`, so that descriptions
combine one field at a time.

A record is written as an object with all its fields. It is read from an object with its fields in
any order, among unknown ones, or from a list of its fields in declaration order. Each field is read
where it stands; fields that are missing are noticed at the end, in declaration order.
-/

namespace Chronicle.Json

/-- A field of a record `σ` as its reader and writer see it from outside. -/
structure Field (σ : Type) where
  name : String
  aliases : List String
  check : Origin → Node → Except ReadError Unit
  write : σ → Value

/-- The fields that a document holds, by name. -/
structure Found.Fields where
  origin : Origin
  present : List (String × Node)
  /-- The error for a field without default that is not there. -/
  missing : String → ReadError

/-- A description of fields that write a `σ` and build an `α`. -/
structure Fields (σ α : Type) where
  fields : List (Field σ)
  build : Found.Fields → Except ReadError α

namespace Fields

variable {σ α β : Type}

/-- No fields. -/
def pure (a : α) : Fields σ α := ⟨[], fun _ ↦ .ok a⟩

/-- The fields of both descriptions, in order. -/
def and (f : Fields σ (α → β)) (a : Fields σ α) : Fields σ β where
  fields := f.fields ++ a.fields
  build found := do
    let g ← f.build found
    let x ← a.build found
    Except.ok (g x)

/-- One field, with what it is when the document does not have it. -/
def field (name : String) (codec : Codec α) (get : σ → α)
    (absent : Found.Fields → Except ReadError α) (aliases : List String) : Fields σ α where
  fields := [⟨name, aliases, fun origin node ↦ discard (codec.read origin node),
    fun s ↦ codec.write (get s)⟩]
  build found := match found.present.lookup name with
    | some node => codec.read found.origin node
    | none => absent found

/-- Adds a field that must be there. -/
def required (f : Fields σ (α → β)) (name : String) (codec : Codec α) (get : σ → α)
    (aliases : List String := []) : Fields σ β :=
  f.and (field name codec get (fun found ↦ .error (found.missing name)) aliases)

/-- Adds a field that may be left out. -/
def optional (f : Fields σ (α → β)) (name : String) (codec : Codec α) (get : σ → α)
    (default : α) (aliases : List String := []) : Fields σ β :=
  f.and (field name codec get (fun _ ↦ .ok default) aliases)

/-- The field with the given name, old or new. -/
def find? (f : Fields σ α) (name : String) : Option (Field σ) :=
  f.fields.find? fun field ↦ field.name == name || field.aliases.contains name

/-- The fields among the members of an object, each checked where it stands. -/
def scanMembers (f : Fields σ α) (origin : Origin) (present : List (String × Node)) :
    List (Option String × Node) → Except ReadError (List (String × Node))
  | [] => .ok present
  | (none, _) :: _ => .error (.text .malformed)
  | (some name, node) :: rest =>
    match f.find? name with
    | some field => do
        if (present.lookup field.name).isSome then
          throw (.shape (.duplicateField field.name))
        field.check origin node
        scanMembers f origin (present ++ [(field.name, node)]) rest
    | none => do
        node.skip
        scanMembers f origin present rest

/-- The fields among the items of a list, each checked where it stands. -/
def scanItems (origin : Origin) :
    List (Field σ) → List Node → Except ReadError (List (String × Node))
  | [], _ | _, [] => .ok []
  | field :: fields, node :: rest => do
      field.check origin node
      let present ← scanItems origin fields rest
      Except.ok ((field.name, node) :: present)

/-- The members that a record is written with. -/
def members (f : Fields σ α) (s : σ) : Attributes :=
  f.fields.map fun field ↦ (field.name, field.write s)

end Fields

/-- The end of a list, once the fields of a record are read from its first items. -/
def closingItems (origin : Origin) (size : Nat) (items : List Node) (stop : Option Break) :
    Except ReadError Unit :=
  if size < items.length then
    match origin with
    | .memory => .error (.shape (.wrongLength items.length "fewer elements in array"))
    | .text _ => .error (.text .malformed)
  else closing stop

/-- The codec of a record with the given name. -/
def Codec.record {α : Type} (name : String) (f : Fields α α) : Codec α where
  read origin node := match node with
    | .object members stop => do
        let inner ← origin.enter
        let present ← f.scanMembers inner [] members
        closing stop
        f.build ⟨inner, present, fun field ↦ .shape (.missingField field)⟩
    | .list items stop => do
        let inner ← origin.enter
        let size := f.fields.length
        let present ← Fields.scanItems inner f.fields items
        closing (if items.length < size then stop else none)
        let elements := if size = 1 then "element" else "elements"
        let value ← f.build ⟨inner, present, fun field ↦ .shape (.wrongLength
          (f.fields.findIdx fun other ↦ other.name == field)
          s!"struct {name} with {size} {elements}")⟩
        closingItems origin size items stop
        pure value
    | _ => .error (node.unexpected s!"struct {name}")
  write a := .object (f.members a)

end Chronicle.Json

import Chronicle.Json.Node
import Chronicle.Text.Quoted
import Chronicle.Decimal

/-!
# Why a document cannot be read

A document fails to be read because its text is at fault or because a part of it has the wrong
shape. A shape error names what was found and what was expected there. The line and the column of
the place, and what exactly breaks the grammar of a text, are left out.
-/

namespace Chronicle.Json

/-- What stands at a place of a document, as a message names it. -/
inductive Found where
  | null
  | bool (b : Bool)
  | int (n : Int)
  | float (x : Binary64)
  | str (s : String)
  | sequence
  | map
deriving DecidableEq, Repr

/-- A part of a document has a shape that its reader has no use for. -/
inductive ShapeError where
  | missingField (field : String)
  | duplicateField (field : String)
  /-- Another kind of value is expected. -/
  | wrongType (found : Found) (expected : String)
  /-- The kind of value is right and the value is out of bounds. -/
  | wrongValue (found : Found) (expected : String)
  | wrongLength (length : Nat) (expected : String)
  | unknownVariant (variant : String) (choices : List String)
  /-- A text is not in the format that its place requires. -/
  | badFormat (reason : String)
deriving DecidableEq, Repr

/-- A document could not be read. -/
inductive ReadError where
  | text (fault : Fault)
  | shape (cause : ShapeError)
deriving DecidableEq, Repr

def Found.message : Found → String
  | .null => "null"
  | .bool b => s!"boolean `{b}`"
  | .int n => s!"integer `{n}`"
  | .float x => s!"floating point `{String.ofList x.documentText}`"
  | .str s => s!"string {Text.quoted s}"
  | .sequence => "sequence"
  | .map => "map"

def ShapeError.message : ShapeError → String
  | .missingField field => s!"missing field `{field}`"
  | .duplicateField field => s!"duplicate field `{field}`"
  | .wrongType found expected => s!"invalid type: {found.message}, expected {expected}"
  | .wrongValue found expected => s!"invalid value: {found.message}, expected {expected}"
  | .wrongLength length expected => s!"invalid length {length}, expected {expected}"
  | .unknownVariant variant choices =>
    let names := ", ".intercalate (choices.map fun choice ↦ s!"`{choice}`")
    s!"unknown variant `{variant}`, expected one of {names}"
  | .badFormat reason => reason

def ReadError.message : ReadError → String
  | .text .malformed => "malformed document"
  | .text .truncated => "unexpected end of the document"
  | .shape cause => cause.message

/-- The error of a reader that has no use for the node: the node's own flaw, or its type. -/
def Node.unexpected (node : Node) (expected : String) : ReadError :=
  match node with
  | .null => .shape (.wrongType .null expected)
  | .bool b => .shape (.wrongType (.bool b) expected)
  | .int n => .shape (.wrongType (.int n) expected)
  | .float x => .shape (.wrongType (.float x) expected)
  | .str s => .shape (.wrongType (.str s) expected)
  | .list _ _ => .shape (.wrongType .sequence expected)
  | .object _ _ => .shape (.wrongType .map expected)
  | .flawed => .text .malformed
  | .broken place => .text place.used

/-- Passing over a node fails only where its text breaks off. -/
def Node.skip (node : Node) : Except ReadError Unit :=
  match node.stop? with
  | some place => .error (.text place.skipped)
  | none => .ok ()

/-- The end of a list or object, once all that it holds is read. -/
def closing (stop : Option Break) : Except ReadError Unit :=
  match stop with
  | some place => .error (.text place.used)
  | none => .ok ()

/-- Where a document comes from. A text may nest only so many levels in the parts that are used;
a value in memory may nest without limit. -/
inductive Origin where
  | text (levels : Nat)
  | memory
deriving DecidableEq, Repr

/-- The origin of what stands one level deeper. -/
def Origin.enter : Origin → Except ReadError Origin
  | .text 0 => .error (.text .malformed)
  | .text (levels + 1) => .ok (.text levels)
  | .memory => .ok .memory

end Chronicle.Json

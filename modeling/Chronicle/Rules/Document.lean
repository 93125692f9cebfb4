import Chronicle.Json.Record
import Chronicle.Rules.Basic
import Chronicle.Sorting
import Chronicle.Storage.Folder

/-!
# Rule documents

A rule document has the events by category and the definitions by name. Whatever has a name that
starts with an underscore is a note and is passed over. The rules of a document are ordered by
priority; among rules of one priority the document's order stands. A definition cannot take the
name of a builtin value.
-/

namespace Chronicle

/-- A rule document, before its parts are looked at. -/
structure RuleDocument where
  events : Attributes
  definitions : Attributes

/-- A rule as it is written under the id of its event. -/
structure RuleEntry where
  condition : String
  description : String
  priority : Int64
  extractions : List String

open Json Codec

def RuleDocument.fields : Fields RuleDocument RuleDocument :=
  (Fields.pure RuleDocument.mk)
    |>.optional "state_change_events" attributes events []
    |>.optional "computed_values" attributes definitions []

def RuleDocument.codec : Codec RuleDocument := .record "RuleDocument" fields

def RuleEntry.fields : Fields RuleEntry RuleEntry :=
  (Fields.pure RuleEntry.mk)
    |>.optional "condition" str condition ""
    |>.optional "description" str description ""
    |>.optional "priority" int64 priority 10
    |>.optional "data_extract" (list str) extractions []

def RuleEntry.codec : Codec RuleEntry := .record "RawRule" fields

/-- Why there is no rule book. -/
inductive RuleError where
  /-- The file of the document cannot be read as text. Its path and the cause are left out. -/
  | unreadable
  | document (cause : ReadError)
  /-- A category is not an object. -/
  | category (category : String)
  | rule (category event : String) (cause : ReadError)
  /-- A definition has no text. -/
  | definition (name : String)
deriving DecidableEq, Repr

namespace RuleError

def message : RuleError → String
  | unreadable => "failed to read rule file"
  | document cause => s!"failed to parse rule document: {cause.message}"
  | category name => s!"event category `{name}` must be an object of rules"
  | rule owner event cause => s!"invalid rule `{owner}.{event}`: {cause.message}"
  | definition name =>
    s!"computed value `{name}` must be a string or an object with `expression`"

end RuleError

/-- Names with a leading underscore are reserved for notes. -/
def isReserved (name : String) : Bool := name.toList.head? == some '_'

namespace RuleBook

/-- The rule that is written under an event. -/
def readRule (category event : String) (v : Value) : Except RuleError EventRule :=
  match RuleEntry.codec.readValue v with
  | .ok entry => .ok
      { event, category
        source := entry.condition
        description := entry.description
        priority := entry.priority
        extractions := entry.extractions.map .mk }
  | .error cause => .error (.rule category event cause)

/-- The rules of a category, in the order of the document. -/
def readRules (category : String) : Attributes → Except RuleError (List EventRule)
  | [] => .ok []
  | (event, v) :: rest =>
    if isReserved event then readRules category rest
    else do
      let rule ← readRule category event v
      let rules ← readRules category rest
      Except.ok (rule :: rules)

/-- The rules of all categories, in the order of the document. -/
def readCategories : Attributes → Except RuleError (List EventRule)
  | [] => .ok []
  | (category, v) :: rest =>
    if isReserved category then readCategories rest
    else match v with
      | .object events => do
          let rules ← readRules category events
          let more ← readCategories rest
          Except.ok (rules ++ more)
      | _ => .error (.category category)

/-- The text of a definition, which stands alone or as its expression. -/
def definitionText? : Value → Option String
  | .str s => some s
  | .object members =>
    match members.lookup "expression" with
    | some (.str s) => some s
    | _ => none
  | _ => none

/-- The definitions, in the order of the document. -/
def readDefinitions : Attributes → Except RuleError (List Definition)
  | [] => .ok []
  | (name, v) :: rest =>
    match definitionText? v with
    | none => .error (.definition name)
    | some source => do
        let definitions ← readDefinitions rest
        Except.ok (if Transition.builtinNames.contains name then definitions
          else ⟨name, source⟩ :: definitions)

/-- Rules are tried by ascending priority. -/
def precedes (a b : EventRule) : Bool := a.priority ≤ b.priority

/-- The rule book of a document. -/
def ofDocument (document : RuleDocument) : Except RuleError RuleBook := do
  let rules ← readCategories document.events
  let definitions ← readDefinitions document.definitions
  Except.ok
    { definitions
      categories := (Keyed.keys document.events).filter fun name ↦ !isReserved name
      rules := sorted precedes rules }

/-- The rule book in a text. -/
def parse (cs : List Char) : Except RuleError RuleBook :=
  match RuleDocument.codec.readText cs with
  | .ok document => ofDocument document
  | .error cause => .error (.document cause)

/-- The rule book at a path, which has no rules where there is nothing. -/
def load : Option Entry → Except RuleError RuleBook
  | none => .ok empty
  | some (.text cs) => parse cs
  | some _ => .error .unreadable

end RuleBook

end Chronicle

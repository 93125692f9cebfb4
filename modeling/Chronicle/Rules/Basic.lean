import Chronicle.Condition.Compilation
import Chronicle.Transition.Builtin

/-!
# Rules

A rule infers an event wherever its condition holds, and extracts data for it. A rule book has its
rules in the order in which they are tried, and the values that conditions may refer to by name
besides the builtin ones.
-/

namespace Chronicle

/-- A value that is recorded with an event. -/
structure Extraction where
  source : String
deriving DecidableEq, Repr

namespace Extraction

/-- The condition whose value is extracted. -/
def condition (e : Extraction) : Condition := .compile e.source.toList

/-- The name of the extracted value: what follows the last point, without parentheses. -/
def key (e : Extraction) : String :=
  let last := (Text.pieces '.' e.source.toList).getLast?.getD []
  String.ofList (last.filter fun c ↦ c != '(' && c != ')')

end Extraction

/-- A rule. -/
structure EventRule where
  /-- The id of the event that the rule infers. -/
  event : String
  category : String
  /-- The condition as written. -/
  source : String
  description : String
  /-- Rules with a lower priority are tried first. -/
  priority : Int64
  extractions : List Extraction
deriving DecidableEq, Repr

/-- The condition under which the event is inferred. -/
def EventRule.condition (r : EventRule) : Condition := .compile r.source.toList

/-- A value that a rule document defines. -/
structure Definition where
  name : String
  /-- The expression as written. -/
  source : String
deriving DecidableEq, Repr

/-- The expression that has the value. -/
def Definition.condition (d : Definition) : Condition := .compile d.source.toList

/-- The rules and definitions of a document. -/
structure RuleBook where
  /-- The categories in the order of the document. -/
  categories : List String
  /-- The rules by ascending priority. -/
  rules : List EventRule
  /-- The definitions in the order of the document. -/
  definitions : List Definition
deriving DecidableEq, Repr

namespace RuleBook

def empty : RuleBook := ⟨[], [], []⟩

/-- The rules of a category, by ascending priority. -/
def rulesIn (book : RuleBook) (category : String) : List EventRule :=
  book.rules.filter (·.category == category)

end RuleBook

end Chronicle

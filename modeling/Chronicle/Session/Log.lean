import Chronicle.Text.Quoted
import Chronicle.Text.Split

/-!
# Log lines

A log line has a message and fields. What a filter shows is settled by directives, each of which
sets the level up to which lines are shown; of those that match a line the one with the longest
target decides.
-/

namespace Chronicle

/-- How important a line is, or up to which level lines are shown. -/
inductive Level where
  | off | error | warn | info | debug | trace
deriving DecidableEq, Repr

namespace Level

def rank : Level → Nat
  | off => 0
  | error => 1
  | warn => 2
  | info => 3
  | debug => 4
  | trace => 5

def all : List Level := [off, error, warn, info, debug, trace]

def name : Level → String
  | off => "off"
  | error => "error"
  | warn => "warn"
  | info => "info"
  | debug => "debug"
  | trace => "trace"

/-- The level that a text stands for, by its number or by its name in any case. -/
def ofText? (cs : List Char) : Option Level :=
  let digits := match cs with
    | '+' :: rest => rest
    | _ => cs
  if !digits.isEmpty ∧ digits.all Char.isDigit then
    all.find? fun level ↦ level.rank = Nat.ofDigitChars 10 digits 0
  else if cs.isEmpty then some error
  else all.find? fun level ↦ level.name.toList = cs.map Char.toLower

end Level

/-- A line about the progress of a session. -/
structure LogLine where
  message : String
  fields : List (String × String)
deriving DecidableEq, Repr

namespace LogLine

/-- The level of every line about progress. -/
def level : Level := .info

/-- The target of every line about progress. -/
def target : List Char := "playtest_replay".toList

/-- The message and the fields behind it. -/
def text (line : LogLine) : String :=
  " ".intercalate (line.message :: line.fields.map fun (name, value) ↦ s!"{name}={value}")

end LogLine

/-- What a directive says of the lines that it matches. -/
structure Directive where
  /-- What the target of a line must start with. -/
  target : Option (List Char)
  /-- The fields that a line must have. -/
  fields : List (List Char)
  /-- The directive is only about lines inside of named spans or with given values. -/
  isScoped : Bool
  level : Level
deriving DecidableEq, Repr

namespace Directive

/-- The fields in braces: their names, and whether a value is given for one of them. -/
def fields? (cs : List Char) : Option (List (List Char) × Bool) :=
  if cs.isEmpty then none
  else some ([cs.takeWhile (· != '=')], cs.contains '=')

/-- What follows the target: an equals sign and the level, or nothing for every level. -/
def level? : List Char → Option Level
  | [] => some .trace
  | '=' :: [] => some .trace
  | '=' :: rest => Level.ofText? rest
  | _ => none

/-- A directive with a scope in brackets behind its target. -/
def scoped? (target : Option (List Char)) (cs : List Char) : Option Directive := do
  let span := cs.takeWhile fun c ↦ c != ']' && c != '\x7b'
  match cs.drop span.length with
  | ']' :: rest =>
    let level ← level? rest
    some ⟨target, [], true, level⟩
  | '\x7b' :: rest =>
    let (fields, hasValue) ← fields? (rest.takeWhile (· != '\x7d'))
    match rest.dropWhile (· != '\x7d') with
    | '\x7d' :: ']' :: rest =>
      let level ← level? rest
      some ⟨target, fields, !span.isEmpty || hasValue, level⟩
    | _ => none
  | _ => none

/-- The directive in a text: a level, or a target and possibly a scope and a level. -/
def ofText? (cs : List Char) : Option Directive :=
  match cs with
  | [] => none
  | '[' :: rest => scoped? none rest
  | c :: _ =>
    if !(c.isAlphanum || 0x80 ≤ c.toNat || c == '-' || c == ':' || c == '_') then none
    else
      let target := cs.takeWhile fun c ↦ c != '=' && c != '['
      match cs.drop target.length with
      | [] => match Level.ofText? target with
        | some level => some ⟨none, [], false, level⟩
        | none => some ⟨some target, [], false, .trace⟩
      | '[' :: rest => scoped? (some target) rest
      | rest => (level? rest).map fun level ↦ ⟨some target, [], false, level⟩

/-- The directive is about the line. -/
def covers (d : Directive) (line : LogLine) : Bool :=
  !d.isScoped && d.target.all (·.isPrefixOf LogLine.target) &&
    d.fields.all fun field ↦
      field = "message".toList || line.fields.any fun (name, _) ↦ name.toList == field

/-- How closely a directive describes the lines that it is about. -/
def weight (d : Directive) : Nat :=
  2 * (match d.target with
    | some target => target.length + 1
    | none => 0) + d.fields.length

end Directive

/-- The directives of a filter. -/
abbrev LogFilter := List Directive

namespace LogFilter

/-- The directives in a text, where commas are between them. -/
def parts (cs : List Char) : List (List Char) := (Text.pieces ',' cs).filter fun part ↦ !part.isEmpty

/-- The filter in a text, if all its directives are well formed. -/
def strict? (cs : List Char) : Option LogFilter := (parts cs).mapM Directive.ofText?

/-- The filter in a text without the directives that are not well formed. -/
def lenient (cs : List Char) : LogFilter := (parts cs).filterMap Directive.ofText?

/-- The closest directive about the line, and of several as close the last one, lets it pass. -/
def shows (filter : LogFilter) (line : LogLine) : Bool :=
  let closest := filter.foldl (fun (best : Option Directive) d ↦
    if d.covers line ∧ best.all (·.weight ≤ d.weight) then some d else best) none
  closest.any fun d ↦ LogLine.level.rank ≤ d.level.rank

end LogFilter

end Chronicle

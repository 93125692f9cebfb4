import Chronicle.Settings.Basic
import Chronicle.Storage.Folder
import Chronicle.Text.Split
import Chronicle.Yaml.Node

/-!
# Settings documents

Settings are written as a YAML mapping of sections. What is not there has its default, and so has a
section with nothing behind its name; names that are not known are passed over. A plain scalar is a
number or a truth value if its place requires one, and a text wherever a text is required.
-/

namespace Chronicle

open Yaml

/-- A node where nothing is written. -/
def Yaml.Node.isBlank : Node → Bool
  | .scalar text .plain _ => text == ""
  | _ => false

namespace Settings

/-- The number that digits of a base write, for bases up to sixteen. -/
def digits? (base : Nat) (cs : List Char) : Option Nat :=
  if cs.isEmpty then none
  else (cs.mapM hexDigit?).bind fun values ↦
    if values.all (· < base) then some (values.foldl (fun n d ↦ base * n + d) 0) else none

/-- The natural number that a plain scalar writes, in decimal without leading zeros or in the base
that it names, below a limit. -/
def number? (limit : Nat) (text : String) : Option Nat :=
  let cs := match text.toList with
    | '+' :: rest => rest
    | cs => cs
  let n := match cs with
    | '0' :: 'x' :: rest => digits? 16 rest
    | '0' :: 'o' :: rest => digits? 8 rest
    | '0' :: 'b' :: rest => digits? 2 rest
    | '0' :: _ :: _ => none
    | _ => digits? 10 cs
  n.filter (· < limit)

/-- The truth value that a plain scalar writes. -/
def truth? (text : String) : Option Bool :=
  if ["true", "True", "TRUE"].contains text then some true
  else if ["false", "False", "FALSE"].contains text then some false
  else none

/-- The scalar writes nothing. -/
def isNull (text : String) : Bool := ["", "~", "null", "Null", "NULL"].contains text

/-- The tag of a type of the language. -/
def coreTag (type : String) : String := "tag:yaml.org,2002:" ++ type

/-- The text of a scalar that may be read as the given type: a plain one, or a literal block that
is tagged with it. -/
def typedText? (type : String) : Node → Option String
  | .scalar text .plain _ => some text
  | .scalar text .literal tag => if tag = some (coreTag type) then some text else none
  | _ => none

def readNumber (limit : Nat) (node : Node) : Option Nat := (typedText? "int" node).bind (number? limit)

def readTruth (node : Node) : Option Bool := (typedText? "bool" node).bind truth?

def readText : Node → Option String
  | .scalar text _ _ => some text
  | _ => none

/-- A text that may be left out. A tag of the null type requires that it is. -/
def readOptionalText : Node → Option (Option String)
  | .scalar text .plain tag =>
    if tag = some (coreTag "null") then (if isNull text ∧ text ≠ "" then some none else none)
    else if tag.isSome then some (some text)
    else some (if isNull text then none else some text)
  | node => (readText node).map some

def readTexts : Node → Option (List String)
  | .sequence items => items.mapM readText
  | node => if node.isBlank then some [] else none

/-- The entries of a section whose names are known; none of them may repeat. -/
def section? (names : List String) : Node → Option (List (String × Node))
  | .mapping entries => do
      let named ← entries.mapM fun (k, v) ↦ (readText k).map fun name ↦ (name, v)
      let known := named.filter fun (name, _) ↦ names.contains name
      if (known.map (·.1)).Nodup then some known else none
  | node => if node.isBlank then some [] else none

/-- The value of a name in a section, or its default. -/
def entry {α : Type} (section_ : List (String × Node)) (name : String) (read : Node → Option α)
    (default : α) : Option α :=
  match section_.lookup name with
  | some node => read node
  | none => some default

/-- A section of a document. -/
def subsection (document : List (String × Node)) (name : String) (names : List String) :
    Option (List (String × Node)) :=
  entry document name (section? names) []

/-- The settings in a node. -/
def ofNode (node : Node) : Option Settings := do
  let document ← section? ["snapshots", "rules", "diff", "logging"] node
  let snapshots ← subsection document "snapshots"
    ["full_snapshot_interval", "max_incremental_chain", "checkpoint_triggers", "snapshot_dir"]
  let rules ← subsection document "rules" ["path"]
  let diff ← subsection document "diff" ["force_legacy"]
  let logging ← subsection document "logging" ["level"]
  let strategy := default.strategy
  let interval ← entry snapshots "full_snapshot_interval" (readNumber UInt64.size) strategy.interval
  let maxChain ← entry snapshots "max_incremental_chain" (readNumber UInt32.size) strategy.maxChain
  let triggers ← entry snapshots "checkpoint_triggers" readTexts strategy.triggers
  let snapshotPath ← entry snapshots "snapshot_dir" readOptionalText default.snapshotPath
  let rulesPath ← entry rules "path" readText default.rulesPath
  let bypassRules ← entry diff "force_legacy" readTruth default.bypassRules
  let logFilter ← entry logging "level" readText default.logFilter
  some ⟨⟨interval, maxChain, triggers⟩, snapshotPath, rulesPath, bypassRules, logFilter⟩

/-- Why there are no settings. The path and what is wrong with the file or its text are left out. -/
inductive Error where
  | unreadable
  | malformed
deriving DecidableEq, Repr

/-- The settings in a text. -/
def parse (cs : List Char) : Except Error Settings :=
  match Node.parse cs with
  | some .absent => .ok default
  | some (.present node) =>
    match ofNode node with
    | some settings => .ok settings
    | none => .error .malformed
  | none => .error .malformed

/-- The settings in a file, which must be there. -/
def load : Option Entry → Except Error Settings
  | some (.text cs) => parse cs
  | _ => .error .unreadable

end Settings

end Chronicle

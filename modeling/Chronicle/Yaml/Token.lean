import Chronicle.Yaml.Scalar

/-!
# The tokens of a YAML text

Indentation turns into tokens that open and close block collections. Whether a scalar is a key shows
only at the colon behind it, so its place among the tokens is remembered while it may still become
one: on its own line and within a thousand characters.
-/

namespace Chronicle.Yaml

/-- How a scalar is written. -/
inductive Style where
  | plain | quoted | literal | folded
deriving DecidableEq, Repr

/-- A token. -/
inductive Token where
  | directive
  | documentStart | documentEnd
  | blockSequence | blockMapping | blockEnd
  | flowSequence | flowSequenceEnd | flowMapping | flowMappingEnd
  | blockEntry | flowEntry
  | key | value
  | alias (name : String)
  | anchor (name : String)
  | tag (name : String)
  | scalar (text : String) (style : Style)
deriving DecidableEq, Repr

/-- A place where a key may start. -/
structure KeyPlace where
  /-- The line can only be continued as a key. -/
  required : Bool
  /-- The number of tokens before it. -/
  tokens : Nat
  cursor : Cursor

/-- A scan in progress. -/
structure Scanner where
  cursor : Cursor
  /-- The tokens so far, the last one first. -/
  tokens : List Token
  /-- The column of the innermost block collection, or `-1`. -/
  indent : Int
  /-- The columns of the collections around it. -/
  outer : List Int
  /-- A key may start here. -/
  keyAllowed : Bool
  /-- The pending key of each bracket level and of the block level around them, innermost first. -/
  keys : List (Option KeyPlace)

namespace Scanner

def start (cs : List Char) : Scanner := ⟨.start cs, [], -1, [], true, [none]⟩

/-- The scan is between brackets. -/
def inFlow (s : Scanner) : Bool := 1 < s.keys.length

def push (s : Scanner) (token : Token) : Scanner := { s with tokens := token :: s.tokens }

/-- Puts a token behind the first `count` tokens. -/
def insertAt (s : Scanner) (count : Nat) (token : Token) : Scanner :=
  let later := s.tokens.length - count
  { s with tokens := s.tokens.take later ++ token :: s.tokens.drop later }

/-- Skips blanks, comments, and empty lines up to the next token. A tab is skipped only where no
indentation is measured. -/
def skipToToken : Nat → Scanner → Scanner
  | 0, s => s
  | fuel + 1, s =>
    let isSkipped (c : Char) := c == ' ' || ((s.inFlow || !s.keyAllowed) && c == '\t')
    let (_, cur) := s.cursor.takeWhile isSkipped
    let cur := if cur.peek 0 = some '#' then (cur.takeWhile fun c ↦ !isBreak c).2 else cur
    if (cur.peek 0).any isBreak then
      skipToToken fuel
        { s with cursor := cur.nextLine.2, keyAllowed := s.keyAllowed || !s.inFlow }
    else { s with cursor := cur }

/-- Gives up the pending key of the innermost level, unless it is required. -/
def dropKey (s : Scanner) : Option Scanner :=
  match s.keys with
  | some place :: rest => if place.required then none else some { s with keys := none :: rest }
  | _ => some s

/-- Gives up pending keys that are too far behind. -/
def dropStale (s : Scanner) : Option Scanner := do
  let stale (place : KeyPlace) :=
    place.cursor.line < s.cursor.line || place.cursor.index + 1024 < s.cursor.index
  let keys ← s.keys.mapM fun
    | some place => if stale place then (if place.required then none else some none)
      else some (some place)
    | none => some none
  some { s with keys }

/-- Remembers that a key may start here. -/
def saveKey (s : Scanner) : Option Scanner := do
  if !s.keyAllowed then some s
  else
    let s ← s.dropKey
    let required := !s.inFlow && s.indent == s.cursor.column
    some { s with keys := some ⟨required, s.tokens.length, s.cursor⟩ :: s.keys.drop 1 }

/-- Opens a block collection at a deeper column, in front of the tokens after the first `count`. -/
def openBlock (s : Scanner) (column count : Nat) (token : Token) : Scanner :=
  if !s.inFlow ∧ s.indent < column then
    { s.insertAt count token with indent := column, outer := s.indent :: s.outer }
  else s

/-- Closes the block collections that are deeper than a column. -/
def closeBlocks (s : Scanner) (column : Int) : Scanner :=
  if s.inFlow then s else go s.outer s
where
  go : List Int → Scanner → Scanner
    | [], s => s
    | around :: rest, s =>
      if column < s.indent then go rest { s.push .blockEnd with indent := around, outer := rest }
      else s

/-- A token of some characters that stands for itself. -/
def mark (s : Scanner) (token : Token) (count : Nat) (keyAllowed : Bool) : Scanner :=
  { s.push token with cursor := s.cursor.skip count, keyAllowed }

/-- A directive line. Only the versions of the language that are understood may be asked for. -/
def scanDirective (s : Scanner) : Option Scanner := do
  let s ← (s.closeBlocks (-1)).dropKey
  let (line, cur) := s.cursor.takeWhile fun c ↦ !isBreak c
  let words := (String.ofList (line.takeWhile (· != '#'))).splitOn " " |>.filter (· != "")
  match words with
  | ["%YAML", version] =>
    if version = "1.1" ∨ version = "1.2" then
      some { s.push .directive with cursor := cur, keyAllowed := false }
    else none
  | ["%TAG", _, _] => some { s.push .directive with cursor := cur, keyAllowed := false }
  | _ => none

/-- The name behind the sign of an anchor or alias. -/
def scanName (s : Scanner) (token : String → Token) : Option Scanner := do
  let s ← s.saveKey
  let isNameChar (c : Char) := c.isAlphanum || c == '_' || c == '-'
  let (name, cur) := (s.cursor.skip 1).takeWhile isNameChar
  let ends := match cur.peek 0 with
    | some c => isSpacing (some c) || "?:,]\x7d%@`".toList.contains c
    | none => true
  if name.isEmpty ∨ !ends then none
  else some { s.push (token (String.ofList name)) with cursor := cur, keyAllowed := false }

/-- A tag: one of the language, a local one, or a name in angle brackets. -/
def scanTag (s : Scanner) : Option Scanner := do
  let s ← s.saveKey
  let isUriChar (c : Char) :=
    c.isAlphanum || "_-;/?:@&=+$.!~*'()%".toList.contains c || (!s.inFlow && ",[]".toList.contains c)
  let cur := s.cursor.skip 1
  if cur.peek 0 = some '<' then
    let (name, cur) := (cur.skip 1).takeWhile fun c ↦ isUriChar c || c == ',' || c == '[' || c == ']'
    if name.isEmpty ∨ cur.peek 0 ≠ some '>' ∨ !isSpacing (cur.peek 1) then none
    else some { s.push (.tag (String.ofList name)) with cursor := cur.skip 1, keyAllowed := false }
  else
    let (name, cur) := cur.takeWhile isUriChar
    let known := match name with
      | '!' :: suffix => !suffix.isEmpty && !suffix.contains '!'
      | _ => !name.contains '!'
    let ends := isSpacing (cur.peek 0) || (s.inFlow && cur.peek 0 == some ',')
    let full := match name with
      | '!' :: suffix => "tag:yaml.org,2002:".toList ++ suffix
      | _ => '!' :: name
    if !known ∨ !ends then none
    else some { s.push (.tag (String.ofList full)) with cursor := cur, keyAllowed := false }

/-- The sign of an entry of a block sequence. -/
def scanBlockEntry (s : Scanner) : Option Scanner := do
  if !s.inFlow ∧ !s.keyAllowed then failure
  let s ← (s.openBlock s.cursor.column s.tokens.length .blockSequence).dropKey
  some (s.mark .blockEntry 1 true)

/-- The sign of a key that is written out. -/
def scanKey (s : Scanner) : Option Scanner := do
  if !s.inFlow ∧ !s.keyAllowed then failure
  let s ← (s.openBlock s.cursor.column s.tokens.length .blockMapping).dropKey
  some (s.mark .key 1 !s.inFlow)

/-- The sign of a value. What is pending as a key becomes one. -/
def scanValue (s : Scanner) : Option Scanner :=
  match s.keys with
  | some place :: rest =>
    let s := ({ s with keys := none :: rest }.insertAt place.tokens .key).openBlock
      place.cursor.column place.tokens .blockMapping
    some (s.mark .value 1 false)
  | _ =>
    if !s.inFlow ∧ !s.keyAllowed then none
    else
      let s := s.openBlock s.cursor.column s.tokens.length .blockMapping
      some (s.mark .value 1 !s.inFlow)

/-- A quoted scalar. -/
def scanQuotation (s : Scanner) (double : Bool) : Option Scanner := do
  let s ← s.saveKey
  let cur := s.cursor.skip 1
  let (text, cur) ← scanQuoted double (cur.rest.length + 1) [] cur
  some { s.push (.scalar (String.ofList text) .quoted) with cursor := cur, keyAllowed := false }

/-- A block scalar. -/
def scanBlockScalar (s : Scanner) (folded : Bool) : Option Scanner := do
  let s ← s.dropKey
  let (text, cur) ← scanBlock folded s.indent (s.cursor.skip 1)
  let style := if folded then .folded else .literal
  some { s.push (.scalar (String.ofList text) style) with cursor := cur, keyAllowed := true }

/-- A plain scalar. -/
def scanPlainScalar (s : Scanner) : Option Scanner := do
  let s ← s.saveKey
  let (text, newLine, cur) ←
    scanPlain s.inFlow (s.indent + 1) (s.cursor.rest.length + 1) [] .empty s.cursor
  some { s.push (.scalar (String.ofList text) .plain) with cursor := cur, keyAllowed := newLine }

/-- A plain scalar may start with the character, given what follows it. -/
def startsPlain (flow : Bool) (c : Char) (next : Option Char) : Bool :=
  if c == '-' then !next.any isBlank && !isSpacing next
  else if c == '?' || c == ':' then !flow && !isSpacing next
  else !"[]\x7b\x7d,#&*!|>'\"%@`".toList.contains c

/-- The next token, for a scanner that stands at its first character. -/
def next (s : Scanner) (c : Char) : Option Scanner := do
  let flow := s.inFlow
  let spaced := isSpacing (s.cursor.peek 1)
  if s.cursor.column = 0 ∧ c = '%' then s.scanDirective
  else if s.cursor.atMarker '-' then
    let s ← (s.closeBlocks (-1)).dropKey
    some (s.mark .documentStart 3 false)
  else if s.cursor.atMarker '.' then
    let s ← (s.closeBlocks (-1)).dropKey
    some (s.mark .documentEnd 3 false)
  else if c = '[' ∨ c = '\x7b' then
    let s ← s.saveKey
    let s := s.mark (if c = '[' then .flowSequence else .flowMapping) 1 true
    some { s with keys := none :: s.keys }
  else if c = ']' ∨ c = '\x7d' then
    let s ← s.dropKey
    let s := s.mark (if c = ']' then .flowSequenceEnd else .flowMappingEnd) 1 false
    some { s with keys := if flow then s.keys.drop 1 else s.keys }
  else if c = ',' then
    let s ← s.dropKey
    some (s.mark .flowEntry 1 true)
  else if c = '-' ∧ spaced then s.scanBlockEntry
  else if c = '?' ∧ (flow ∨ spaced) then s.scanKey
  else if c = ':' ∧ (flow ∨ spaced) then s.scanValue
  else if c = '*' then s.scanName .alias
  else if c = '&' then s.scanName .anchor
  else if c = '!' then s.scanTag
  else if (c = '|' ∨ c = '>') ∧ !flow then s.scanBlockScalar (c == '>')
  else if c = '\'' then s.scanQuotation false
  else if c = '"' then s.scanQuotation true
  else if startsPlain flow c (s.cursor.peek 1) then s.scanPlainScalar
  else none

/-- Scans to the end of the text. -/
def finish : Nat → Scanner → Option (List Token)
  | 0, _ => none
  | fuel + 1, s => do
    let s ← (s.skipToToken (s.cursor.rest.length + 1)).dropStale
    match s.cursor.rest with
    | [] =>
      let s ← (s.closeBlocks (-1)).dropKey
      some s.tokens.reverse
    | c :: _ =>
      let s ← (s.closeBlocks s.cursor.column).next c
      finish fuel s

end Scanner

/-- The tokens of a text, unless it is not well formed. A byte order mark may stand in front. -/
def tokens (cs : List Char) : Option (List Token) :=
  let body := match cs with
    | '\ufeff' :: rest => rest
    | _ => cs
  if body.all isAllowed then (Scanner.start body).finish (body.length + 1) else none

end Chronicle.Yaml

import Chronicle.Yaml.Cursor

/-!
# The scalars of a YAML text

A scalar is written plain, between quotes, or as a block. Each scanner starts behind the character
that introduces the scalar, gives its text and the place after it, and fails where the scalar is
not well formed.
-/

namespace Chronicle.Yaml

/-! ### Plain scalars -/

/-- The characters of a plain word. Between brackets a comma or bracket ends it, too; a colon in
front of one of them is wrong. -/
def scanWord (flow : Bool) : List Char → Option (List Char)
  | [] => some []
  | c :: rest =>
    let next := rest.head?
    let isBracket (d : Char) := d == '[' || d == ']' || d == '\x7b' || d == '\x7d'
    if isSpacing (some c) then some []
    else if flow && c == ':' && next.any (fun d ↦ d == ',' || d == '?' || isBracket d) then none
    else if c == ':' && isSpacing next then some []
    else if flow && (c == ',' || isBracket c) then some []
    else (scanWord flow rest).map (c :: ·)

/-- The words of a plain scalar with the gaps between them. Also says whether the place after it is
on a new line. -/
def scanPlain (flow : Bool) (indent : Int) :
    Nat → List Char → Gap → Cursor → Option (List Char × Bool × Cursor)
  | 0, text, gap, cur => some (text, gap.broken, cur)
  | fuel + 1, text, gap, cur =>
    if cur.atDocumentMarker ∨ cur.peek 0 = some '#' then some (text, gap.broken, cur)
    else match scanWord flow cur.rest with
      | none => none
      | some [] => some (text, gap.broken, cur)
      | some word =>
        let text := text ++ gap.text ++ word
        let cur := cur.skip word.length
        if !isSpacing (cur.peek 0) ∨ cur.rest.isEmpty then some (text, false, cur)
        else match Gap.scan indent (cur.rest.length + 1) .empty cur with
          | none => none
          | some (gap, cur) =>
            if !flow ∧ cur.column < indent then some (text, gap.broken, cur)
            else scanPlain flow indent fuel text gap cur

/-! ### Quoted scalars -/

/-- The character that an escape of one letter stands for. -/
def escape? : Char → Option Char
  | '0' => some '\x00'
  | 'a' => some '\x07'
  | 'b' => some '\x08'
  | 't' | '\t' => some '\t'
  | 'n' => some '\n'
  | 'v' => some '\x0b'
  | 'f' => some '\x0c'
  | 'r' => some '\r'
  | 'e' => some '\x1b'
  | ' ' => some ' '
  | '"' => some '"'
  | '/' => some '/'
  | '\\' => some '\\'
  | 'N' => some '\x85'
  | '_' => some '\xa0'
  | 'L' => some '\u2028'
  | 'P' => some '\u2029'
  | _ => none

/-- The number of digits of a numeric escape. -/
def escapeLength? : Char → Option Nat
  | 'x' => some 2
  | 'u' => some 4
  | 'U' => some 8
  | _ => none

/-- The value of a hexadecimal digit. -/
def hexDigit? (c : Char) : Option Nat :=
  if c.isDigit then some (c.toNat - '0'.toNat)
  else if 'a' ≤ c ∧ c ≤ 'f' then some (c.toNat - 'a'.toNat + 10)
  else if 'A' ≤ c ∧ c ≤ 'F' then some (c.toNat - 'A'.toNat + 10)
  else none

/-- The character with the number of some digits. -/
def hexChar? (digits : List Char) (count : Nat) : Option Char :=
  match (digits.take count).mapM hexDigit? with
  | some values =>
    let n := values.foldl (fun n d ↦ 16 * n + d) 0
    if values.length = count ∧ n.isValidChar then some (Char.ofNat n) else none
  | none => none

/-- A scalar between quotes, where `double` allows escapes. It stops behind the closing quote. -/
def scanQuoted (double : Bool) : Nat → List Char → Cursor → Option (List Char × Cursor)
  | 0, _, _ => none
  | fuel + 1, text, cur =>
    let quote := if double then '"' else '\''
    if cur.atDocumentMarker then none
    else match cur.rest with
      | [] => none
      | c :: rest =>
        if isBlank c || isBreak c then
          match Gap.scan 0 (cur.rest.length + 1) .empty cur with
          | some (gap, cur) => scanQuoted double fuel (text ++ gap.text) cur
          | none => none
        else if c = quote then
          if !double ∧ rest.head? = some quote then
            scanQuoted double fuel (text ++ [quote]) (cur.skip 2)
          else some (text, cur.skip 1)
        else if double ∧ c = '\\' then
          match rest with
          | [] => none
          | d :: digits =>
            if isBreak d then
              match Gap.scan 0 (rest.length + 1) .escaped (cur.skip 1).nextLine.2 with
              | some (gap, cur) => scanQuoted double fuel (text ++ gap.text) cur
              | none => none
            else match escape? d, escapeLength? d with
              | some e, _ => scanQuoted double fuel (text ++ [e]) (cur.skip 2)
              | none, some count =>
                match hexChar? digits count with
                | some e => scanQuoted double fuel (text ++ [e]) (cur.skip (2 + count))
                | none => none
              | none, none => none
        else scanQuoted double fuel (text ++ [c]) (cur.skip 1)

/-! ### Block scalars -/

/-- What happens to the line breaks at the end of a block. -/
inductive Chomping where
  | strip | clip | keep
deriving DecidableEq, Repr

/-- The indicators of a block: what happens to its end, and how far it is indented. -/
def blockIndicators (cs : List Char) : Option (Chomping × Nat × Nat) :=
  let chomping? : Char → Option Chomping
    | '+' => some .keep
    | '-' => some .strip
    | _ => none
  let digit? (c : Char) : Option Nat := if c.isDigit then some (c.toNat - '0'.toNat) else none
  match cs with
  | [] => some (.clip, 0, 0)
  | c :: rest =>
    match chomping? c, digit? c with
    | some chomping, _ =>
      match rest.head?.bind digit? with
      | some 0 => none
      | some indent => some (chomping, indent, 2)
      | none => some (chomping, 0, 1)
    | none, some 0 => none
    | none, some indent =>
      match rest.head?.bind chomping? with
      | some chomping => some (chomping, indent, 2)
      | none => some (.clip, indent, 1)
    | none, none => some (.clip, 0, 0)

/-- The blanks and empty lines before a line of a block. With no indentation given, the deepest of
these lines counts. -/
def scanBlockBreaks (indent : Nat) :
    Nat → Nat → List Char → Cursor → Option (Nat × List Char × Cursor)
  | 0, deepest, breaks, cur => some (deepest, breaks, cur)
  | fuel + 1, deepest, breaks, cur =>
    let inside (column : Nat) := indent = 0 ∨ column < indent
    let blanks := if indent = 0 then (cur.rest.takeWhile (· == ' ')).length
      else ((cur.rest.take (indent - cur.column)).takeWhile (· == ' ')).length
    let cur := cur.skip blanks
    let deepest := max deepest cur.column
    if inside cur.column ∧ cur.peek 0 = some '\t' then none
    else if (cur.peek 0).any isBreak then
      let (stands, next) := cur.nextLine
      scanBlockBreaks indent fuel deepest (breaks ++ stands.toList) next
    else some (deepest, breaks, cur)

/-- The lines of a block. `first` is the break behind the line before, and `lead` says whether that
line starts with a blank. -/
def scanBlockLines (folded : Bool) (indent : Nat) : Nat → List Char → Option Char → List Char →
    Bool → Cursor → Option (List Char × Option Char × List Char × Cursor)
  | 0, text, first, breaks, _, cur => some (text, first, breaks, cur)
  | fuel + 1, text, first, breaks, lead, cur =>
    if cur.column ≠ indent ∨ cur.rest.isEmpty then some (text, first, breaks, cur)
    else
      let startsBlank := (cur.peek 0).any isBlank
      let joint :=
        if folded ∧ first = some '\n' ∧ !lead ∧ !startsBlank then
          if breaks.isEmpty then [' '] else []
        else first.toList
      let (line, cur) := cur.takeWhile fun c ↦ !isBreak c
      let (stands, cur) := cur.nextLine
      match scanBlockBreaks indent (cur.rest.length + 1) 0 [] cur with
      | none => none
      | some (_, more, cur) =>
        scanBlockLines folded indent fuel (text ++ joint ++ breaks ++ line) stands more startsBlank cur

/-- A block inside a collection with the given indentation, which is `-1` at the top. -/
def scanBlock (folded : Bool) (parent : Int) (cur : Cursor) : Option (List Char × Cursor) := do
  let (chomping, given, count) ← blockIndicators cur.rest
  let (_, cur) := (cur.skip count).takeWhile isBlank
  let cur := if cur.peek 0 = some '#' then (cur.takeWhile fun c ↦ !isBreak c).2 else cur
  if !(cur.rest.isEmpty || (cur.peek 0).any isBreak) then failure
  let cur := cur.nextLine.2
  let fixed := if given = 0 then 0 else (max parent 0).toNat + given
  let (deepest, breaks, cur) ← scanBlockBreaks fixed (cur.rest.length + 1) 0 [] cur
  let indent := if fixed = 0 then max deepest (max (parent + 1) 1).toNat else fixed
  let (text, first, breaks, cur) ←
    scanBlockLines folded indent (cur.rest.length + 1) [] none breaks false cur
  let ending := match chomping with
    | .strip => []
    | .clip => first.toList
    | .keep => first.toList ++ breaks
  some (text ++ ending, cur)

end Chronicle.Yaml

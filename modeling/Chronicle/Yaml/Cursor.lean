/-!
# Places in a YAML text

A cursor stands at a place of a text and knows its line and column, since the structure of a YAML
text depends on them. A gap is what separates two words of a scalar: blanks on one line, or line
breaks, which fold into a blank unless empty lines lie between.
-/

namespace Chronicle.Yaml

/-- A place in a text. -/
structure Cursor where
  rest : List Char
  index : Nat
  line : Nat
  column : Nat

/-- The character ends a line. -/
def isBreak (c : Char) : Bool :=
  c == '\n' || c == '\r' || c == '\x85' || c == '\u2028' || c == '\u2029'

/-- The character separates words within a line. -/
def isBlank (c : Char) : Bool := c == ' ' || c == '\t'

/-- The end of the text, a blank, or a break. -/
def isSpacing : Option Char → Bool
  | none => true
  | some c => isBlank c || isBreak c

/-- The characters that a text may consist of. -/
def isAllowed (c : Char) : Bool :=
  let n := c.toNat
  n == 9 || n == 10 || n == 13 || (0x20 ≤ n && n ≤ 0x7E) || n == 0x85 ||
    (0xA0 ≤ n && n ≤ 0xD7FF) || (0xE000 ≤ n && n ≤ 0xFFFD && n != 0xFEFF) || 0x10000 ≤ n

namespace Cursor

def start (cs : List Char) : Cursor := ⟨cs, 0, 0, 0⟩

/-- The character at a distance. -/
def peek (cur : Cursor) (distance : Nat) : Option Char := cur.rest[distance]?

/-- The place after some characters of the line. -/
def skip (cur : Cursor) (count : Nat) : Cursor :=
  { cur with
    rest := cur.rest.drop count
    index := cur.index + count
    column := cur.column + count }

/-- The start of the next line, for a cursor at a break, and what the break stands for. -/
def nextLine (cur : Cursor) : Option Char × Cursor :=
  match cur.rest with
  | '\r' :: '\n' :: rest => (some '\n', ⟨rest, cur.index + 2, cur.line + 1, 0⟩)
  | c :: rest =>
    if isBreak c then
      (some (if c = '\u2028' ∨ c = '\u2029' then c else '\n'), ⟨rest, cur.index + 1, cur.line + 1, 0⟩)
    else (none, cur)
  | [] => (none, cur)

/-- The characters of the line that satisfy a condition, and the place after them. -/
def takeWhile (cur : Cursor) (p : Char → Bool) : List Char × Cursor :=
  let taken := cur.rest.takeWhile p
  (taken, cur.skip taken.length)

/-- A marker of three equal characters stands alone at the start of the line. -/
def atMarker (cur : Cursor) (c : Char) : Bool :=
  cur.column == 0 && cur.rest.take 3 == [c, c, c] && isSpacing (cur.peek 3)

/-- A document starts or ends here. -/
def atDocumentMarker (cur : Cursor) : Bool := cur.atMarker '-' || cur.atMarker '.'

end Cursor

/-- What separates two words of a scalar. -/
structure Gap where
  /-- The blanks, where no line ends. -/
  blanks : List Char
  /-- A line ends in the gap. -/
  broken : Bool
  /-- What the end of the first line stands for; nothing if it is escaped. -/
  first : Option Char
  /-- What the ends of the empty lines after it stand for. -/
  more : List Char

namespace Gap

def empty : Gap := ⟨[], false, none, []⟩

/-- The gap after an escaped end of a line. -/
def escaped : Gap := ⟨[], true, none, []⟩

/-- What a gap folds into. -/
def text (gap : Gap) : List Char :=
  if gap.broken then
    match gap.first, gap.more with
    | some '\n', [] => [' ']
    | some '\n', more => more
    | first, more => first.toList ++ more
  else gap.blanks

/-- Extends a gap up to the next word. A tab before the given column on a further line is wrong. -/
def scan (indent : Int) : Nat → Gap → Cursor → Option (Gap × Cursor)
  | 0, gap, cur => some (gap, cur)
  | fuel + 1, gap, cur =>
    match cur.rest with
    | [] => some (gap, cur)
    | c :: _ =>
      if isBlank c then
        if gap.broken then
          if c = '\t' ∧ cur.column < indent then none else scan indent fuel gap (cur.skip 1)
        else scan indent fuel { gap with blanks := gap.blanks ++ [c] } (cur.skip 1)
      else if isBreak c then
        let (stands, next) := cur.nextLine
        if gap.broken then scan indent fuel { gap with more := gap.more ++ stands.toList } next
        else scan indent fuel ⟨[], true, stands, []⟩ next
      else some (gap, cur)

end Gap

end Chronicle.Yaml

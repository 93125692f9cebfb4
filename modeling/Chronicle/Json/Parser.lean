import Chronicle.Decimal
import Chronicle.Json.Node

/-!
# The document in a text

`Node.parse` reads a document from the front of a text and returns the rest. It never fails: where
the text is wrong the node has a break, and nothing after the break is read. Strings are read as
code units first, since an escape may be one half of a surrogate pair.
-/

namespace Chronicle.Json

/-- The characters that may stand between the parts of a document. -/
def isSpace (c : Char) : Bool := c == ' ' || c == '\n' || c == '\t' || c == '\r'

def skipSpace (cs : List Char) : List Char := cs.dropWhile isSpace

/-! ### Strings -/

/-- A piece of a string: a character, or the number of an escape. -/
inductive CodeUnit where
  | char (c : Char)
  | code (n : Nat)
deriving DecidableEq, Repr

/-- The value of a hexadecimal digit. -/
def hexDigit? (c : Char) : Option Nat :=
  if c.isDigit then some (c.toNat - '0'.toNat)
  else if 'a' ≤ c ∧ c ≤ 'f' then some (c.toNat - 'a'.toNat + 10)
  else if 'A' ≤ c ∧ c ≤ 'F' then some (c.toNat - 'A'.toNat + 10)
  else none

/-- The number of four hexadecimal digits. Fewer than four bytes of text are an early end. -/
def hexQuad (cs : List Char) : Except Fault Nat :=
  let quad := cs.take 4
  if quad.foldl (fun size c ↦ size + c.utf8Size) 0 < 4 then .error .truncated
  else match quad.mapM hexDigit? with
    | some digits => .ok (digits.foldl (fun n d ↦ 16 * n + d) 0)
    | none => .error .malformed

/-- The character that a one-letter escape stands for. -/
def shortEscape? : Char → Option Char
  | '"' => some '"'
  | '\\' => some '\\'
  | '/' => some '/'
  | 'b' => some '\x08'
  | 'f' => some '\x0c'
  | 'n' => some '\n'
  | 'r' => some '\r'
  | 't' => some '\t'
  | _ => none

/-- The code units up to the closing quote, and the text after it. -/
def codeUnits : Nat → List Char → List CodeUnit × Except Fault (List Char)
  | _, [] => ([], .error .truncated)
  | 0, _ => ([], .error .truncated)
  | _ + 1, '"' :: rest => ([], .ok rest)
  | fuel + 1, '\\' :: rest =>
    match rest with
    | [] => ([], .error .truncated)
    | 'u' :: digits =>
      match hexQuad digits with
      | .ok n => let (units, after) := codeUnits fuel (digits.drop 4); (.code n :: units, after)
      | .error fault => ([], .error fault)
    | c :: more =>
      match shortEscape? c with
      | some d => let (units, after) := codeUnits fuel more; (.char d :: units, after)
      | none => ([], .error .malformed)
  | fuel + 1, c :: rest =>
    if c.toNat < 0x20 then ([], .error .malformed)
    else let (units, after) := codeUnits fuel rest; (.char c :: units, after)

def isLeading (n : Nat) : Bool := 0xD800 ≤ n && n < 0xDC00

def isTrailing (n : Nat) : Bool := 0xDC00 ≤ n && n < 0xE000

/-- The characters of the units, or `none` when half of a surrogate pair stands alone. With `cut`
the text ends after the units, where a leading half may still be waiting for the other. -/
def joinUnits (cut : Bool) : List CodeUnit → Option (List Char)
  | [] => some []
  | .char c :: rest => (joinUnits cut rest).map (c :: ·)
  | .code n :: rest =>
    if isTrailing n then none
    else if isLeading n then
      match rest with
      | [] => if cut then some [] else none
      | .code m :: more =>
        if isTrailing m then
          (joinUnits cut more).map (Char.ofNat (0x10000 + (n - 0xD800) * 0x400 + (m - 0xDC00)) :: ·)
        else none
      | .char _ :: _ => none
    else (joinUnits cut rest).map (Char.ofNat n :: ·)

/-- The string after an opening quote, if it can be used, and the text after the closing quote. A
half of a surrogate pair comes before any break that follows it. -/
def scanString (cs : List Char) : Except Break (Option String × List Char) :=
  match codeUnits cs.length cs with
  | (units, .ok rest) => .ok ((joinUnits false units).map String.ofList, rest)
  | (units, .error fault) =>
    .error ⟨if (joinUnits true units).isSome then fault else .malformed, fault⟩

/-! ### Numbers -/

/-- The number of an integer token: a float beyond the range of integers and for `-0`. -/
def integerNode (negative : Bool) (n : Nat) : Node :=
  if negative ∧ 0 < n ∧ n ≤ 0x8000000000000000 then .int (-n)
  else if !negative ∧ n < 0x10000000000000000 then .int n
  else match Decimal.toBinary64 negative ⟨n, 0⟩ with
    | some x => .float x
    | none => .flawed

/-- The number of a token with a fraction or an exponent. -/
def decimalNode (negative : Bool) (digits : Nat) (exponent : Int) : Node :=
  match Decimal.toBinary64 negative ⟨digits, exponent⟩ with
  | some x => .float x
  | none => .flawed

/-- A number whose digits are missing. At the end of the text only a reader that uses the number
sees an early end. -/
def missingDigits (rest : List Char) : Node × List Char :=
  (.broken ⟨if rest.isEmpty then .truncated else .malformed, .malformed⟩, [])

/-- The exponent of a number, after its letter. The number has the given digits, so many of them
behind the point. -/
def scanExponent (negative : Bool) (digits places : Nat) (cs : List Char) : Node × List Char :=
  let (sign, power) : Int × List Char := match cs with
    | '+' :: more => (1, more)
    | '-' :: more => (-1, more)
    | _ => (1, cs)
  let powerDigits := power.takeWhile Char.isDigit
  let after := power.drop powerDigits.length
  if powerDigits.isEmpty then missingDigits after
  else (decimalNode negative digits (sign * Nat.ofDigitChars 10 powerDigits 0 - places), after)

/-- What follows the digits of a number, which may have had a point among them. -/
def scanTail (negative : Bool) (digits : Nat) (places : Option Nat) (cs : List Char) :
    Node × List Char :=
  match cs with
  | 'e' :: rest | 'E' :: rest => scanExponent negative digits (places.getD 0) rest
  | _ =>
    match places with
    | some n => (decimalNode negative digits (-n), cs)
    | none => (integerNode negative digits, cs)

/-- What follows the digits of a number before the point. -/
def scanFraction (negative : Bool) (whole cs : List Char) : Node × List Char :=
  match cs with
  | '.' :: rest =>
    let fraction := rest.takeWhile Char.isDigit
    let after := rest.drop fraction.length
    if fraction.isEmpty then missingDigits after
    else scanTail negative (Nat.ofDigitChars 10 (whole ++ fraction) 0) (some fraction.length) after
  | _ => scanTail negative (Nat.ofDigitChars 10 whole 0) none cs

/-- The digits at the front of a number, of which a zero is the only one. -/
def wholeDigits (cs : List Char) : List Char :=
  match cs with
  | '0' :: _ => ['0']
  | _ => cs.takeWhile Char.isDigit

/-- The number after its sign. -/
def scanNumber (negative : Bool) (cs : List Char) : Node × List Char :=
  let whole := wholeDigits cs
  let after := cs.drop whole.length
  if whole.isEmpty then missingDigits cs
  else if whole == ['0'] ∧ after.head?.any Char.isDigit then (.broken (.of .malformed), [])
  else scanFraction negative whole after

/-! ### Documents -/

/-- The rest of a literal name. -/
def scanWord (node : Node) : List Char → List Char → Node × List Char
  | [], cs => (node, cs)
  | _ :: _, [] => (.broken (.of .truncated), [])
  | w :: word, c :: cs => if w = c then scanWord node word cs else (.broken (.of .malformed), [])

mutual
/-- The value at the front of a text. -/
def scanNode : Nat → List Char → Node × List Char
  | 0, _ => (.broken (.of .truncated), [])
  | fuel + 1, cs =>
    match skipSpace cs with
    | [] => (.broken (.of .truncated), [])
    | 'n' :: rest => scanWord .null ['u', 'l', 'l'] rest
    | 't' :: rest => scanWord (.bool true) ['r', 'u', 'e'] rest
    | 'f' :: rest => scanWord (.bool false) ['a', 'l', 's', 'e'] rest
    | '-' :: rest => scanNumber true rest
    | '"' :: rest =>
      match scanString rest with
      | .ok (some s, after) => (.str s, after)
      | .ok (none, after) => (.flawed, after)
      | .error place => (.broken place, [])
    | '[' :: rest =>
      match skipSpace rest with
      | ']' :: after => (.list [] none, after)
      | _ =>
        let (items, stop, after) := scanItems fuel rest
        (.list items stop, after)
    | '\x7b' :: rest =>
      match skipSpace rest with
      | '\x7d' :: after => (.object [] none, after)
      | _ =>
        let (members, stop, after) := scanMembers fuel rest
        (.object members stop, after)
    | c :: rest =>
      if c.isDigit then scanNumber false (c :: rest) else (.broken (.of .malformed), [])

/-- The items of a list from one of them on. -/
def scanItems : Nat → List Char → List Node × Option Break × List Char
  | 0, _ => ([], some (.of .truncated), [])
  | fuel + 1, cs =>
    let (item, after) := scanNode fuel cs
    match item.stop? with
    | some place => ([item], some place, [])
    | none =>
      match skipSpace after with
      | ',' :: rest =>
        let (items, stop, after) := scanItems fuel rest
        (item :: items, stop, after)
      | ']' :: rest => ([item], none, rest)
      | [] => ([item], some (.of .truncated), [])
      | _ :: _ => ([item], some (.of .malformed), [])

/-- The members of an object from one of them on. -/
def scanMembers : Nat → List Char → List (Option String × Node) × Option Break × List Char
  | 0, _ => ([], some (.of .truncated), [])
  | fuel + 1, cs =>
    match skipSpace cs with
    | '"' :: rest =>
      match scanString rest with
      | .error place => ([], some place, [])
      | .ok (name, afterName) =>
        match skipSpace afterName with
        | ':' :: rest =>
          let (value, after) := scanNode fuel rest
          match value.stop? with
          | some place => ([(name, value)], some place, [])
          | none =>
            match skipSpace after with
            | ',' :: rest =>
              let (members, stop, after) := scanMembers fuel rest
              ((name, value) :: members, stop, after)
            | '\x7d' :: rest => ([(name, value)], none, rest)
            | [] => ([(name, value)], some (.of .truncated), [])
            | _ :: _ => ([(name, value)], some (.of .malformed), [])
        | [] => ([(name, .broken (.of .truncated))], some (.of .truncated), [])
        | _ :: _ => ([(name, .broken (.of .malformed))], some (.of .malformed), [])
    | [] => ([], some (.of .truncated), [])
    | _ :: _ => ([], some (.of .malformed), [])
end

/-- The document at the front of a text, and the text after it. Every character is passed at most
twice, once as the start of a value and once as the start of an item or member. -/
def Node.parse (cs : List Char) : Node × List Char := scanNode (2 * cs.length + 2) cs

end Chronicle.Json

import Chronicle.Sha1

/-!
# Universally unique identifiers

An identifier is a number of 128 bits. It is written as 32 hexadecimal digits, plain or in five
groups, and read in either form, the grouped one also in braces or as a name. A version 5
identifier is derived from a namespace and a name by their digest.
-/

namespace Chronicle

/-- An identifier of 128 bits. -/
structure Uuid where
  value : Fin 0x100000000000000000000000000000000
deriving DecidableEq, Repr

namespace Uuid

instance : @NeZero Nat Zero.ofOfNat0 0x100000000000000000000000000000000 := ⟨by decide⟩

/-- The last `width` hexadecimal digits of a number. -/
def hexDigits : Nat → Nat → List Char
  | 0, _ => []
  | width + 1, n => hexDigits width (n / 16) ++ [Nat.digitChar (n % 16)]

/-- The 32 digits. -/
def simple (id : Uuid) : List Char := hexDigits 32 id.value

/-- The lengths of the groups. -/
def groupLengths : List Nat := [8, 4, 4, 4, 12]

/-- The digits in groups with hyphens between them. -/
def hyphenated (id : Uuid) : List Char :=
  let digits := id.simple
  digits.take 8 ++ '-' :: ((digits.drop 8).take 4 ++ '-' :: ((digits.drop 12).take 4 ++
    '-' :: ((digits.drop 16).take 4 ++ '-' :: digits.drop 20)))

/-- The value of a hexadecimal digit. -/
def digitValue? (c : Char) : Option Nat :=
  if '0' ≤ c ∧ c ≤ '9' then some (c.toNat - '0'.toNat)
  else if 'a' ≤ c ∧ c ≤ 'f' then some (c.toNat - 'a'.toNat + 10)
  else if 'A' ≤ c ∧ c ≤ 'F' then some (c.toNat - 'A'.toNat + 10)
  else none

/-- The identifier of 32 digits. -/
def ofDigits? (digits : List Char) : Option Uuid :=
  if digits.length ≠ 32 then none
  else (digits.mapM digitValue?).map fun values ↦
    ⟨Fin.ofNat _ (values.foldl (fun n d ↦ 16 * n + d) 0)⟩

/-- The identifier of five groups of digits. -/
def ofGroups? (cs : List Char) : Option Uuid :=
  let hyphen (i : Nat) := cs[i]? == some '-'
  if cs.length = 36 ∧ hyphen 8 ∧ hyphen 13 ∧ hyphen 18 ∧ hyphen 23 then
    ofDigits? (cs.take 8 ++ (cs.drop 9).take 4 ++ (cs.drop 14).take 4 ++ (cs.drop 19).take 4 ++
      cs.drop 24)
  else none

/-- The schemes in front of an identifier that is written as a name. -/
def schemes : List (List Char) := ["urn:uuid:".toList, "URN:UUID:".toList]

/-- The text after one of the schemes. -/
def afterScheme? (cs : List Char) : Option (List Char) :=
  schemes.findSome? fun scheme ↦ if scheme.isPrefixOf cs then some (cs.drop scheme.length) else none

/-- The text between braces. -/
def betweenBraces? (cs : List Char) : Option (List Char) :=
  match cs with
  | '\x7b' :: rest => if rest.getLast? = some '\x7d' then some rest.dropLast else none
  | _ => none

/-- The identifier that a text stands for. -/
def parse? (cs : List Char) : Option Uuid :=
  if cs.length = 32 then ofDigits? cs
  else match afterScheme? cs, betweenBraces? cs with
    | some groups, _ | none, some groups => ofGroups? groups
    | none, none => ofGroups? cs

/-- The bytes of an identifier, most significant first. -/
def bytes (id : Uuid) : List UInt8 :=
  (List.range 16).map fun i ↦ UInt8.ofNat (id.value.val >>> (8 * (15 - i)))

/-- The identifier with the given bytes. -/
def ofBytes (bytes : List UInt8) : Uuid :=
  ⟨Fin.ofNat _ (bytes.foldl (fun n b ↦ 256 * n + b.toNat) 0)⟩

/-- Marks the bytes of a digest as those of an identifier of version 5. -/
def mark (bytes : List UInt8) : List UInt8 :=
  bytes.zipIdx.map fun (b, i) ↦
    if i = 6 then (b &&& 0x0F) ||| 0x50 else if i = 8 then (b &&& 0x3F) ||| 0x80 else b

/-- The identifier of version 5 for a name. -/
def version5 (scope : Uuid) (name : List Char) : Uuid :=
  let digest := Sha1.digest (scope.bytes ++ name.flatMap String.utf8EncodeChar)
  ofBytes (mark (digest.bytes.take 16))

/-- Why a text is no identifier: the first character that cannot occur, or else the number or
length of its groups. -/
inductive FormatError where
  | badCharacter (c : Char) (position : Nat)
  | digitCount (count : Nat)
  | groupCount (count : Nat)
  | groupLength (group expected found : Nat)
deriving DecidableEq, Repr

/-- What is wrong with a text that is no identifier. -/
def explain (cs : List Char) : FormatError :=
  let (body, start, plain) := match betweenBraces? cs, schemes.head? with
    | some inner, _ => (inner, 1, false)
    | none, some scheme =>
      if scheme.isPrefixOf cs then (cs.drop scheme.length, scheme.length, false) else (cs, 0, true)
    | none, none => (cs, 0, true)
  match body.zipIdx.find? fun (c, _) ↦ c ≠ '-' ∧ digitValue? c = none with
  | some (c, i) => .badCharacter c (i + start + 1)
  | none =>
    let hyphens := (body.zipIdx.filter fun (c, _) ↦ c == '-').map (·.2)
    if hyphens = [] ∧ plain then .digitCount cs.length
    else if hyphens.length ≠ 4 then .groupCount (hyphens.length + 1)
    else
      let starts := [0, 9, 14, 19]
      match ((hyphens.zip starts).zip groupLengths).zipIdx.find? fun (((h, s), l), _) ↦ h ≠ s + l with
      | some (((h, s), l), i) => .groupLength i l (h - s)
      | none => .groupLength 4 12 (cs.length - 24)

def FormatError.message : FormatError → String
  | .badCharacter c position =>
    "invalid character: expected an optional prefix of `urn:uuid:` followed by [0-9a-fA-F-], " ++
      s!"found `{c}` at {position}"
  | .digitCount count => s!"invalid length: expected length 32 for simple format, found {count}"
  | .groupCount count => s!"invalid group count: expected 5, found {count}"
  | .groupLength group expected found =>
    s!"invalid group length in group {group}: expected {expected}, found {found}"

end Uuid

end Chronicle

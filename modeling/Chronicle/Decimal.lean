import Chronicle.Binary64

/-!
# Decimals of binary64 numbers

A decimal is a whole number of digits times a power of ten. `toBinary64` rounds a decimal to the
nearest number. `shortest` goes the other way: it takes the fewest digits that round to the given
number again, and among decimals of that length the one nearest to it. The two layouts write the
digits with an exponent outside a window of exponents (`general`) or always in full (`positional`).
-/

namespace Chronicle

attribute [local instance(20000)] instPowNat

/-- The decimal `digits * 10 ^ exponent`. -/
structure Decimal where
  digits : Nat
  exponent : Int
deriving DecidableEq, Repr

namespace Decimal

/-- The number nearest to a decimal, or `none` beyond the largest magnitude. Exponents that decide
the answer by themselves are settled without computing the power of ten. -/
def toBinary64 (negative : Bool) (d : Decimal) : Option Binary64 :=
  if d.digits = 0 then some (.zero negative)
  else if 400 < d.exponent then none
  else if d.exponent < -(d.digits.log2 + 401 : Int) then some (.zero negative)
  else Binary64.ofUnits negative (d.digits * 10 ^ d.exponent.toNat * Binary64.unitsPerOne)
    (10 ^ (-d.exponent).toNat)

/-- Which of two equally near decimals is taken. -/
inductive Tie where
  | even
  | up
deriving DecidableEq, Repr

/-- Moves trailing zeros of the digits into the exponent. -/
def normalize (d : Decimal) : Decimal :=
  go (d.digits.log2 + 1) d
where
  go : Nat → Decimal → Decimal
    | 0, d => d
    | fuel + 1, d =>
      if d.digits ≠ 0 ∧ d.digits % 10 = 0 then go fuel ⟨d.digits / 10, d.exponent + 1⟩ else d

/-- The least `k` such that the magnitude is below `10 ^ k`. A nonzero magnitude times `10 ^ 400`
is at least one, so its whole part has as many digits as it takes. -/
def scale (x : Binary64) : Int :=
  (Nat.toDigits 10 (x.units * 10 ^ (400 : Nat) / Binary64.unitsPerOne)).length - (400 : Int)

/-- The one of two neighbours that hits, and where both do the upper one or the lower one. -/
def pick (hits : Nat → Bool) (below : Nat) (upper : Bool) : Option Nat :=
  match hits below, hits (below + 1) with
  | true, true => some (if upper then below + 1 else below)
  | true, false => some below
  | false, true => some (below + 1)
  | false, false => none

/-- The decimal of `count` digits nearest to `x` that rounds to `x` again, if there is one. Only
the two neighbours of `x` among the decimals of that length can do so. -/
def ofLength? (tie : Tie) (x : Binary64) (count : Nat) : Option Decimal :=
  let exponent := scale x - count
  let num := x.units * 10 ^ (-exponent).toNat
  let den := Binary64.unitsPerOne * 10 ^ exponent.toNat
  let below := num / den
  let upper := match compare (2 * (num % den)) den, tie with
    | .lt, _ => false
    | .gt, _ => true
    | .eq, .even => below % 2 == 1
    | .eq, .up => true
  (pick (fun digits ↦ toBinary64 x.negative ⟨digits, exponent⟩ == some x) below upper).map
    (⟨·, exponent⟩)

/-- The exact decimal of a magnitude: one unit is `5 ^ 1074 * 10 ^ -1074`. -/
def exact (x : Binary64) : Decimal := ⟨x.units * 5 ^ (1074 : Nat), -1074⟩

/-- The shortest decimal that rounds to `x` again. -/
def shortest (tie : Tie) (x : Binary64) : Decimal :=
  if x.isZero then ⟨0, 0⟩
  else (((List.range 17).findSome? fun i ↦ ofLength? tie x (i + 1)).getD (exact x)).normalize

/-- The digits with the point after the first `whole` of them, and zeros where there are none.
`point` says whether a whole number keeps a fraction `.0`. -/
def positional (digits : List Char) (whole : Int) (point : Bool) : List Char :=
  if whole ≤ 0 then '0' :: '.' :: (List.replicate (-whole).toNat '0' ++ digits)
  else
    let places := whole.toNat
    let front := digits.take places ++ List.replicate (places - digits.length) '0'
    match digits.drop places with
    | [] => if point then front ++ ['.', '0'] else front
    | fraction => front ++ '.' :: fraction

/-- The leading digit, the remaining ones after a point, and the signed exponent. -/
def scientific (digits : List Char) (exponent : Int) : List Char :=
  let mantissa := match digits with
    | [] => []
    | [d] => [d]
    | d :: rest => d :: '.' :: rest
  let sign := if exponent < 0 then '-' else '+'
  mantissa ++ 'e' :: sign :: Nat.toDigits 10 exponent.natAbs

/-- The text of a decimal in a document, always with a point or an exponent. The exponent is
written when that of the leading digit is below `-5` or above `15`. -/
def documentText (d : Decimal) : List Char :=
  let digits := Nat.toDigits 10 d.digits
  let leading : Int := d.exponent + digits.length - 1
  if -5 ≤ leading ∧ leading ≤ 15 then positional digits (leading + 1) true
  else scientific digits leading

end Decimal

namespace Binary64

/-- The text of a number in a document, with the shortest digits. -/
def documentText (x : Binary64) : List Char :=
  let body := (Decimal.shortest .even x).documentText
  if x.negative then '-' :: body else body

/-- The text of a number inside a name: shortest digits in full, without an exponent. -/
def plainText (x : Binary64) : List Char :=
  let d := Decimal.shortest .up x
  let digits := Nat.toDigits 10 d.digits
  let body := Decimal.positional digits (d.exponent + digits.length) false
  if x.negative then '-' :: body else body

end Binary64

end Chronicle

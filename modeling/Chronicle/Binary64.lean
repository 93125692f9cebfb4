/-!
# Finite binary64 numbers

A finite binary64 number is a sign and a place among the magnitudes, counted upwards from zero.
Every magnitude is a whole number of units of `2 ^ -1074`, so a sum, product, or quotient is
computed exactly in units and rounded once: `nearest` picks the nearest place, and a tie goes to
the even one. A result beyond the largest magnitude is `none`. Numbers are ordered by `key`,
which puts `-0` directly below `0`.

Infinities and NaN are left out. No document has them, and a result that would be one is `none`; a
state that is made in memory with one is out of scope.
-/

namespace Chronicle

-- The powers below are those of the core library, whatever else is imported beside this module.
attribute [local instance(20000)] instPowNat

/-- The number of finite magnitudes, which is the place that infinity would have. -/
abbrev Binary64.places : Nat := 2047 * 2 ^ (52 : Nat)

/-- A finite binary64 number. -/
structure Binary64 where
  negative : Bool
  magnitude : Fin Binary64.places
deriving DecidableEq, Repr

namespace Binary64

/-- The number zero with the given sign. -/
def zero (negative : Bool) : Binary64 := ⟨negative, 0⟩

/-- The largest finite number with the given sign. -/
def largest (negative : Bool) : Binary64 := ⟨negative, Fin.last _⟩

/-- The magnitude in units of `2 ^ -1074`. Above the subnormal places each run of `2 ^ 52` places
has twice the spacing of the one before. -/
def units (x : Binary64) : Nat :=
  let place := x.magnitude.val
  let spacing := place / 2 ^ (52 : Nat) - 1
  (place - spacing * 2 ^ (52 : Nat)) * 2 ^ spacing

/-- The value in units of `2 ^ -1074`. -/
def scaled (x : Binary64) : Int :=
  if x.negative then -(x.units : Int) else x.units

/-- The number of units in one. -/
abbrev unitsPerOne : Nat := 2 ^ (1074 : Nat)

/-- The place of the magnitude nearest to `num / den` units; a tie goes to the even place. -/
def nearest (num den : Nat) : Nat :=
  let spacing := (num / den).log2 - 52
  let step := den * 2 ^ spacing
  let place := spacing * 2 ^ (52 : Nat) + num / step
  let rest := num % step
  if 2 * rest < step ∨ (2 * rest = step ∧ place % 2 = 0) then place else place + 1

/-- The number nearest to `num / den` units, or `none` beyond the largest magnitude. -/
def ofUnits (negative : Bool) (num den : Nat) : Option Binary64 :=
  if h : nearest num den < places then some ⟨negative, nearest num den, h⟩ else none

/-- The number nearest to an integer. -/
def ofInt (n : Int) : Binary64 :=
  (ofUnits (n < 0) (n.natAbs * unitsPerOne) 1).getD (largest (n < 0))

def isZero (x : Binary64) : Bool := x.magnitude.val == 0

def neg (x : Binary64) : Binary64 := { x with negative := !x.negative }

/-- The rounded sum. Numbers that cancel give `0`, and only `-0 + -0` gives `-0`. -/
def add (x y : Binary64) : Option Binary64 :=
  let total := x.scaled + y.scaled
  if total = 0 then some (zero (x.negative && y.negative))
  else ofUnits (total < 0) total.natAbs 1

/-- The rounded difference. -/
def sub (x y : Binary64) : Option Binary64 := x.add y.neg

/-- The rounded product. -/
def mul (x y : Binary64) : Option Binary64 :=
  ofUnits (x.negative != y.negative) (x.units * y.units) unitsPerOne

/-- The rounded quotient, or `none` when the divisor is a zero. -/
def div (x y : Binary64) : Option Binary64 :=
  if y.isZero then none
  else ofUnits (x.negative != y.negative) (x.units * unitsPerOne) y.units

/-- The position in the total order: `-0` is `-1` and `0` is `0`. -/
def key (x : Binary64) : Int :=
  if x.negative then -(x.magnitude.val : Int) - 1 else x.magnitude.val

/-- The total order of the numbers, in which `-0` precedes `0`. -/
def order (x y : Binary64) : Ordering := compare x.key y.key

/-- Equality as numbers: the two zeros are one value. -/
def sameValue (x y : Binary64) : Bool := x == y || (x.isZero && y.isZero)

end Binary64

end Chronicle

/-
This file rounds decimal numbers to binary numbers of 53 bits.
-/

namespace Phrasebook.Decimal

/-- A finite number `mantissa * 2 ^ exponent` with a sign, where zero keeps its sign. -/
structure Binary64 where
  negative : Bool
  mantissa : Nat
  exponent : Int
  deriving Repr, DecidableEq

namespace Binary64

/-- The least exponent, which every number too small for 53 bits has. -/
def leastExponent : Int := -1074

/-- The greatest exponent. -/
def greatestExponent : Int := 971

def zero (negative : Bool) : Binary64 :=
  ⟨negative, 0, leastExponent⟩

/-- The nearest integer to a quotient; a half goes to the even neighbour. -/
def roundQuotient (numerator denominator : Nat) : Nat :=
  let quotient := numerator / denominator
  let twice := 2 * (numerator % denominator)
  if twice < denominator then quotient
  else if denominator < twice then quotient + 1
  else if quotient % 2 = 0 then quotient
  else quotient + 1

/-- A quotient divided by a power of two. -/
def scale (numerator denominator : Nat) (exponent : Int) : Nat × Nat :=
  if 0 ≤ exponent then (numerator, denominator * Nat.pow 2 exponent.toNat)
  else (numerator * Nat.pow 2 (-exponent).toNat, denominator)

/-- The exponent that leaves a positive quotient 53 bits. -/
def exponentOf (numerator denominator : Nat) : Int :=
  let estimate : Int := (numerator.log2 : Int) - denominator.log2 - 53
  let (above, below) := scale numerator denominator estimate
  let exact := if above / below < Nat.pow 2 53 then estimate else estimate + 1
  max exact leastExponent

/-- The nearest number to a positive quotient, or nothing if that is beyond the greatest one. -/
def ofQuotient? (negative : Bool) (numerator denominator : Nat) : Option Binary64 :=
  let exponent := exponentOf numerator denominator
  let (above, below) := scale numerator denominator exponent
  let mantissa := roundQuotient above below
  let rounded : Binary64 :=
    if mantissa = Nat.pow 2 53 then ⟨negative, Nat.pow 2 52, exponent + 1⟩
    else ⟨negative, mantissa, exponent⟩
  if greatestExponent < rounded.exponent then none else some rounded

/-- The nearest number to `digits * 10 ^ power`. Powers far out of range are not computed. -/
def ofDecimal? (negative : Bool) (digits : Nat) (power : Int) : Option Binary64 :=
  let bits : Int := digits.log2
  if digits = 0 then some (zero negative)
  else if 320 < bits * 3 / 10 + power then none
  else if bits + power < -1200 then some (zero negative)
  else if 0 ≤ power then ofQuotient? negative (digits * Nat.pow 10 power.toNat) 1
  else ofQuotient? negative digits (Nat.pow 10 (-power).toNat)

end Binary64

end Phrasebook.Decimal

/-
This file finds the shortest decimal number that rounds to a given binary number.
-/

import Phrasebook.Decimal.Binary64

namespace Phrasebook.Decimal

namespace Binary64

/-- The numbers that round to a positive binary number lie between two bounds. Each is a
multiple of a quarter of the last place of the number. -/
structure Interval where
  low : Nat
  value : Nat
  high : Nat
  /-- A number with an even mantissa also claims the bounds. -/
  closed : Bool

/-- The gap below the least mantissa of 53 bits is half as wide as the one above. -/
def interval (number : Binary64) : Interval :=
  let narrow := number.mantissa = Nat.pow 2 52 && leastExponent < number.exponent
  { low := 4 * number.mantissa - (if narrow then 1 else 2)
    value := 4 * number.mantissa
    high := 4 * number.mantissa + 2
    closed := number.mantissa % 2 = 0 }

/-- Compares a decimal `digits * 10 ^ power` with `count` quarters of the last place. -/
def compareQuarters (number : Binary64) (digits : Nat) (power : Int) (count : Nat) : Ordering :=
  let binary := number.exponent - 2
  let left := digits * Nat.pow 10 power.toNat * Nat.pow 2 (-binary).toNat
  let right := count * Nat.pow 2 binary.toNat * Nat.pow 10 (-power).toNat
  compare left right

/-- A decimal reads back as the number when it lies in the interval. -/
def claims (number : Binary64) (digits : Nat) (power : Int) : Bool :=
  let bounds := number.interval
  let low := compareQuarters number digits power bounds.low
  let high := compareQuarters number digits power bounds.high
  (low == .gt || (bounds.closed && low == .eq)) && (high == .lt || (bounds.closed && high == .eq))

/-- The greatest multiple of a power of ten that is not above the number. -/
def below (number : Binary64) (power : Int) : Nat :=
  let numerator :=
    number.mantissa * Nat.pow 2 number.exponent.toNat * Nat.pow 10 (-power).toNat
  numerator / (Nat.pow 2 (-number.exponent).toNat * Nat.pow 10 power.toNat)

/-- Of two neighbours on a grid the nearer one; of two equally near ones the even one. -/
def nearer (number : Binary64) (power : Int) (digits : Nat) : Nat :=
  match compareQuarters number (2 * digits + 1) power (2 * number.interval.value) with
  | .gt => digits
  | .lt => digits + 1
  | .eq => if digits % 2 = 0 then digits else digits + 1

/-- The multiple of a power of ten that reads back as the number. -/
def onGrid? (number : Binary64) (power : Int) : Option Nat :=
  let digits := number.below power
  match number.claims digits power, number.claims (digits + 1) power with
  | true, true => some (number.nearer power digits)
  | true, false => some digits
  | false, true => some (digits + 1)
  | false, false => none

/-- The powers of ten from the greatest to the least that a number can need. -/
def powers : List Int :=
  (List.range 660).map fun (step : Nat) => (310 : Int) - step

/-- The digits and the power of ten of the shortest decimal that reads back. -/
def shortest (number : Binary64) : Nat × Int :=
  (powers.findSome? fun power => (number.onGrid? power).map (·, power)).getD (0, 0)

end Binary64

end Phrasebook.Decimal

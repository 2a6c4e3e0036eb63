/-
This file reads and writes the numbers of the markup language.
-/

import Phrasebook.Decimal.Shortest
import Phrasebook.Text.Digit

namespace Phrasebook.Yaml

open Decimal Text

inductive Number where
  | integer (value : Int)
  | float (value : Binary64)
  | infinite (negative : Bool)
  | notANumber
  deriving Repr, DecidableEq

namespace Number

/-- Zeros of both signs are the same number. -/
def same : Number → Number → Bool
  | .float first, .float second =>
      (first.mantissa == 0 && second.mantissa == 0) || first == second
  | first, second => first == second

def digit? (radix : Nat) (character : Char) : Option Nat :=
  (hexDigit? character).filter (· < radix)

/-- A text of at least one digit. -/
def natural? (radix : Nat) (text : List Char) : Option Nat :=
  if text.isEmpty then none
  else text.foldlM (fun value character => (digit? radix character).map (value * radix + ·)) 0

def dropSign : List Char → List Char
  | '+' :: rest => rest
  | '-' :: rest => rest
  | text => text

/-- Digits after a leading zero make a text and no number. -/
def isPaddedZero (text : List Char) : Bool :=
  match dropSign text with
  | '0' :: digit :: rest => digit.isDigit && rest.all Char.isDigit
  | _ => false

/-- A prefix announces digits of another radix. -/
def radixDigits? : List Char → Option (Nat × List Char)
  | '0' :: 'x' :: rest => some (16, rest)
  | '0' :: 'o' :: rest => some (8, rest)
  | '0' :: 'b' :: rest => some (2, rest)
  | _ => none

def magnitude? (text : List Char) : Option Nat :=
  match radixDigits? text with
  | some (radix, digits) => natural? radix digits
  | none => natural? 10 text

/-- An integer of any size. -/
def integerText? (text : List Char) : Option Int :=
  if isPaddedZero text then none
  else
    match text with
    | '-' :: rest => (magnitude? rest).map fun value => -(value : Int)
    | '+' :: rest => (magnitude? rest).map Int.ofNat
    | _ => (magnitude? text).map Int.ofNat

/-- Whether an integer of 64 bits, signed or not, holds the value. -/
def fits64 (value : Int) : Bool :=
  -Int.pow 2 63 ≤ value && value < Int.pow 2 64

/-- Whether an integer of 128 bits, signed or not, holds the value. -/
def fits128 (value : Int) : Bool :=
  -Int.pow 2 127 ≤ value && value < Int.pow 2 128

inductive IntegerReading where
  | value (value : Int)
  | outOfRange
  | notInteger

/-- Integers that need more than 128 bits do not read as integers at all. -/
def readInteger (text : List Char) : IntegerReading :=
  match integerText? text with
  | some value =>
      if fits64 value then .value value
      else if fits128 value then .outOfRange
      else .notInteger
  | none => .notInteger

/-- The exponent after its mark, with an optional sign. -/
def exponent? (text : List Char) : Option Int :=
  match text with
  | '-' :: rest => (natural? 10 rest).map fun value => -(value : Int)
  | '+' :: rest => (natural? 10 rest).map Int.ofNat
  | _ => (natural? 10 text).map Int.ofNat

/-- Digits with an optional point and exponent; at least one digit stands beside the point. -/
def decimal? (negative : Bool) (text : List Char) : Option Binary64 := do
  let whole := text.takeWhile Char.isDigit
  let afterWhole := text.dropWhile Char.isDigit
  let (fraction, rest) := match afterWhole with
    | '.' :: tail => (tail.takeWhile Char.isDigit, tail.dropWhile Char.isDigit)
    | _ => ([], afterWhole)
  let digits ← natural? 10 (whole ++ fraction)
  let exponent ← match rest with
    | [] => some 0
    | mark :: tail => if mark == 'e' || mark == 'E' then exponent? tail else none
  Binary64.ofDecimal? negative digits (exponent - fraction.length)

/-- Words for infinity may carry a sign; words for no number may not. -/
def readFloat? (text : List Char) : Option Number :=
  if [".nan", ".NaN", ".NAN"].any (·.toList == text) then some .notANumber
  else
    let unsigned := dropSign text
    let negative := text.head? == some '-'
    if [".inf", ".Inf", ".INF"].any (·.toList == unsigned) then some (.infinite negative)
    else (decimal? negative unsigned).map .float

/-- The digits of a decimal as text, with an exponent for very large and very small ones. -/
def decimalText (digits : Nat) (power : Int) : String :=
  let figures := (Nat.toDigits 10 digits)
  let count : Int := figures.length
  let point := count + power
  if 0 ≤ power ∧ point ≤ 16 then
    String.ofList (figures ++ List.replicate power.toNat '0' ++ ['.', '0'])
  else if 0 < point ∧ point ≤ 16 then
    String.ofList (figures.take point.toNat ++ '.' :: figures.drop point.toNat)
  else if -5 < point ∧ point ≤ 0 then
    String.ofList ('0' :: '.' :: List.replicate (-point).toNat '0' ++ figures)
  else
    let fraction := if figures.length ≤ 1 then [] else '.' :: figures.drop 1
    String.ofList (figures.take 1 ++ fraction) ++ "e" ++ toString (point - 1)

def floatText (number : Binary64) : String :=
  let sign := if number.negative then "-" else ""
  if number.mantissa = 0 then sign ++ "0.0"
  else
    let (digits, power) := number.shortest
    sign ++ decimalText digits power

def text : Number → String
  | integer value => toString value
  | float value => floatText value
  | infinite negative => if negative then "-.inf" else ".inf"
  | notANumber => ".nan"

end Number

end Phrasebook.Yaml

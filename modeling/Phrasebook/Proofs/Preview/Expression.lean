/-
This file reads boolean expressions of the generated language: names and literals are compared
with `==` and `!=`, and comparisons are joined by `&&` and `||`, of which `&&` binds tighter.
-/

import Phrasebook.Preview.Condition
import Phrasebook.Proofs.Text.Literal
import Phrasebook.Text.Identifier

namespace Phrasebook.Expression

open Text Condition

/-- The characters that may stand between symbols. -/
def isSpace (character : Char) : Bool :=
  let code := character.toNat
  (9 ≤ code && code ≤ 13) || code == 0x20 || code == 0x85 || code == 0x200E || code == 0x200F ||
    code == 0x2028 || code == 0x2029

inductive Symbol where
  | operand (operand : Operand)
  | equals
  | differs
  | and
  | or
  deriving Repr, DecidableEq

/-- Where a reader of an expression stands. -/
inductive Stage where
  | between
  | word (reversed : List Char)
  | literal (state : EscapeState) (read : List Char)
  /-- Right behind a literal, where no word may begin. -/
  | closed
  /-- After the first character of an operator. -/
  | mark (first : Char)
  deriving Repr, DecidableEq

/-- An operator has two characters. -/
def operatorSymbol? : Char → Char → Option Symbol
  | '=', '=' => some .equals
  | '!', '=' => some .differs
  | '&', '&' => some .and
  | '|', '|' => some .or
  | _, _ => none

def startsOperator (character : Char) : Bool :=
  character == '=' || character == '!' || character == '&' || character == '|'

/-- A name is a symbol, but a keyword is none. -/
def name? (reversed : List Char) : Option Symbol :=
  let name := String.ofList reversed.reverse
  if isIdentifier name then some (.operand (.parameter name)) else none

namespace Stage

/-- The stage after a character that begins a symbol or stands between symbols. -/
def enter? (character : Char) : Option Stage :=
  if startsName character then some (word [character])
  else if character == '"' then some (literal .plain [])
  else if isSpace character then some between
  else if startsOperator character then some (mark character)
  else none

def next (stage : Stage) (character : Char) : Option (Stage × List Symbol) :=
  match stage with
  | between => (enter? character).map (·, [])
  | word reversed =>
      if continuesName character then some (word (character :: reversed), [])
      else if character == '"' then none
      else
        match name? reversed, enter? character with
        | some symbol, some after => some (after, [symbol])
        | _, _ => none
  | literal state read =>
      if state == .plain && character == '"' then
        some (closed, [.operand (.literal (String.ofList read))])
      else (state.next character).map fun (after, complete) =>
        (literal after (read ++ complete), [])
  | closed => if continuesName character then none else (enter? character).map (·, [])
  | mark first => (operatorSymbol? first character).map fun symbol => (between, [symbol])

/-- The last symbol of a text, unless that is incomplete. -/
def finish? : Stage → Option (List Symbol)
  | between => some []
  | closed => some []
  | word reversed => (name? reversed).map ([·])
  | literal .. => none
  | mark _ => none

end Stage

/-- The symbols of an expression. -/
def symbols? (text : List Char) : Option (List Symbol) :=
  match scan Stage.next .between text with
  | none => none
  | some (after, symbols) => after.finish?.map (symbols ++ ·)

def comparison? : Symbol → Symbol → Symbol → Option Comparison
  | .operand left, .equals, .operand right => some ⟨left, true, right⟩
  | .operand left, .differs, .operand right => some ⟨left, false, right⟩
  | _, _, _ => none

/-- Alternatives of which one must hold, each with comparisons that must all hold. -/
abbrev Formula := List (List Comparison)

/-- After `&&` the next comparison belongs to the same alternative, after `||` to a new one. -/
def formula? : List Symbol → Option Formula
  | [left, operator, right] => (comparison? left operator right).map fun first => [[first]]
  | left :: operator :: right :: .and :: rest =>
      match comparison? left operator right, formula? rest with
      | some first, some (clause :: clauses) => some ((first :: clause) :: clauses)
      | _, _ => none
  | left :: operator :: right :: .or :: rest =>
      match comparison? left operator right, formula? rest with
      | some first, some clauses => some ([first] :: clauses)
      | _, _ => none
  | _ => none

def operandValue? (arguments : Arguments) : Operand → Option String
  | .parameter name => arguments name
  | .literal text => some text

def comparisonValue? (arguments : Arguments) (comparison : Comparison) : Option Bool := do
  let left ← operandValue? arguments comparison.left
  let right ← operandValue? arguments comparison.right
  return if comparison.equal then left == right else left != right

def clauseValue? (arguments : Arguments) (clause : List Comparison) : Option Bool :=
  (clause.mapM (comparisonValue? arguments)).map fun values => values.all id

/-- The value of a formula, where all its names have values. -/
def value? (arguments : Arguments) (formula : Formula) : Option Bool :=
  (formula.mapM (clauseValue? arguments)).map fun values => values.any id

/-- The value of a text as an expression. -/
def meaning? (text : String) (arguments : Arguments) : Option Bool :=
  ((symbols? text.toList).bind formula?).bind (value? arguments)

end Phrasebook.Expression

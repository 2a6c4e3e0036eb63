/-
This file evaluates conditions: alternatives joined by `||`, each of comparisons joined by `&&`,
each of parameters and literals with `==` or `!=`.
-/

import Phrasebook.Catalog.Template
import Phrasebook.Text.Blank
import Phrasebook.Text.Bracketed

namespace Phrasebook

open Text

inductive PreviewFault where
  | unknownEntry (name : String)
  | missingArgument (parameter : String)
  | unsupportedCondition (condition : String)
  deriving Repr, DecidableEq

def PreviewFault.message : PreviewFault → String
  | unknownEntry name => "unknown entry " ++ backquote name
  | missingArgument parameter => "missing value for parameter " ++ backquote parameter
  | unsupportedCondition condition =>
      "condition " ++ backquote condition ++ " cannot be previewed"

/-- The short name of the kind of fault, which reports show. -/
def PreviewFault.kind : PreviewFault → String
  | unknownEntry _ => "unknown-entry"
  | missingArgument _ => "missing-argument"
  | unsupportedCondition _ => "unsupported-condition"

namespace Condition

/-- Splits at each doubled mark outside literals. -/
def splitOutside (mark : Char) (state : LiteralState) (reversed : List Char) :
    List Char → List (List Char)
  | [] => [reversed.reverse]
  | [last] => [(last :: reversed).reverse]
  | first :: second :: rest =>
      if state == .outside && first == mark && second == mark then
        reversed.reverse :: splitOutside mark .outside [] rest
      else splitOutside mark (state.next first) (first :: reversed) (second :: rest)

inductive Operand where
  | parameter (name : String)
  | literal (text : String)
  deriving Repr, DecidableEq

structure Comparison where
  left : Operand
  /-- The comparison asks for equal operands. -/
  equal : Bool
  right : Operand
  deriving Repr, DecidableEq

/-- After a backslash `n` and `t` stand for a line feed and a tab, other characters for
themselves. -/
def unescape (character : Char) : Char :=
  match character with
  | 'n' => '\n'
  | 't' => '\t'
  | other => other

/-- Reads a literal after its opening quote. A line feed may not be escaped. -/
def literal? (reversed : List Char) : List Char → Option (String × List Char)
  | [] => none
  | '"' :: rest => some (String.ofList reversed.reverse, rest)
  | '\\' :: escaped :: rest =>
      if escaped == '\n' then none else literal? (unescape escaped :: reversed) rest
  | character :: rest =>
      if character == '\\' then none else literal? (character :: reversed) rest

def operand? (text : List Char) : Option (Operand × List Char) :=
  match text with
  | '"' :: rest => (literal? [] rest).map fun (literal, rest) => (.literal literal, rest)
  | _ =>
      let name := text.takeWhile continuesName
      if isName name then some (.parameter (String.ofList name), text.drop name.length) else none

def operator? : List Char → Option (Bool × List Char)
  | '=' :: '=' :: rest => some (true, rest)
  | '!' :: '=' :: rest => some (false, rest)
  | _ => none

/-- Blanks may stand around operands. -/
def comparison? (text : List Char) : Option Comparison := do
  let (left, afterLeft) ← operand? (trimStart text)
  let (equal, afterOperator) ← operator? (trimStart afterLeft)
  let (right, rest) ← operand? (trimStart afterOperator)
  if (trimStart rest).isEmpty then some ⟨left, equal, right⟩ else none

/-- The texts of the comparisons in each alternative. -/
def clauses (condition : String) : List (List (List Char)) :=
  (splitOutside '|' .outside [] condition.toList).map (splitOutside '&' .outside [])

def Operand.value (arguments : Arguments) : Operand → Except PreviewFault String
  | parameter name =>
      match arguments name with
      | some value => .ok value
      | none => .error (.missingArgument name)
  | literal text => .ok text

def Comparison.holds (arguments : Arguments) (comparison : Comparison) :
    Except PreviewFault Bool := do
  let left ← comparison.left.value arguments
  let right ← comparison.right.value arguments
  return (left == right) == comparison.equal

/-- Every comparison is read and evaluated, from left to right. -/
def evaluate (condition : String) (arguments : Arguments) : Except PreviewFault Bool := do
  let alternatives ← (clauses condition).mapM fun alternative => do
    let results ← alternative.mapM fun text =>
      match comparison? text with
      | some comparison => comparison.holds arguments
      | none => .error (.unsupportedCondition condition)
    return results.all id
  return alternatives.any id

end Condition

end Phrasebook

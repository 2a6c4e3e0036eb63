/-
This file shows the text of an entry for a locale without compiling the accessors.
-/

import Phrasebook.Catalog.Basic
import Phrasebook.Preview.Condition

namespace Phrasebook

/-- The part of a wording that the text comes from. -/
inductive Branch where
  | conditional (condition : String)
  | base
  | fallback
  deriving Repr, DecidableEq

structure Preview where
  language : String
  text : String
  branch : Branch
  /-- Conditions that cannot be evaluated, which count as false. -/
  skipped : List String
  deriving Repr, DecidableEq

namespace Preview

/-- The first conditional that holds, and the conditions passed over before it. -/
def choose (arguments : Arguments) :
    List Conditional → Except PreviewFault (Option Conditional × List String)
  | [] => .ok (none, [])
  | conditional :: rest =>
      match Condition.evaluate conditional.condition arguments with
      | .ok true => .ok (some conditional, [])
      | .ok false => choose arguments rest
      | .error (.unsupportedCondition condition) => do
          let (chosen, skipped) ← choose arguments rest
          return (chosen, condition :: skipped)
      | .error fault => .error fault

def ofWording (language : String) (wording : Wording) (arguments : Arguments) :
    Except PreviewFault Preview := do
  let (chosen, skipped) ← choose arguments wording.conditionals
  return match chosen with
    | some conditional =>
        ⟨language, conditional.template.render arguments,
          .conditional conditional.condition, skipped⟩
    | none =>
        ⟨language, wording.base.render arguments,
          if wording.isFallback then .fallback else .base, skipped⟩

/-- Shows an entry with the given arguments, which must cover its parameters. -/
def ofCatalog (catalog : Catalog) (name locale : String) (arguments : Arguments) :
    Except PreviewFault Preview := do
  let some entry := catalog.entry? name
    | throw (.unknownEntry name)
  if let some parameter := entry.parameters.find? fun parameter => (arguments parameter).isNone then
    throw (.missingArgument parameter)
  let language := catalog.resolve locale
  let some wording := entry.wording? language
    | throw (.unknownEntry name)
  ofWording language wording arguments

end Preview

end Phrasebook

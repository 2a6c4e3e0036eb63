/-
This file holds the values that a document stands for.
-/

import Phrasebook.Yaml.Number

namespace Phrasebook.Yaml

inductive Value where
  | null
  | bool (value : Bool)
  | number (value : Number)
  | string (text : String)
  | sequence (items : List Value)
  | mapping (pairs : List (Value × Value))
  | tagged (tag : String) (value : Value)
  deriving Repr

namespace Value

mutual

/-- The order of the pairs of a mapping does not matter. -/
def same : Value → Value → Bool
  | .null, .null => true
  | .bool first, .bool second => first == second
  | .number first, .number second => first.same second
  | .string first, .string second => first == second
  | .sequence first, .sequence second => sameItems first second
  | .mapping first, .mapping second => first.length == second.length && samePairs first second
  | .tagged firstTag first, .tagged secondTag second => firstTag == secondTag && same first second
  | _, _ => false

def sameItems : List Value → List Value → Bool
  | [], [] => true
  | first :: firstRest, second :: secondRest => same first second && sameItems firstRest secondRest
  | _, _ => false

/-- Every pair of the first mapping is in the second one. -/
def samePairs : List (Value × Value) → List (Value × Value) → Bool
  | [], _ => true
  | (key, value) :: rest, others =>
      others.any (fun other => same key other.1 && same value other.2) && samePairs rest others

end

/-- The text of a string, whatever its tags. -/
def text? : Value → Option String
  | .string text => some text
  | .tagged _ value => value.text?
  | _ => none

end Value

end Phrasebook.Yaml

/-
This file folds the blanks and line breaks between two words of a flow scalar.
-/

import Phrasebook.Yaml.Character

namespace Phrasebook.Yaml

/-- What was read since the last word. The characters of `blanks` and `further` are reversed. -/
inductive Gap where
  | none
  | blanks (reversed : List Char)
  | lines (first : Char) (further : List Char)
  /-- An escaped line break leaves no text of its own. -/
  | continued (further : List Char)

namespace Gap

/-- Blanks count only before the first line break. -/
def blank (gap : Gap) (character : Char) : Gap :=
  match gap with
  | none => blanks [character]
  | blanks reversed => blanks (character :: reversed)
  | lines first further => lines first further
  | continued further => continued further

def lineBreak (gap : Gap) (character : Char) : Gap :=
  match gap with
  | none => lines character []
  | blanks _ => lines character []
  | lines first further => lines first (character :: further)
  | continued further => continued (character :: further)

def crossesLine : Gap → Bool
  | none => false
  | blanks _ => false
  | lines _ _ => true
  | continued _ => true

/-- A lone line feed becomes a space; further line breaks stand for themselves. -/
def fold : Gap → List Char
  | none => []
  | blanks reversed => reversed.reverse
  | lines '\n' [] => [' ']
  | lines '\n' further => further.reverse
  | lines first further => first :: further.reverse
  | continued further => further.reverse

/-- Prepends the folded gap to a reversed text. -/
def foldOnto (gap : Gap) (reversed : List Char) : List Char :=
  gap.fold.reverse ++ reversed

end Gap

end Phrasebook.Yaml

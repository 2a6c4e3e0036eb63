/-
This file reads the key of a wording, which is a language with or without a condition.
-/

import Phrasebook.Catalog.Defect
import Phrasebook.Text.Blank

namespace Phrasebook

open Text

inductive LanguageKey where
  | plain (language : String)
  | conditional (language condition : String)
  deriving Repr, DecidableEq

namespace LanguageKey

def language : LanguageKey → String
  | plain language => language
  | conditional language _ => language

def condition? : LanguageKey → Option String
  | plain _ => none
  | conditional _ condition => some condition

def split (raw : String) : Except LanguageKeyFault LanguageKey :=
  match splitBracketed raw.toList with
  | .error fault => .error (.bracket fault)
  | .ok none => .ok (.plain raw)
  | .ok (some (language, inner)) =>
      let condition := trim inner
      if condition.isEmpty then .error .emptyCondition
      else .ok (.conditional (String.ofList language) (String.ofList condition))

/-- Reads a key of a wording of the given entry. -/
def parse (entry raw : String) : Except Defect LanguageKey :=
  match split raw with
  | .error fault => .error (.invalidKey entry (.languageKey raw fault))
  | .ok key => .ok key

end LanguageKey

end Phrasebook

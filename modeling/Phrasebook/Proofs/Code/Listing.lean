/-
This file reads lists between commas: fields with their types, parameters and conversions.
-/

import Phrasebook.Code.Accessors
import Phrasebook.Proofs.Code.Token

namespace Phrasebook.Code

open Text

/-- The tokens between commas up to a closing mark, and the tokens behind it. -/
def commaParts? (close : Char) (part : List Token) :
    List Token → Option (List (List Token) × List Token)
  | [] => none
  | token :: rest =>
      if token == .mark close then some ([part], rest)
      else if token == .mark ',' then
        (commaParts? close [] rest).map fun (parts, rest) => (part :: parts, rest)
      else commaParts? close (part ++ [token]) rest

/-- The field of a variant, which is a text of its own. -/
def field? : List Token → Option String
  | [.word name, .mark ':', .word "String"] => some name
  | _ => none

/-- The parameter of a function, which is a borrowed text. -/
def parameter? : List Token → Option String
  | [.word name, .mark ':', .mark '&', .word "str"] => some name
  | _ => none

/-- The field that is set and the parameter whose copy it becomes. -/
def conversion? : List Token → Option (String × String)
  | [.word field, .mark ':', .word parameter, .mark '.', .word "to_owned", .mark '(',
      .mark ')'] => some (field, parameter)
  | _ => none

theorem commaParts_part {close : Char} {part before : List Token} {rest : List Token}
    (open_ : .mark close ∉ part) (single : .mark ',' ∉ part) :
    commaParts? close before (part ++ rest) = commaParts? close (before ++ part) rest := by
  induction part generalizing before with
  | nil => rw [List.append_nil, List.nil_append]
  | cons token others inductionHypothesis =>
      rw [List.mem_cons, not_or] at open_ single
      rw [List.cons_append, commaParts?, if_neg (by simpa using Ne.symm open_.1),
        if_neg (by simpa using Ne.symm single.1), inductionHypothesis open_.2 single.2,
        List.append_assoc]
      rfl

/-- Parts that are listed between commas are read back. -/
theorem commaParts_intercalate {close : Char} (noComma : close ≠ ',') {parts : List (List Token)}
    (inhabited : parts ≠ [])
    (plain : ∀ part ∈ parts, .mark close ∉ part ∧ .mark ',' ∉ part) (rest : List Token) :
    commaParts? close [] ([Token.mark ','].intercalate parts ++ .mark close :: rest) =
      some (parts, rest) := by
  induction parts with
  | nil => exact absurd rfl inhabited
  | cons part others inductionHypothesis =>
      obtain ⟨⟨open_, single⟩, further⟩ := List.forall_mem_cons.mp plain
      cases others with
      | nil =>
          rw [List.intercalate_singleton, commaParts_part open_ single, commaParts?,
            if_pos (beq_self_eq_true _), List.nil_append]
      | cons second more =>
          have isRest := inductionHypothesis (List.cons_ne_nil _ _) further
          rw [List.intercalate_cons_cons, List.append_assoc, List.append_assoc,
            commaParts_part open_ single, List.singleton_append, commaParts?,
            if_neg (by simpa using Ne.symm noComma), if_pos (beq_self_eq_true _), isRest,
            List.nil_append]
          rfl

/-- Items between commas, before a text that ends the last of them. -/
theorem Spells.commaThen {A : Type} {items : List A} {text : A → String} {tokens : A → List Token}
    {suffix : String} {more : List Token} {after : Place} (inhabited : items ≠ [])
    (comma : ∀ item ∈ items,
      Spells .between (text item ++ ", ") (tokens item ++ [.mark ',']) .between)
    (last : ∀ item ∈ items, Spells .between (text item ++ suffix) (tokens item ++ more) after) :
    Spells .between (commaSeparated (items.map text) ++ suffix)
      ([Token.mark ','].intercalate (items.map tokens) ++ more) after := by
  rw [commaSeparated]
  induction items with
  | nil => exact absurd rfl inhabited
  | cons item rest inductionHypothesis =>
      obtain ⟨isItem, further⟩ := List.forall_mem_cons.mp comma
      obtain ⟨isLast, lasts⟩ := List.forall_mem_cons.mp last
      cases rest with
      | nil => simpa using isLast
      | cons second others =>
          have isRest := inductionHypothesis (List.cons_ne_nil _ _) further lasts
          rw [List.map_cons, List.map_cons, String.intercalate_cons_cons, List.map_cons,
            List.map_cons, List.intercalate_cons_cons, String.append_assoc, List.append_assoc,
            ← List.map_cons, ← List.map_cons]
          exact isItem.append isRest

/-- Names between commas, each with the same type behind it. -/
theorem Spells.typedThen {names : List String} {type suffix : String}
    {typeTokens more : List Token} {after : Place} (inhabited : names ≠ [])
    (areWords : ∀ name ∈ names, IsWord name)
    (comma : ∀ reversed, Spells (.word reversed) (type ++ ", ")
      (.word (String.ofList reversed.reverse) :: (typeTokens ++ [.mark ','])) .between)
    (last : ∀ reversed, Spells (.word reversed) (type ++ suffix)
      (.word (String.ofList reversed.reverse) :: (typeTokens ++ more)) after) :
    Spells .between (commaSeparated (names.map (· ++ type)) ++ suffix)
      ([Token.mark ','].intercalate (names.map fun name => .word name :: typeTokens) ++ more)
      after := by
  apply Spells.commaThen inhabited
  · intro name member
    rw [String.append_assoc]
    exact Spells.wordThen (areWords name member) comma
  · intro name member
    rw [String.append_assoc]
    exact Spells.wordThen (areWords name member) last

end Phrasebook.Code

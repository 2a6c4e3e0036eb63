/-
This file reads JSON values. Numbers are only recognised, since nothing here uses them.
-/

import Phrasebook.Json.Token

namespace Phrasebook.Json

inductive Value where
  | null
  | bool (value : Bool)
  | number
  | string (text : Option String)
  | array (items : List Value)
  | object (members : List (Option String × Value))
  deriving Repr

namespace Value

/-- A value read from the front of the tokens. -/
structure Read (α : Type) (tokens : List Token) where
  value : α
  rest : List Token
  shorter : rest.length < tokens.length

def Read.within {α : Type} {inner outer : List Token} (read : Read α inner)
    (noLonger : inner.length ≤ outer.length) : Read α outer :=
  ⟨read.value, read.rest, Nat.lt_of_lt_of_le read.shorter noLonger⟩

def Read.map {α β : Type} {tokens : List Token} (change : α → β) (read : Read α tokens) :
    Read β tokens :=
  ⟨change read.value, read.rest, read.shorter⟩

mutual

def read? (tokens : List Token) : Option (Read Value tokens) :=
  match tokens with
  | .null :: rest => some ⟨.null, rest, Nat.lt_add_one _⟩
  | .bool value :: rest => some ⟨.bool value, rest, Nat.lt_add_one _⟩
  | .number :: rest => some ⟨.number, rest, Nat.lt_add_one _⟩
  | .string text :: rest => some ⟨.string text, rest, Nat.lt_add_one _⟩
  | .leftBracket :: .rightBracket :: rest =>
      some ⟨.array [], rest, Nat.lt_add_of_pos_right Nat.two_pos⟩
  | .leftBracket :: rest => do
      let items ← readItems? rest
      return (items.map .array).within (Nat.le_succ _)
  | .leftBrace :: .rightBrace :: rest =>
      some ⟨.object [], rest, Nat.lt_add_of_pos_right Nat.two_pos⟩
  | .leftBrace :: rest => do
      let members ← readMembers? rest
      return (members.map .object).within (Nat.le_succ _)
  | _ => none
termination_by 2 * tokens.length

/-- Reads items up to the closing bracket. -/
def readItems? (tokens : List Token) : Option (Read (List Value) tokens) := do
  let ⟨item, rest, shorter⟩ ← read? tokens
  match rest, shorter with
  | .comma :: further, shorter => do
      have fits : further.length + 1 < tokens.length := shorter
      let items ← readItems? further
      return (items.map (item :: ·)).within (by omega)
  | .rightBracket :: further, shorter =>
      some ⟨[item], further, by simp at shorter; omega⟩
  | _, _ => none
termination_by 2 * tokens.length + 1

/-- Reads members up to the closing brace. -/
def readMembers? (tokens : List Token) : Option (Read (List (Option String × Value)) tokens) :=
  match tokens with
  | .string name :: .colon :: value => do
      let ⟨member, rest, shorter⟩ ← read? value
      match rest, shorter with
      | .comma :: further, shorter => do
          have fits : further.length + 1 < value.length := shorter
          let members ← readMembers? further
          return (members.map ((name, member) :: ·)).within (by simp only [List.length_cons]; omega)
      | .rightBrace :: further, shorter =>
          some ⟨[(name, member)], further, by simp at shorter ⊢; omega⟩
      | _, _ => none
  | _ => none
termination_by 2 * tokens.length + 1

end

/-- The value of a whole text. -/
def ofText? (text : String) : Option Value := do
  let tokens ← Token.ofText text
  let read ← read? tokens
  if read.rest.isEmpty then some read.value else none

end Value

end Phrasebook.Json

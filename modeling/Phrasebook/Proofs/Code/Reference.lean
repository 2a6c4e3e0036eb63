/-
This file collects what the accessors refer to. The main statement is that outside of conditions
every reference has a definition.
-/

import Phrasebook.Proofs.Code.Line

namespace Phrasebook.Code

open Text

/-- What code refers to: a method of the entry itself, a name that belongs to the enum, or
something outside of its own module. -/
inductive Reference where
  | method (name : String)
  | associated (name : String)
  | outside
  deriving Repr, DecidableEq

def references : List Token → List Reference
  | [] => []
  | .word "super" :: rest => .outside :: references rest
  | .word "self" :: .mark '.' :: .word name :: rest => .method name :: references rest
  | .word "Self" :: .mark ':' :: .mark ':' :: .word name :: rest =>
      .associated name :: references rest
  | _ :: rest => references rest

/-- A name that belongs to the enum is a function without an entry or a variant. -/
def Reference.IsDefined (items : List Item) (variants : List String) : Reference → Prop
  | .method name => .method name ∈ items
  | .associated name => .function name ∈ items ∨ name ∈ variants
  | .outside => False

/-- A line that is no comment can be read, and its references have definitions. -/
def Refers (items : List Item) (variants : List String) (line : String) : Prop :=
  ['/', '/'].isPrefixOf line.toList ∨ ∃ tokens, tokens? line = some tokens ∧
    ∀ reference ∈ references tokens, reference.IsDefined items variants

/-- The words that references start with. -/
def referenceWords : List String :=
  ["self", "Self", "super"]

/-- Tokens that are none of these words refer to nothing. -/
theorem references_append {tokens : List Token} (rest : List Token)
    (free : ∀ token ∈ tokens, token ∉ referenceWords.map Token.word) :
    references (tokens ++ rest) = references rest := by
  induction tokens with
  | nil => rfl
  | cons token others inductionHypothesis =>
      obtain ⟨isFree, further⟩ := List.forall_mem_cons.mp free
      rw [List.cons_append, references.eq_def]
      split
      · rename_i never
        cases never
      · rename_i same
        rw [(List.cons.inj same).1] at isFree
        exact absurd (by decide) isFree
      · rename_i same
        rw [(List.cons.inj same).1] at isFree
        exact absurd (by decide) isFree
      · rename_i same
        rw [(List.cons.inj same).1] at isFree
        exact absurd (by decide) isFree
      · rename_i same
        rw [← (List.cons.inj same).2]
        exact inductionHypothesis further

/-- Identifiers are none of the words that references start with. -/
theorem not_mem_referenceWords {text : String} (identifier : isIdentifier text) :
    Token.word text ∉ referenceWords.map Token.word := by
  have keywords : ∀ word ∈ referenceWords, isIdentifier word = false := by decide +kernel
  intro member
  obtain ⟨word, isWord, same⟩ := List.mem_map.mp member
  rw [← Token.word.inj same, keywords word isWord] at identifier
  cases identifier

/-- A pattern refers to the variant of its entry only. -/
theorem references_pattern {entry : Entry} (wellNamed : entry.WellNamed) (rest : List Token) :
    references (patternTokens entry ++ rest) =
      .associated entry.variantName :: references rest := by
  rw [patternTokens, List.append_assoc]
  change Reference.associated entry.variantName :: references (_ ++ rest) = _
  rw [references_append rest]
  split
  · intro token member
    rw [List.mem_append, List.mem_cons] at member
    obtain (isOpen | isField) | isClose := member
    · rw [isOpen]
      decide
    · obtain isComma | isWord := Lists.mem_intersperse isField
      · rw [isComma]
        decide
      · obtain ⟨parameter, isParameter, rfl⟩ := List.mem_map.mp isWord
        exact not_mem_referenceWords (wellNamed.parameters parameter isParameter)
    · rw [List.mem_singleton.mp isClose]
      decide
  · exact List.forall_mem_nil _

/-- All lines of some nodes refer to what has a definition. -/
def Resolves (items : List Item) (variants : List String) (inArm : Bool) (nodes : List Node) :
    Prop :=
  ∀ line ∈ codeOf inArm nodes, Refers items variants line

variable {catalog : Catalog}

/-- The lines of the accessors resolve to the items and the variants of the catalog. -/
def Closed (catalog : Catalog) (embedded : Option String) (nodes : List Node) : Prop :=
  Resolves (itemsOf catalog embedded) (catalog.entries.map (·.variantName)) false nodes

/-- What an item refers to in one of its lines has a definition. -/
theorem ItemLine.isDefined (wellNamed : catalog.WellNamed) (embedded : Option String)
    {tokens : List Token} (isLine : ItemLine catalog tokens) :
    ∀ reference ∈ references tokens,
      reference.IsDefined (itemsOf catalog embedded) (catalog.entries.map (·.variantName)) := by
  have none {found : List Token} (free : references found = []) :
      ∀ reference ∈ references found,
        reference.IsDefined (itemsOf catalog embedded) (catalog.entries.map (·.variantName)) := by
    rw [free]
    exact List.forall_mem_nil _
  have variant {entry : Entry} (member : entry ∈ catalog.entries) {rest : List Token}
      (free : references rest = []) : ∀ reference ∈ references (patternTokens entry ++ rest),
        reference.IsDefined (itemsOf catalog embedded) (catalog.entries.map (·.variantName)) := by
    rw [references_pattern (wellNamed.entries entry member), free]
    exact List.forall_mem_singleton.mpr (.inr (List.mem_map.mpr ⟨entry, member, rfl⟩))
  cases isLine with
  | blank => exact none rfl
  | constant source => exact none rfl
  | systemHead => exact none rfl
  | systemCall =>
      have method : Item.method "string_for" ∈ itemsOf catalog embedded := by simp [itemsOf]
      have function : Item.function "system_language" ∈ itemsOf catalog embedded := by
        simp [itemsOf]
      exact List.forall_mem_cons.mpr
        ⟨method, List.forall_mem_singleton.mpr (.inl function)⟩
  | localeHead => exact none rfl
  | firstTest language => exact none rfl
  | furtherTest language => exact none rfl
  | otherwise => exact none rfl
  | @call language known =>
      have isMethod : Item.method (Language.methodName language) ∈
          catalog.languages.map fun language => .method (Language.methodName language) :=
        List.mem_map.mpr ⟨language, known, rfl⟩
      have method : Item.method (Language.methodName language) ∈ itemsOf catalog embedded := by
        simp [itemsOf, isMethod]
      exact List.forall_mem_singleton.mpr method
  | @languageHead language known =>
      -- the name of the method stands in the line as it is, so it must not look like a reference
      have isMethod := not_mem_referenceWords
        (Language.isIdentifier_methodName (wellNamed.languages language known))
      have before : ∀ token ∈ [Token.word "pub", .word "fn", .word (Language.methodName language),
          .mark '(', .mark '&'], token ∉ referenceWords.map Token.word :=
        List.forall_mem_cons.mpr ⟨by decide, List.forall_mem_cons.mpr ⟨by decide,
          List.forall_mem_cons.mpr ⟨isMethod, by decide⟩⟩⟩
      exact none (references_append [.word "self", .mark ')', .mark '-', .mark '>',
        .word "String", .mark '\x7b'] before)
  | noEntry => exact none rfl
  | entries => exact none rfl
  | armLine member template =>
      rw [List.append_assoc]
      apply variant member
      rw [expressionTokens]
      split
      · rfl
      · rfl
  | armHead member =>
      rw [List.append_assoc]
      exact variant member rfl
  | expression template =>
      apply none
      rw [expressionTokens]
      split
      · rfl
      · rfl
  | systemLanguage member isLine =>
      have free : ∀ line ∈ codeOf false systemLanguageNodes,
          ((tokens? line).map references) = some [] := by decide +kernel
      have isFree := free _ member
      rw [isLine] at isFree
      exact none (Option.some.inj isFree)

/-- Outside of conditions, what the accessors refer to has a definition. -/
theorem closed_implementationNodes (wellNamed : catalog.WellNamed)
    (known : catalog.defaultLanguage ∈ catalog.languages) (embedded : Option String) :
    Closed catalog embedded (implementationNodes catalog embedded) :=
  (implements_implementationNodes wellNamed known embedded).mono fun _ =>
    HasTokens.mono fun _ isLine => isLine.isDefined wellNamed embedded

end Phrasebook.Code

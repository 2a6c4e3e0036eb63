/-
This file says which names in parentheses a text mentions. The main statement is that a strict
reading refuses a text for the first of them that is no parameter.
-/

import Mathlib.Tactic.ByContra
import Phrasebook.Proofs.Catalog.Template
import Phrasebook.Proofs.Lists
import Phrasebook.Proofs.Text.Identifier

namespace Phrasebook.Template

open Text

/-- A name stands in parentheses behind the first part of a text. -/
def Mentions (text before : List Char) (name : String) : Prop :=
  isName name.toList ∧ ∃ after, text = before ++ '(' :: (name.toList ++ ')' :: after)

/-- The wanted name in parentheses that stands before all others. -/
def FirstMention (wanted : String → Prop) (text : List Char) (name : String) : Prop :=
  ∃ before, Mentions text before name ∧ wanted name ∧
    ∀ earlier other, Mentions text earlier other → earlier.length < before.length → ¬wanted other

/-- Every name in parentheses is a parameter. -/
def Declared (parameters : List String) (text : String) : Prop :=
  ∀ before name, Mentions text.toList before name → name ∈ parameters

/-- The first name in parentheses that is no parameter. -/
def FirstUndeclared (parameters : List String) (text : String) (name : String) : Prop :=
  FirstMention (· ∉ parameters) text.toList name

theorem nameAt_eq_some_iff {text : List Char} {name : String} :
    nameAt? text = some name ↔
      isName name.toList ∧ ∃ after, text = name.toList ++ ')' :: after := by
  rw [nameAt?]
  constructor
  · intro found
    split at found
    · rename_i both
      cases found
      rw [Bool.and_eq_true, beq_iff_eq, List.head?_eq_some_iff] at both
      obtain ⟨named, after, isAfter⟩ := both
      refine ⟨by rwa [String.toList_ofList], after, ?_⟩
      rw [String.toList_ofList, ← isAfter, Lists.append_drop_takeWhile]
    · cases found
  · intro spelled
    obtain ⟨named, after, rfl⟩ := spelled
    have continues := all_continuesName_of_isName named
    have taken : (name.toList ++ ')' :: after).takeWhile continuesName = name.toList := by
      rw [List.takeWhile_append_of_pos (List.all_eq_true.mp continues)]
      simp [continuesName]
    simp [taken, named]

/-- The name in parentheses with which a text starts. -/
def mentionAt? (character : Char) (rest : List Char) : Option String :=
  if character == '(' then nameAt? rest else none

theorem references_cons (character : Char) (rest : List Char) :
    references (character :: rest) = (mentionAt? character rest).toList ++ references rest := by
  rw [references, mentionAt?]
  split <;> rfl

theorem not_mentions_nil {before : List Char} {name : String} : ¬Mentions [] before name := by
  intro mentioned
  obtain ⟨_, after, same⟩ := mentioned
  simp at same

theorem mentions_nil_iff {character : Char} {rest : List Char} {name : String} :
    Mentions (character :: rest) [] name ↔ mentionAt? character rest = some name := by
  rw [Mentions, mentionAt?, Option.ite_none_right_eq_some, beq_iff_eq, nameAt_eq_some_iff]
  constructor
  · intro mentioned
    obtain ⟨named, after, same⟩ := mentioned
    cases same
    exact ⟨rfl, named, after, rfl⟩
  · intro mentioned
    obtain ⟨rfl, named, after, rfl⟩ := mentioned
    exact ⟨named, after, rfl⟩

theorem mentions_cons_iff {character first : Char} {rest before : List Char} {name : String} :
    Mentions (character :: rest) (first :: before) name ↔
      character = first ∧ Mentions rest before name := by
  simp only [Mentions, List.cons_append, List.cons.injEq, exists_and_left, and_left_comm]

theorem mem_references_iff {text : List Char} {name : String} :
    name ∈ references text ↔ ∃ before, Mentions text before name := by
  induction text with
  | nil =>
      apply iff_of_false List.not_mem_nil
      intro mentioned
      exact not_mentions_nil mentioned.choose_spec
  | cons character rest inductionHypothesis =>
      rw [references_cons, List.mem_append, Option.mem_toList,
        ← mentions_nil_iff, inductionHypothesis]
      constructor
      · intro either
        obtain here | ⟨before, later⟩ := either
        · exact ⟨[], here⟩
        · exact ⟨character :: before, mentions_cons_iff.mpr ⟨rfl, later⟩⟩
      · intro mentioned
        obtain ⟨before, isMention⟩ := mentioned
        cases before with
        | nil => exact .inl isMention
        | cons first before => exact .inr ⟨before, (mentions_cons_iff.mp isMention).2⟩

section

variable {wanted : String → Prop} {character : Char} {rest : List Char} {name first : String}

/-- No name stands before the first character. -/
theorem firstMention_here_iff (here : Mentions (character :: rest) [] first)
    (isWanted : wanted first) : FirstMention wanted (character :: rest) name ↔ first = name := by
  constructor
  · intro found
    obtain ⟨before, isMention, _, alone⟩ := found
    cases before with
    | nil =>
        rw [mentions_nil_iff] at here isMention
        exact Option.some.inj (here.symm.trans isMention)
    | cons head before => exact absurd isWanted (alone [] first here (Nat.succ_pos _))
  · intro same
    subst same
    refine ⟨[], here, isWanted, ?_⟩
    intro earlier other _ shorter
    exact absurd shorter (Nat.not_lt_zero _)

/-- A text goes on behind a character at which no wanted name stands. -/
theorem firstMention_cons_iff
    (passed : ∀ other, Mentions (character :: rest) [] other → ¬wanted other) :
    FirstMention wanted (character :: rest) name ↔ FirstMention wanted rest name := by
  constructor
  · intro found
    obtain ⟨before, isMention, isWanted, first⟩ := found
    cases before with
    | nil => exact absurd isWanted (passed name isMention)
    | cons head before =>
        refine ⟨before, (mentions_cons_iff.mp isMention).2, isWanted, ?_⟩
        intro earlier other isOther shorter
        exact first (character :: earlier) other (mentions_cons_iff.mpr ⟨rfl, isOther⟩)
          (Nat.succ_lt_succ shorter)
  · intro found
    obtain ⟨before, isMention, isWanted, first⟩ := found
    refine ⟨character :: before, mentions_cons_iff.mpr ⟨rfl, isMention⟩, isWanted, ?_⟩
    intro earlier other isOther shorter
    cases earlier with
    | nil => exact passed other isOther
    | cons head earlier =>
        exact first earlier other (mentions_cons_iff.mp isOther).2 (Nat.lt_of_succ_lt_succ shorter)

end

/-- A search among the names in parentheses finds the first one that is wanted. -/
theorem find_references_eq_some_iff {wanted : String → Bool} {text : List Char} {name : String} :
    (references text).find? wanted = some name ↔ FirstMention (wanted · = true) text name := by
  induction text with
  | nil =>
      apply iff_of_false (by simp [references])
      intro found
      exact not_mentions_nil found.choose_spec.1
  | cons character rest inductionHypothesis =>
      rw [references_cons]
      cases isHere : mentionAt? character rest with
      | none =>
          rw [Option.toList_none, List.nil_append, inductionHypothesis, firstMention_cons_iff]
          intro other here
          rw [mentions_nil_iff, isHere] at here
          cases here
      | some first =>
          have here := mentions_nil_iff.mpr isHere
          rw [Option.toList_some, List.singleton_append]
          by_cases isWanted : wanted first = true
          · rw [List.find?_cons_of_pos isWanted, firstMention_here_iff here isWanted,
              Option.some.injEq]
          · rw [List.find?_cons_of_neg isWanted, inductionHypothesis, firstMention_cons_iff]
            intro other isOther
            rw [mentions_nil_iff, isHere] at isOther
            cases isOther
            exact isWanted

variable {parameters : List String} {text : String}

theorem undeclared_eq_nil_iff :
    undeclared parameters text = [] ↔ ∀ name ∈ references text.toList, name ∈ parameters := by
  rw [undeclared, List.eq_nil_iff_forall_not_mem]
  constructor
  · intro none name member
    by_contra missing
    apply none name
    rw [List.mem_eraseDups, List.mem_filter]
    exact ⟨member, by simpa using missing⟩
  · intro declared name member
    rw [List.mem_eraseDups, List.mem_filter] at member
    simp [declared name member.1] at member

theorem undeclared_eq_nil_iff_declared :
    undeclared parameters text = [] ↔ Declared parameters text := by
  simp only [undeclared_eq_nil_iff, mem_references_iff, Declared, forall_exists_index]
  exact forall_comm

theorem head_undeclared (parameters : List String) (text : String) :
    (undeclared parameters text).head? =
      (references text.toList).find? (!parameters.contains ·) := by
  rw [← List.head?_filter, undeclared]
  cases (references text.toList).filter (!parameters.contains ·) with
  | nil => rfl
  | cons first rest => rw [List.eraseDups_cons, List.head?_cons, List.head?_cons]

theorem head_undeclared_eq_some_iff {name : String} :
    (undeclared parameters text).head? = some name ↔ FirstUndeclared parameters text name := by
  rw [head_undeclared, find_references_eq_some_iff, FirstUndeclared]
  simp

/-- A strict reading refuses a text exactly for the first undeclared name. -/
theorem read_eq_error_iff {strict : Bool} {key : String} {defect : Defect} :
    read strict key parameters text = .error defect ↔ strict = true ∧
      ∃ name, FirstUndeclared parameters text name ∧ defect = .undeclaredParameter key name := by
  simp only [← head_undeclared_eq_some_iff]
  cases strict with
  | false => simp [read]
  | true =>
      rw [read, if_pos rfl, ofTextStrict]
      cases undeclared parameters text with
      | nil => simp
      | cons name rest => simp [eq_comm]

end Phrasebook.Template

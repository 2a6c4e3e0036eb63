/-
This file says into which templates texts are split. The main statement is that splitting a text
and showing a template undo each other between texts and canonical templates.
-/

import Mathlib.Data.List.Chain
import Phrasebook.Proofs.Catalog.Mention

namespace Phrasebook

open Text

/-- A segment that stands for itself. -/
def Segment.isLiteral : Segment → Bool
  | literal _ => true
  | placeholder _ => false

@[simp] theorem Segment.isLiteral_literal (text : String) : (literal text).isLiteral = true := rfl

@[simp] theorem Segment.isLiteral_placeholder (parameter : String) :
    (placeholder parameter).isLiteral = false := rfl

namespace Template

/-- The parameter does not stand in parentheses in the text. -/
def Free (parameter : String) (text : List Char) : Prop :=
  ¬('(' :: parameter.toList ++ [')']) <:+: text

/-- Only parameters are placeholders, and literals are neither empty nor side by side nor do they
hold a parameter in parentheses. -/
structure Canonical (parameters : List String) (template : Template) : Prop where
  declared : template.placeholders ⊆ parameters
  inhabited : ∀ text, .literal text ∈ template → text ≠ ""
  apart : template.IsChain fun first second => ¬(first.isLiteral ∧ second.isLiteral)
  free : ∀ text, .literal text ∈ template → ∀ parameter ∈ parameters, Free parameter text.toList

/-- At no parenthesis of a literal a placeholder starts where the text goes on behind it. -/
def Passed (parameters : List String) : List Char → List Char → Prop
  | [], _ => True
  | character :: literal, rest =>
      (character = '(' → parameterAt? parameters (literal ++ rest) = none) ∧
        Passed parameters literal rest

section

variable {parameters : List String} {template : Template}

@[simp] theorem canonical_nil : Canonical parameters [] := by
  constructor <;> simp [placeholders]

@[simp] theorem canonical_placeholder_iff {parameter : String} :
    Canonical parameters (.placeholder parameter :: template) ↔
      parameter ∈ parameters ∧ Canonical parameters template := by
  constructor
  · intro canonical
    obtain ⟨declared, inhabited, apart, free⟩ := canonical
    obtain ⟨isParameter, others⟩ := List.cons_subset.mp declared
    exact ⟨isParameter, others, by simpa using inhabited, apart.tail, by simpa using free⟩
  · intro both
    obtain ⟨isParameter, declared, inhabited, apart, free⟩ := both
    refine ⟨List.cons_subset.mpr ⟨isParameter, declared⟩, by simpa using inhabited, ?_,
      by simpa using free⟩
    simpa [List.isChain_cons] using apart

theorem canonical_literal_iff {text : String} :
    Canonical parameters (.literal text :: template) ↔
      text ≠ "" ∧ (∀ parameter ∈ parameters, Free parameter text.toList) ∧
        (∀ second ∈ template.head?, second.isLiteral = false) ∧ Canonical parameters template := by
  constructor
  · intro canonical
    obtain ⟨declared, inhabited, apart, free⟩ := canonical
    rw [List.isChain_cons] at apart
    refine ⟨inhabited text List.mem_cons_self, free text List.mem_cons_self, ?_, declared, ?_,
      apart.2, ?_⟩
    · simpa using apart.1
    · exact fun other member => inhabited other (List.mem_cons_of_mem _ member)
    · exact fun other member => free other (List.mem_cons_of_mem _ member)
  · intro parts
    obtain ⟨isInhabited, isFree, isLast, declared, inhabited, apart, free⟩ := parts
    refine ⟨declared, ?_, ?_, ?_⟩
    · simpa [isInhabited] using inhabited
    · rw [List.isChain_cons]
      exact ⟨by simpa using isLast, apart⟩
    · intro other member
      obtain same | further := List.mem_cons.mp member
      · cases same
        exact isFree
      · exact free other further

theorem toList_display_placeholder (parameter : String) (template : Template) :
    (display (.placeholder parameter :: template)).toList =
      '(' :: (parameter.toList ++ ')' :: (display template).toList) := by
  simp [Segment.display]

theorem parameterAt_eq_none_iff {text : List Char} :
    parameterAt? parameters text = none ↔
      ∀ parameter ∈ parameters, ¬(parameter.toList ++ [')']) <+: text := by
  simp [parameterAt?]

/-- What is in front of a parenthesis and has none itself is in front of all that follows. -/
theorem prefix_of_prefix_append {front literal rest : List Char} (noOpen : '(' ∉ front)
    (opens : ∀ character ∈ rest.head?, character = '(') (starts : front <+: literal ++ rest) :
    front <+: literal := by
  obtain within | ⟨beyond, rfl⟩ :=
    List.prefix_or_prefix_of_prefix starts (List.prefix_append literal rest)
  · exact within
  · cases beyond with
    | nil => simp
    | cons first beyond =>
        obtain ⟨after, rfl⟩ := (List.prefix_append_right_inj literal).mp starts
        have isOpen := opens first (by simp)
        simp [isOpen] at noOpen

theorem passed_append {first second rest : List Char} :
    Passed parameters (first ++ second) rest ↔
      Passed parameters first (second ++ rest) ∧ Passed parameters second rest := by
  induction first with
  | nil => simp [Passed]
  | cons character first inductionHypothesis =>
      simp only [List.cons_append, Passed, inductionHypothesis, List.append_assoc, and_assoc]

/-- A literal that was passed over holds no parameter in parentheses. -/
theorem Passed.free {literal rest : List Char} (passed : Passed parameters literal rest)
    {parameter : String} (isParameter : parameter ∈ parameters) : Free parameter literal := by
  intro inside
  obtain ⟨before, after, rfl⟩ := inside
  rw [List.append_assoc, passed_append] at passed
  have missing := passed.2.1 rfl
  rw [parameterAt_eq_none_iff] at missing
  exact missing parameter isParameter ⟨after ++ rest, by simp⟩

/-- A literal that can be passed over goes to the literal before it. -/
theorem Passed.split_eq {literal rest : List Char} (passed : Passed parameters literal rest)
    (reversed : List Char) :
    split parameters reversed (literal ++ rest) =
      split parameters (literal.reverse ++ reversed) rest := by
  induction literal generalizing reversed with
  | nil => rfl
  | cons character literal inductionHypothesis =>
      obtain ⟨missing, further⟩ := passed
      have onward := inductionHypothesis further (character :: reversed)
      rw [List.reverse_cons, List.append_assoc, List.singleton_append, ← onward, List.cons_append]
      by_cases isOpen : character = '('
      · subst isOpen
        exact split_missing (missing rfl)
      · exact split_other isOpen

/-- The literal that was passed over stands in front of a placeholder or at the end. -/
theorem canonical_literal_append {reversed rest : List Char}
    (passed : Passed parameters reversed.reverse rest)
    (isLast : ∀ second ∈ template.head?, second.isLiteral = false)
    (canonical : Canonical parameters template) :
    Canonical parameters (literal reversed ++ template) := by
  cases reversed with
  | nil => exact canonical
  | cons character reversed =>
      refine canonical_literal_iff.mpr ⟨by simp, ?_, isLast, canonical⟩
      intro parameter isParameter
      simpa using passed.free isParameter

/-- A text is split into a canonical template, whatever the parameters are. -/
theorem canonical_split (parameters : List String) (reversed text : List Char)
    (passed : Passed parameters reversed.reverse text) :
    Canonical parameters (split parameters reversed text) := by
  induction reversed, text using split.induct parameters with
  | case1 reversed =>
      rw [split_nil, ← List.append_nil (literal reversed)]
      exact canonical_literal_append passed (by simp) canonical_nil
  | case2 reversed character rest isOpen parameter found inductionHypothesis =>
      cases eq_of_beq isOpen
      rw [split_found found]
      refine canonical_literal_append passed (by simp) ?_
      exact canonical_placeholder_iff.mpr
        ⟨(parameterAt_eq_some found).1, inductionHypothesis trivial⟩
  | case3 reversed character rest isOpen missing inductionHypothesis =>
      cases eq_of_beq isOpen
      rw [split_missing missing]
      apply inductionHypothesis
      rw [List.reverse_cons, passed_append]
      exact ⟨passed, fun _ => missing, trivial⟩
  | case4 reversed character rest other inductionHypothesis =>
      rw [split_other (by simpa using other)]
      apply inductionHypothesis
      rw [List.reverse_cons, passed_append]
      exact ⟨passed, fun isOpen => absurd isOpen (by simpa using other), trivial⟩

end

section

variable {parameters : List String} (names : ∀ parameter ∈ parameters, isName parameter.toList)
include names

/-- Where all parameters are names, only the name at the front of a text can be a placeholder. -/
theorem parameterAt_eq_some_iff {text : List Char} {parameter : String} :
    parameterAt? parameters text = some parameter ↔
      nameAt? text = some parameter ∧ parameter ∈ parameters := by
  have isNameAt {parameter : String} (found : parameterAt? parameters text = some parameter) :
      nameAt? text = some parameter := by
    obtain ⟨isParameter, spelled⟩ := parameterAt_eq_some found
    exact nameAt_eq_some_iff.mpr ⟨names parameter isParameter, _, spelled⟩
  constructor
  · intro found
    exact ⟨isNameAt found, (parameterAt_eq_some found).1⟩
  · intro both
    obtain ⟨isHere, isParameter⟩ := both
    cases found : parameterAt? parameters text with
    | some other => rw [← isHere, isNameAt found]
    | none =>
        obtain ⟨_, after, spelled⟩ := nameAt_eq_some_iff.mp isHere
        rw [parameterAt_eq_none_iff] at found
        exact absurd ⟨after, by simp [spelled]⟩ (found parameter isParameter)

/-- A literal without parameters in parentheses can be passed over in front of a parenthesis. -/
theorem passed_of_free {literal rest : List Char}
    (free : ∀ parameter ∈ parameters, Free parameter literal)
    (opens : ∀ character ∈ rest.head?, character = '(') : Passed parameters literal rest := by
  induction literal with
  | nil => trivial
  | cons character literal inductionHypothesis =>
      constructor
      · rintro rfl
        rw [parameterAt_eq_none_iff]
        intro parameter isParameter starts
        have noOpen := not_mem_of_isName (names parameter isParameter) '(' (by decide)
        have inside := prefix_of_prefix_append (by simpa using noOpen) opens starts
        obtain ⟨after, rfl⟩ := inside
        exact free parameter isParameter ⟨[], after, by simp⟩
      · apply inductionHypothesis
        intro parameter isParameter inside
        exact free parameter isParameter (inside.trans (List.suffix_cons _ _).isInfix)

/-- A parameter in parentheses is split off. -/
theorem split_parameter {parameter : String} (isParameter : parameter ∈ parameters)
    (reversed rest : List Char) :
    split parameters reversed ('(' :: (parameter.toList ++ ')' :: rest)) =
      literal reversed ++ .placeholder parameter :: split parameters [] rest := by
  have isHere : nameAt? (parameter.toList ++ ')' :: rest) = some parameter :=
    nameAt_eq_some_iff.mpr ⟨names parameter isParameter, rest, rfl⟩
  rw [split_found ((parameterAt_eq_some_iff names).mpr ⟨isHere, isParameter⟩)]
  simp [List.drop_append, List.drop_of_length_le]

/-- A literal ends where the template goes on with a placeholder or not at all. -/
theorem split_display_of_head {template : Template}
    (isLast : ∀ second ∈ template.head?, second.isLiteral = false)
    (declared : template.placeholders ⊆ parameters) (reversed : List Char) :
    split parameters reversed (display template).toList =
      literal reversed ++ split parameters [] (display template).toList := by
  cases template with
  | nil => simp [split_nil, literal]
  | cons segment template =>
      cases segment with
      | literal text => simp at isLast
      | placeholder parameter =>
          have isParameter : parameter ∈ parameters := declared List.mem_cons_self
          rw [toList_display_placeholder, split_parameter names isParameter,
            split_parameter names isParameter]
          rfl

/-- A canonical template is what the text that it shows is split into. -/
theorem split_display {template : Template} (canonical : Canonical parameters template) :
    split parameters [] (display template).toList = template := by
  induction template with
  | nil => simp [split_nil, literal]
  | cons segment template inductionHypothesis =>
      cases segment with
      | placeholder parameter =>
          obtain ⟨isParameter, further⟩ := canonical_placeholder_iff.mp canonical
          rw [toList_display_placeholder, split_parameter names isParameter,
            inductionHypothesis further]
          rfl
      | literal text =>
          obtain ⟨inhabited, free, isLast, further⟩ := canonical_literal_iff.mp canonical
          have opens : ∀ character ∈ (display template).toList.head?, character = '(' := by
            cases template with
            | nil => simp
            | cons second template =>
                cases second with
                | literal _ => simp at isLast
                | placeholder _ => simp [Segment.display]
          have passed := passed_of_free names free opens
          have isLiteral : Template.literal text.toList.reverse = [.literal text] := by
            simp [Template.literal, inhabited]
          rw [display_cons, String.toList_append]
          calc split parameters [] (text.toList ++ (display template).toList)
              = split parameters text.toList.reverse (display template).toList := by
                simpa using passed.split_eq []
            _ = Template.literal text.toList.reverse ++ template := by
                rw [split_display_of_head names isLast further.declared,
                  inductionHypothesis further]
            _ = .literal text :: template := by rw [isLiteral]; rfl

end

/-- Splitting a text and showing a template undo each other between texts and canonical templates,
and the order of the parameters does not matter. -/
theorem ofText_canonical (parameters : List String) :
    (∀ text, (ofText parameters text).display = text ∧
      Canonical parameters (ofText parameters text)) ∧
      ((∀ parameter ∈ parameters, isName parameter.toList) →
        (∀ template, Canonical parameters template →
          ofText parameters template.display = template) ∧
          ∀ others, others.Perm parameters →
            ∀ text, ofText others text = ofText parameters text) := by
  have isCanonical (parameters : List String) (text : String) :
      Canonical parameters (ofText parameters text) := canonical_split parameters [] _ trivial
  refine ⟨fun text => ⟨display_ofText parameters text, isCanonical parameters text⟩, ?_⟩
  intro names
  refine ⟨fun template => split_display names, ?_⟩
  intro others rearranged text
  have canonical := isCanonical others text
  have same : ofText parameters (ofText others text).display = ofText others text := by
    refine split_display names ⟨?_, canonical.inhabited, canonical.apart, ?_⟩
    · exact List.Subset.trans canonical.declared rearranged.subset
    · intro literal member parameter isParameter
      exact canonical.free literal member parameter (rearranged.mem_iff.mpr isParameter)
  rw [← same, display_ofText]

/-- One parameter is the beginning of the other, a parenthesis stays open and a name is none of
them. -/
theorem ofText_canonical_beginning :
    (∀ parameter ∈ ["a", "ab"], isName parameter.toList) ∧
      Canonical ["a", "ab"] [.literal "(", .placeholder "ab", .placeholder "a", .literal "(b)"] ∧
      ofText ["a", "ab"] "((ab)(a)(b)" =
        [.literal "(", .placeholder "ab", .placeholder "a", .literal "(b)"] ∧
      ofText ["ab", "a"] "((ab)(a)(b)" = ofText ["a", "ab"] "((ab)(a)(b)" := by
  have names : ∀ parameter ∈ ["a", "ab"], isName parameter.toList := by decide
  have canonical : Canonical ["a", "ab"]
      [.literal "(", .placeholder "ab", .placeholder "a", .literal "(b)"] := by
    have free : ∀ text ∈ ["(", "(b)"], ∀ parameter ∈ ["a", "ab"], Free parameter text.toList := by
      unfold Free
      decide
    simp only [canonical_literal_iff, canonical_placeholder_iff]
    exact ⟨by decide, free _ (by decide), by simp, by decide, by decide, by decide,
      free _ (by decide), by simp, canonical_nil⟩
  obtain ⟨inverse, anyOrder⟩ := (ofText_canonical ["a", "ab"]).2 names
  exact ⟨names, canonical, inverse _ canonical, anyOrder _ (.swap _ _ _) _⟩

end Template

end Phrasebook

/-
This file says what the segments of a template keep of its text.
-/

import Phrasebook.Catalog.Template

namespace Phrasebook.Template

open Text

/-- A parameter at the front of a text is one of the list and ends at a parenthesis. -/
theorem parameterAt_eq_some {parameters : List String} {text : List Char} {parameter : String}
    (found : parameterAt? parameters text = some parameter) :
    parameter ∈ parameters ∧
      text = parameter.toList ++ ')' :: text.drop (parameter.toList.length + 1) := by
  have member := List.mem_of_find?_eq_some found
  have starts := List.find?_some found
  obtain ⟨rest, same⟩ := List.isPrefixOf_iff_prefix.mp starts
  refine ⟨member, ?_⟩
  rw [← same]
  simp [List.drop_append]

theorem split_nil (parameters : List String) (reversed : List Char) :
    split parameters reversed [] = literal reversed := by
  rw [split]

/-- A parameter in parentheses ends the literal before it. -/
theorem split_found {parameters : List String} {reversed rest : List Char} {parameter : String}
    (found : parameterAt? parameters rest = some parameter) :
    split parameters reversed ('(' :: rest) = literal reversed ++ .placeholder parameter ::
      split parameters [] (rest.drop (parameter.toList.length + 1)) := by
  rw [split, if_pos (by decide)]
  simp only [found]

/-- A parenthesis without a parameter behind it belongs to the literal. -/
theorem split_missing {parameters : List String} {reversed rest : List Char}
    (missing : parameterAt? parameters rest = none) :
    split parameters reversed ('(' :: rest) = split parameters ('(' :: reversed) rest := by
  rw [split, if_pos (by decide)]
  simp only [missing]

theorem split_other {parameters : List String} {reversed rest : List Char} {character : Char}
    (other : character ≠ '(') :
    split parameters reversed (character :: rest) =
      split parameters (character :: reversed) rest := by
  rw [split, if_neg (by simpa using other)]

@[simp] theorem display_nil : display [] = "" :=
  String.join_nil

@[simp] theorem display_cons (segment : Segment) (template : Template) :
    display (segment :: template) = segment.display ++ display template :=
  String.join_cons

@[simp] theorem display_append (first second : Template) :
    display (first ++ second) = display first ++ display second := by
  simp only [display, List.map_append, String.join_append]

@[simp] theorem display_literal (reversed : List Char) :
    display (literal reversed) = String.ofList reversed.reverse := by
  cases reversed with
  | nil => rfl
  | cons character rest => simp [literal, Segment.display]

/-- The segments of a text after a literal show both again. -/
theorem display_split (parameters : List String) (reversed text : List Char) :
    (display (split parameters reversed text)).toList = reversed.reverse ++ text := by
  induction reversed, text using split.induct parameters with
  | case1 reversed =>
      rw [split_nil, display_literal, String.toList_ofList, List.append_nil]
  | case2 reversed character rest isOpen parameter found inductionHypothesis =>
      cases eq_of_beq isOpen
      have spelled := (parameterAt_eq_some found).2
      rw [split_found found, display_append, display_literal, display_cons,
        String.toList_append, String.toList_append, String.toList_ofList, inductionHypothesis]
      congr 1
      calc (Segment.placeholder parameter).display.toList ++
            ([].reverse ++ rest.drop (parameter.toList.length + 1))
          = '(' :: (parameter.toList ++ ')' :: rest.drop (parameter.toList.length + 1)) := by
            simp [Segment.display]
        _ = '(' :: rest := by rw [← spelled]
  | case3 reversed character rest isOpen missing inductionHypothesis =>
      cases eq_of_beq isOpen
      rw [split_missing missing, inductionHypothesis]
      simp
  | case4 reversed character rest other inductionHypothesis =>
      rw [split_other (by simpa using other), inductionHypothesis]
      simp

/-- A template shows the text that it was read from. -/
theorem display_ofText (parameters : List String) (text : String) :
    display (ofText parameters text) = text := by
  apply String.toList_inj.mp
  rw [ofText, display_split, List.reverse_nil, List.nil_append]

@[simp] theorem placeholders_append (first second : Template) :
    (first ++ second).placeholders = first.placeholders ++ second.placeholders :=
  List.filterMap_append

@[simp] theorem placeholders_literal (reversed : List Char) :
    (literal reversed).placeholders = [] := by
  cases reversed with
  | nil => rfl
  | cons character rest => rfl

/-- Every placeholder of a text is one of the parameters. -/
theorem placeholders_split_subset (parameters : List String) (reversed text : List Char) :
    (split parameters reversed text).placeholders ⊆ parameters := by
  induction reversed, text using split.induct parameters with
  | case1 reversed =>
      rw [split_nil, placeholders_literal]
      exact List.nil_subset _
  | case2 reversed character rest isOpen parameter found inductionHypothesis =>
      cases eq_of_beq isOpen
      rw [split_found found, placeholders_append, placeholders_literal]
      exact List.cons_subset.mpr ⟨(parameterAt_eq_some found).1, inductionHypothesis⟩
  | case3 reversed character rest isOpen missing inductionHypothesis =>
      cases eq_of_beq isOpen
      rw [split_missing missing]
      exact inductionHypothesis
  | case4 reversed character rest other inductionHypothesis =>
      rw [split_other (by simpa using other)]
      exact inductionHypothesis

theorem placeholders_ofText_subset (parameters : List String) (text : String) :
    (ofText parameters text).placeholders ⊆ parameters :=
  placeholders_split_subset parameters [] text.toList

end Phrasebook.Template

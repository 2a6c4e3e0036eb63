/-
This file reads the arms that match an entry. The main statement is that the arm of an entry
names its variant and its parameters and gives the text of its wording.
-/

import Phrasebook.Proofs.Catalog.Names
import Phrasebook.Proofs.Code.Branch
import Phrasebook.Proofs.Code.Expression
import Phrasebook.Proofs.Text.Identifier

namespace Phrasebook

open Text

namespace Entry

variable {entry : Entry}

theorem parameters_ne_nil (has : entry.key.hasParameters = true) : entry.parameters ≠ [] := by
  intro none
  rw [EntryKey.hasParameters, ← parameters, none] at has
  cases has

theorem parameters_eq_nil (has : entry.key.hasParameters = false) : entry.parameters = [] := by
  simpa [EntryKey.hasParameters, parameters] using has

end Entry

namespace Code

/-- What an arm gives is an expression or a block. -/
inductive ArmBody where
  | expression (tokens : List Token)
  | block (nodes : List Node)

structure Arm where
  variant : String
  fields : List String
  body : ArmBody

/-- Words between commas up to a closing brace, and the tokens behind it. -/
def fields? : List Token → Option (List String × List Token)
  | .word field :: .mark '\x7d' :: rest => some ([field], rest)
  | .word field :: .mark ',' :: rest =>
      (fields? rest).map fun (fields, rest) => (field :: fields, rest)
  | _ => none

/-- The variant and the fields of a pattern, and the tokens behind it. -/
def pattern? : List Token → Option (String × List String × List Token)
  | .word "Self" :: .mark ':' :: .mark ':' :: .word variant :: .mark '\x7b' :: rest =>
      (fields? rest).map fun (fields, rest) => (variant, fields, rest)
  | .word "Self" :: .mark ':' :: .mark ':' :: .word variant :: rest => some (variant, [], rest)
  | _ => none

/-- An arm ends with a comma or with a block. -/
def arm? : Node → Option Arm
  | .line text =>
      match (tokens? text).bind pattern? with
      | some (variant, fields, .mark '=' :: .mark '>' :: rest) =>
          if rest.getLast? == some (.mark ',') then
            some ⟨variant, fields, .expression rest.dropLast⟩
          else none
      | _ => none
  | .block head nodes =>
      match (tokens? head).bind pattern? with
      | some (variant, fields, [.mark '=', .mark '>', .mark '\x7b']) =>
          some ⟨variant, fields, .block nodes⟩
      | _ => none

/-- The text of an arm. Only the fields of its pattern have values. -/
def Arm.text? (holds : String → Bool) (arguments : Arguments) (arm : Arm) : Option String :=
  let values : Arguments := fun name => if name ∈ arm.fields then arguments name else none
  match arm.body with
  | .expression tokens => value? values tokens
  | .block nodes =>
      ((result? (fun condition => some (holds condition)) nodes).bind tokens?).bind (value? values)

theorem isWord_of_isIdentifier {text : String} (identifier : isIdentifier text) :
    IsWord text ∧ isName text.toList := by
  have named := isName_of_isIdentifier identifier
  have notEmpty : text ≠ "" := by
    rintro rfl
    cases named
  exact ⟨⟨notEmpty, all_continuesName_of_isName named⟩, named⟩

theorem isWord_parameters {entry : Entry} (wellNamed : entry.WellNamed) :
    ∀ parameter ∈ entry.parameters, IsWord parameter :=
  fun parameter member => (isWord_of_isIdentifier (wellNamed.parameters parameter member)).1

/-- The tokens of the pattern of an entry. -/
def patternTokens (entry : Entry) : List Token :=
  [.word "Self", .mark ':', .mark ':', .word entry.variantName] ++
    if entry.key.hasParameters then
      .mark '\x7b' :: (entry.parameters.map Token.word).intersperse (.mark ',') ++ [.mark '\x7d']
    else []

theorem spells_pattern {entry : Entry} (wellNamed : entry.WellNamed) :
    Spells .between (pattern entry ++ " =>") (patternTokens entry ++ [.mark '=', .mark '>'])
      .between := by
  have start : Spells .between "Self::" [.word "Self", .mark ':', .mark ':'] .between := rfl
  have isVariant := (isWord_of_isIdentifier wellNamed.variant).1
  rw [pattern, patternTokens]
  cases has : entry.key.hasParameters with
  | true =>
      have notEmpty := Entry.parameters_ne_nil has
      have named : Spells .between (entry.variantName ++ " ") [.word entry.variantName] .between :=
        Spells.wordThen isVariant fun _ => rfl
      have opened : Spells .between "\x7b " [.mark '\x7b'] .between := rfl
      have listed : Spells .between (commaSeparated entry.parameters ++ " \x7d")
          ((entry.parameters.map Token.word).intersperse (.mark ',') ++ [.mark '\x7d'])
          .between :=
        Spells.wordsThen notEmpty (isWord_parameters wellNamed) fun _ => rfl
      have arrow : Spells .between " =>" [.mark '=', .mark '>'] .between := rfl
      have spelled := start.append (named.append (opened.append (listed.append arrow)))
      simpa [braced, String.append_assoc] using spelled
  | false =>
      have named : Spells .between (entry.variantName ++ " =>")
          [.word entry.variantName, .mark '=', .mark '>'] .between :=
        Spells.wordThen isVariant fun _ => rfl
      have spelled := start.append named
      simpa [String.append_assoc] using spelled

theorem fields_intersperse {parameters : List String} (notEmpty : parameters ≠ [])
    (rest : List Token) :
    fields? ((parameters.map Token.word).intersperse (.mark ',') ++ .mark '\x7d' :: rest) =
      some (parameters, rest) := by
  induction parameters with
  | nil => exact absurd rfl notEmpty
  | cons parameter others inductionHypothesis =>
      cases others with
      | nil => rfl
      | cons second more =>
          have further := inductionHypothesis (by simp)
          rw [List.map_cons, List.map_cons, List.intersperse_cons_cons, List.cons_append,
            List.cons_append, fields?, ← List.map_cons, further]
          rfl

/-- A pattern is read as the variant and the parameters of its entry. -/
theorem pattern_patternTokens (entry : Entry) (rest : List Token) :
    pattern? (patternTokens entry ++ .mark '=' :: rest) =
      some (entry.variantName, entry.parameters, .mark '=' :: rest) := by
  rw [patternTokens]
  cases has : entry.key.hasParameters with
  | true =>
      have notEmpty := Entry.parameters_ne_nil has
      have isFields := fields_intersperse notEmpty (.mark '=' :: rest)
      simp [pattern?, isFields]
  | false =>
      rw [Entry.parameters_eq_nil has]
      rfl

/-- The conditions of a wording with the expression for each. -/
def conditionTests (wording : Wording) : List (String × String) :=
  wording.conditionals.map fun conditional =>
    (conditional.condition, templateExpression conditional.template)

/-- The blocks behind the pattern of an arm with conditions. -/
def armNodes (wording : Wording) : List Node :=
  chainNodes (conditionTests wording) (templateExpression wording.base)

/-- The node of the arm of an entry. -/
def armNode (entry : Entry) (wording : Wording) : Node :=
  if wording.conditionals.isEmpty then
    .line (pattern entry ++ " => " ++ templateExpression wording.base ++ ",")
  else .block (opening (pattern entry ++ " =>")) (armNodes wording)

/-- The arm of an entry. -/
def armOf (entry : Entry) (wording : Wording) : Arm :=
  ⟨entry.variantName, entry.parameters,
    if wording.conditionals.isEmpty then .expression (expressionTokens wording.base)
    else .block (armNodes wording)⟩

theorem lineKind_expression (template : Template) :
    lineKind (templateExpression template) = .plain := by
  rw [templateExpression]
  split
  · simp [lineKind, List.getLast?_cons, List.getLast?_append]
  · simp [lineKind, List.getLast?_cons, List.getLast?_append]

theorem lineKind_armLine (entry : Entry) (expression : String) :
    lineKind (pattern entry ++ " => " ++ expression ++ ",") = .plain := by
  rw [pattern]
  split
  · simp [lineKind, List.getLast?_cons, List.getLast?_append]
  · simp [lineKind, List.getLast?_cons, List.getLast?_append]

theorem lineKind_armHead (entry : Entry) :
    lineKind (opening (pattern entry ++ " =>")) = .opens := by
  rw [pattern]
  split
  · simp [lineKind, opening, List.getLast?_cons, List.getLast?_append]
  · simp [lineKind, opening, List.getLast?_cons, List.getLast?_append]

theorem nests_arm (entry : Entry) (wording : Wording) :
    Nests (arm entry wording) [armNode entry wording] := by
  rw [arm, armNode]
  split
  · exact Nests.line (lineKind_armLine entry _)
  · have plain : ∀ test ∈ conditionTests wording, lineKind test.2 = .plain := by
      intro test member
      obtain ⟨conditional, _, rfl⟩ := List.mem_map.mp member
      exact lineKind_expression _
    have inner := nests_chain plain (lineKind_expression wording.base)
    rw [conditionTests, List.map_map] at inner
    exact Nests.block (lineKind_armHead entry) inner

/-- The tokens of an arm on one line. -/
theorem tokens_armLine {entry : Entry} (wellNamed : entry.WellNamed) (template : Template) :
    tokens? (pattern entry ++ " => " ++ templateExpression template ++ ",") =
      some (patternTokens entry ++
        [.mark '=', .mark '>'] ++ (expressionTokens template ++ [.mark ','])) := by
  have isLine := ((spells_pattern wellNamed).append
    ((show Spells .between " " [] .between from rfl).append
      ((spells_expression template).append
        (show Spells .between "," [.mark ','] .between from rfl)))).tokens_eq
  have same : pattern entry ++ " => " ++ templateExpression template ++ "," =
      pattern entry ++ " =>" ++ (" " ++ (templateExpression template ++ ",")) := by
    rw [show " => " = " =>" ++ " " from rfl]
    simp only [String.append_assoc]
  rw [same]
  exact isLine

/-- The tokens of the line that opens an arm. -/
theorem tokens_armHead {entry : Entry} (wellNamed : entry.WellNamed) :
    tokens? (opening (pattern entry ++ " =>")) =
      some (patternTokens entry ++ [.mark '=', .mark '>'] ++ [.mark '\x7b']) :=
  ((spells_pattern wellNamed).append
    (show Spells .between " \x7b" [.mark '\x7b'] .between from rfl)).tokens_eq

theorem arm_armNode {entry : Entry} (wellNamed : entry.WellNamed) (wording : Wording) :
    arm? (armNode entry wording) = some (armOf entry wording) := by
  rw [armNode, armOf]
  split
  · rw [arm?, tokens_armLine wellNamed, List.append_assoc, Option.bind_some]
    simp only [List.cons_append, List.nil_append, pattern_patternTokens]
    simp
  · rw [arm?, tokens_armHead wellNamed, List.append_assoc, Option.bind_some]
    simp only [List.cons_append, List.nil_append, pattern_patternTokens]

/-- The template of a wording where some conditions hold. -/
def chosen (holds : String → Bool) (wording : Wording) : Template :=
  ((wording.conditionals.find? fun conditional => holds conditional.condition).map
    Conditional.template).getD wording.base

/-- Where the conditions of a wording are tested, the chosen template is the result. -/
theorem result_armNodes (holds : String → Bool) (wording : Wording) :
    result? (fun condition => some (holds condition)) (armNodes wording) =
      some (templateExpression (chosen holds wording)) := by
  rw [armNodes, result_chainNodes holds fun _ _ => rfl, conditionTests, List.find?_map, chosen]
  change some ((((wording.conditionals.find? fun conditional =>
    holds conditional.condition).map _).map Prod.snd).getD _) = _
  cases wording.conditionals.find? fun conditional => holds conditional.condition with
  | none => rfl
  | some conditional => rfl

/-- An arm gives what the chosen template renders. -/
theorem text_armOf {entry : Entry} {wording : Wording} {holds : String → Bool}
    {arguments : Arguments} (wellNamed : entry.WellNamed)
    (declared : (chosen holds wording).placeholders ⊆ entry.parameters)
    (bound : ∀ parameter ∈ entry.parameters, (arguments parameter).isSome) :
    (armOf entry wording).text? holds arguments =
      some ((chosen holds wording).render arguments) := by
  have each : ∀ parameter ∈ (chosen holds wording).placeholders, isName parameter.toList ∧
      (if parameter ∈ entry.parameters then arguments parameter else none) =
        some ((arguments parameter).getD "") := by
    intro parameter member
    have isParameter := declared member
    constructor
    · exact (isWord_of_isIdentifier (wellNamed.parameters _ isParameter)).2
    · obtain ⟨value, isValue⟩ := Option.isSome_iff_exists.mp (bound parameter isParameter)
      rw [if_pos isParameter, isValue]
      rfl
  have isValue := value_expression each
  rw [armOf, Arm.text?]
  dsimp only
  cases isEmpty : wording.conditionals.isEmpty with
  | true =>
      have noChoice : chosen holds wording = wording.base := by
        rw [chosen, List.isEmpty_iff.mp isEmpty]
        rfl
      rw [noChoice] at isValue ⊢
      exact isValue
  | false =>
      have isTokens := (spells_expression (chosen holds wording)).tokens_eq
      simp only [Bool.false_eq_true, if_false, result_armNodes, Option.bind_some, isTokens]
      exact isValue

end Code

end Phrasebook

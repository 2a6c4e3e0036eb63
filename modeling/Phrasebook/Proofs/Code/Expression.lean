/-
This file evaluates the expressions of the accessors. The main statements are that the expression
of a template gives the text that the template renders, and that it is made of one literal.
-/

import Phrasebook.Code.Accessors
import Phrasebook.Proofs.Catalog.Template
import Phrasebook.Proofs.Code.Token
import Phrasebook.Proofs.Text.Identifier

namespace Phrasebook

open Text

namespace Code

/-- Where a reader of a format string stands. -/
inductive FormatState where
  | text
  /-- After an opening brace. -/
  | opened
  | name (reversed : List Char)
  /-- After a closing brace. -/
  | closed
  deriving Repr, DecidableEq

namespace FormatState

/-- Braces that are written twice stand for themselves, and a name in braces for its value. -/
def next (values : Arguments) (state : FormatState) (character : Char) :
    Option (FormatState × List Char) :=
  match state with
  | text =>
      if character == '\x7b' then some (opened, [])
      else if character == '\x7d' then some (closed, [])
      else some (text, [character])
  | opened =>
      if character == '\x7b' then some (text, ['\x7b'])
      else if startsName character then some (name [character], [])
      else none
  | name reversed =>
      if character == '\x7d' then
        (values (String.ofList reversed.reverse)).map fun value => (text, value.toList)
      else if continuesName character then some (name (character :: reversed), [])
      else none
  | closed => if character == '\x7d' then some (text, ['\x7d']) else none

end FormatState

/-- The text of a format string, where it is well formed and all its names have values. -/
def formatted? (values : Arguments) (format : String) : Option String :=
  match scan (FormatState.next values) .text format.toList with
  | some (.text, result) => some (String.ofList result)
  | _ => none

/-- The value of an expression that makes a text of a literal or of a format string. -/
def value? (values : Arguments) : List Token → Option String
  | [.word "String", .mark ':', .mark ':', .word "from", .mark '(', .literal text, .mark ')'] =>
      some text
  | [.word "format", .mark '!', .mark '(', .literal text, .mark ')'] => formatted? values text
  | _ => none

namespace FormatState

variable {values : Arguments}

theorem scan_doubleBrace (character : Char) :
    scan (next values) text (Segment.doubleBrace character) = some (text, [character]) := by
  rw [Segment.doubleBrace]
  split
  · rename_i isBrace
    rw [Bool.or_eq_true, beq_iff_eq, beq_iff_eq] at isBrace
    rcases isBrace with same | same
    · subst same
      rfl
    · subst same
      rfl
  · rename_i noBrace
    rw [Bool.or_eq_true, beq_iff_eq, beq_iff_eq, not_or] at noBrace
    apply scan_singleton
    simp [next, noBrace.1, noBrace.2]

theorem scan_name {rest : List Char} (all : rest.all continuesName) (reversed : List Char) :
    scan (next values) (name reversed) rest = some (name (rest.reverse ++ reversed), []) := by
  apply scan_gather _ all
  intro character reversed continues
  have noBrace : (character == '\x7d') = false := by
    rw [beq_eq_false_iff_ne]
    intro same
    rw [same] at continues
    exact absurd continues (by decide)
  simp [next, noBrace, continues]

/-- A name in braces is read as its value. -/
theorem scan_placeholder {parameter value : String} (isName : isName parameter.toList)
    (isValue : values parameter = some value) :
    scan (next values) text ("\x7b" ++ parameter ++ "\x7d").toList =
      some (text, value.toList) := by
  cases isText : parameter.toList with
  | nil => simp [isText, Text.isName] at isName
  | cons first rest =>
      rw [isText, Text.isName, Bool.and_eq_true] at isName
      obtain ⟨starts, all⟩ := isName
      have isOpen : scan (next values) text ['\x7b'] = some (opened, []) := rfl
      have noBrace : (first == '\x7b') = false := by
        rw [beq_eq_false_iff_ne]
        intro same
        rw [same] at starts
        exact absurd starts (by decide)
      have isFirst : scan (next values) opened [first] = some (name [first], []) := by
        apply scan_singleton
        simp [next, noBrace, starts]
      have isClosed : scan (next values) (name (rest.reverse ++ [first])) ['\x7d'] =
          some (text, value.toList) := by
        apply scan_singleton
        have isParameter : String.ofList (rest.reverse ++ [first]).reverse = parameter := by
          rw [List.reverse_append, List.reverse_reverse, List.reverse_singleton,
            List.singleton_append, ← isText, String.ofList_toList]
        simp only [next, beq_self_eq_true, if_true, isParameter, isValue, Option.map_some]
      have scanned := scan_append isOpen (scan_append isFirst
        (scan_append (scan_name all [first]) isClosed))
      rw [String.toList_append, String.toList_append, isText]
      exact scanned

end FormatState

end Code

namespace Segment

/-- What a reader of code must know to read a segment. -/
def Readable (arguments values : Arguments) : Segment → Prop
  | literal _ => True
  | placeholder parameter =>
      isName parameter.toList ∧ values parameter = some ((arguments parameter).getD "")

theorem scan_format {arguments values : Arguments} {segment : Segment}
    (readable : segment.Readable arguments values) :
    scan (Code.FormatState.next values) .text segment.format.toList =
      some (.text, (segment.render arguments).toList) := by
  cases segment with
  | literal text =>
      have scanned : scan (Code.FormatState.next values) .text
          (text.toList.flatMap doubleBrace) =
            some (.text, text.toList.flatMap fun character => [character]) :=
        scan_flatMap fun character _ => Code.FormatState.scan_doubleBrace character
      rw [List.flatMap_singleton'] at scanned
      rw [format, String.toList_ofList]
      exact scanned
  | placeholder parameter => exact Code.FormatState.scan_placeholder readable.1 readable.2

end Segment

namespace Template

variable {arguments values : Arguments} {template : Template}

theorem readable_of_placeholders
    (each : ∀ parameter ∈ template.placeholders,
      isName parameter.toList ∧ values parameter = some ((arguments parameter).getD "")) :
    ∀ segment ∈ template, segment.Readable arguments values := by
  intro segment member
  cases segment with
  | literal text => exact trivial
  | placeholder parameter => exact each parameter (List.mem_filterMap.mpr ⟨_, member, rfl⟩)

/-- The format string of a template gives what the template renders. -/
theorem formatted_format (readable : ∀ segment ∈ template, segment.Readable arguments values) :
    Code.formatted? values template.format = some (template.render arguments) := by
  have joined (spell : Segment → String) : (String.join (template.map spell)).toList =
      template.flatMap fun segment => (spell segment).toList := by
    rw [String.toList_join, List.flatMap_map]
  have scanned := scan_flatMap fun segment member => Segment.scan_format (readable segment member)
  rw [← joined, ← joined] at scanned
  rw [Code.formatted?, format, scanned]
  simp only [String.ofList_toList]
  rfl

/-- A template without placeholders renders as it is shown. -/
theorem render_eq_display (plain : template.placeholders = []) :
    template.render arguments = template.display := by
  rw [render, display]
  congr 1
  apply List.map_congr_left
  intro segment member
  cases segment with
  | literal text => rfl
  | placeholder parameter =>
      have isPlaceholder : parameter ∈ template.placeholders :=
        List.mem_filterMap.mpr ⟨_, member, rfl⟩
      rw [plain] at isPlaceholder
      exact absurd isPlaceholder List.not_mem_nil

end Template

namespace Code

/-- The tokens of the expression for a template. -/
def expressionTokens (template : Template) : List Token :=
  if template.hasPlaceholders then
    [.word "format", .mark '!', .mark '(', .literal template.format, .mark ')']
  else
    [.word "String", .mark ':', .mark ':', .word "from", .mark '(', .literal template.display,
      .mark ')']

theorem spells_expression (template : Template) :
    Spells .between (templateExpression template) (expressionTokens template) .between := by
  have closed : Spells .between ")" [.mark ')'] .between := rfl
  rw [templateExpression, expressionTokens]
  cases template.hasPlaceholders with
  | true =>
      have opened : Spells .between "format!(" [.word "format", .mark '!', .mark '('] .between :=
        rfl
      exact (opened.append (Spells.quote _)).append closed
  | false =>
      have opened : Spells .between "String::from("
          [.word "String", .mark ':', .mark ':', .word "from", .mark '('] .between := rfl
      exact (opened.append (Spells.quote _)).append closed

/-- The expression of a template gives what the template renders, where the code has the same
values for the parameters. -/
theorem value_expression {arguments values : Arguments} {template : Template}
    (each : ∀ parameter ∈ template.placeholders,
      isName parameter.toList ∧ values parameter = some ((arguments parameter).getD "")) :
    value? values (expressionTokens template) = some (template.render arguments) := by
  rw [expressionTokens]
  cases has : template.hasPlaceholders with
  | true => exact Template.formatted_format (Template.readable_of_placeholders each)
  | false =>
      have plain : template.placeholders = [] := by
        simpa [Template.hasPlaceholders] using has
      rw [Template.render_eq_display plain]
      rfl

/-- The expression is made of a literal on one line, which either is the text that the template
renders or a format string for it. No other names than the parameters have a value there. -/
theorem templateExpression_renders {parameters : List String}
    (identifiers : ∀ parameter ∈ parameters, isIdentifier parameter) {arguments : Arguments}
    (bound : ∀ parameter ∈ parameters, (arguments parameter).isSome) (text : String) :
    ∃ literal content, IsLiteral literal content ∧
      (templateExpression (.ofText parameters text) = "String::from(" ++ literal ++ ")" ∧
          content = (Template.ofText parameters text).render arguments ∨
        templateExpression (.ofText parameters text) = "format!(" ++ literal ++ ")" ∧
          formatted? (fun name => if name ∈ parameters then arguments name else none) content =
            some ((Template.ofText parameters text).render arguments)) := by
  rw [templateExpression]
  cases has : (Template.ofText parameters text).hasPlaceholders with
  | false =>
      have plain : (Template.ofText parameters text).placeholders = [] := by
        simpa [Template.hasPlaceholders] using has
      exact ⟨_, _, isLiteral_quote _, .inl ⟨rfl, (Template.render_eq_display plain).symm⟩⟩
  | true =>
      refine ⟨_, _, isLiteral_quote _, .inr ⟨rfl, ?_⟩⟩
      apply Template.formatted_format
      apply Template.readable_of_placeholders
      intro parameter member
      have isParameter := Template.placeholders_ofText_subset parameters text member
      obtain ⟨value, isValue⟩ := Option.isSome_iff_exists.mp (bound parameter isParameter)
      exact ⟨isName_of_isIdentifier (identifiers parameter isParameter),
        by simp [isParameter, isValue]⟩

/-- Braces, a quote, a backslash and a line break stand around a placeholder. -/
theorem templateExpression_renders_braces :
    (∀ parameter ∈ ["n"], isIdentifier parameter) ∧
      (∀ parameter ∈ ["n"],
        ((fun _ => some "\"\x7d" : Arguments) parameter).isSome) ∧
      ∃ literal content, IsLiteral literal content ∧
        templateExpression (.ofText ["n"] "\x7b(n)\x7d\"\\\n") = "format!(" ++ literal ++ ")" ∧
        formatted? (fun name => if name ∈ ["n"] then some "\"\x7d" else none) content =
          some "\x7b\"\x7d\x7d\"\\\n" := by
  have identifiers : ∀ parameter ∈ ["n"], isIdentifier parameter := by decide
  have bound : ∀ parameter ∈ ["n"], ((fun _ => some "\"\x7d" : Arguments) parameter).isSome := by
    simp
  refine ⟨identifiers, bound, ?_⟩
  obtain ⟨literal, content, isLiteral, direct | format⟩ :=
    templateExpression_renders identifiers bound "\x7b(n)\x7d\"\\\n"
  · have starts := congrArg (fun expression => expression.toList.head?) direct.1
    have isFormat : (templateExpression (.ofText ["n"] "\x7b(n)\x7d\"\\\n")).toList.head? =
        some 'f' := by
      decide +kernel
    simp [isFormat] at starts
  · exact ⟨literal, content, isLiteral, format.1, by rw [format.2]; decide +kernel⟩

end Code

end Phrasebook

/-
This file reads the module of shortcuts. The main statement is that each entry has a function that
makes the variant of the entry from its parameters.
-/

import Phrasebook.Proofs.Code.Enumeration

namespace Phrasebook.Code

open Text

/-- A function that sets the fields of a variant to copies of its parameters. -/
structure Shortcut where
  name : String
  parameters : List String
  variant : String
  fields : List (String × String)
  deriving Repr, DecidableEq

/-- The shortcut of an entry. -/
def Shortcut.ofEntry (entry : Entry) : Shortcut :=
  ⟨entry.functionName, entry.parameters, entry.variantName,
    entry.parameters.map fun parameter => (parameter, parameter)⟩

/-- The parameters of a function, of which there may be none. -/
def parameters? (parts : List (List Token)) : Option (List String) :=
  if parts = [[]] then some [] else parts.mapM parameter?

/-- The name and the parameters of a function that gives a text. -/
def signature? (head : String) : Option (String × List String) :=
  match tokens? head with
  | some (.word "pub" :: .word "fn" :: .word name :: .mark '(' :: rest) =>
      match commaParts? ')' [] rest with
      | some (parts, [.mark '-', .mark '>', .word "String", .mark '\x7b']) =>
          (parameters? parts).map fun parameters => (name, parameters)
      | _ => none
  | _ => none

/-- The variant that is made, and the field and the parameter for each of its values. -/
def made? (text : String) : Option (String × List (String × String)) :=
  match tokens? text with
  | some [.word variant] => some (variant, [])
  | some (.word variant :: .mark '\x7b' :: rest) =>
      match commaParts? '\x7d' [] rest with
      | some (parts, []) => (parts.mapM conversion?).map fun fields => (variant, fields)
      | _ => none
  | _ => none

/-- A shortcut calls the accessor for the system language on a variant of the enum outside. -/
def shortcut? (names : Names) : Node → Option Shortcut
  | .block head [.line text] => do
      let (name, parameters) ← signature? head
      let made ← between? ("super::" ++ names.enumName ++ "::") ".string()" text
      let (variant, fields) ← made? made
      some ⟨name, parameters, variant, fields⟩
  | _ => none

/-- The shortcuts that some lines declare. -/
def shortcuts? (names : Names) (lines : List String) : Option (List Shortcut) := do
  let nodes ← blocks? lines
  let body ← onlyBody? ("pub mod " ++ names.facadeName ++ " \x7b") nodes
  declared? (shortcut? names) body

def parameterTokens (parameter : String) : List Token :=
  [.word parameter, .mark ':', .mark '&', .word "str"]

def conversionTokens (parameter : String) : List Token :=
  [.word parameter, .mark ':', .word parameter, .mark '.', .word "to_owned", .mark '(', .mark ')']

/-- The line that opens the shortcut of an entry. -/
def shortcutHead (entry : Entry) : String :=
  opening ("pub fn " ++ entry.functionName ++ "(" ++
    commaSeparated (entry.parameters.map (· ++ ": &str")) ++ ") -> String")

/-- The variant of an entry with its fields. -/
def madeText (entry : Entry) : String :=
  if entry.key.hasParameters then
    entry.variantName ++ " " ++ braced (commaSeparated (entry.parameters.map fun parameter =>
      parameter ++ ": " ++ parameter ++ ".to_owned()"))
  else entry.variantName

def shortcutNode (names : Names) (entry : Entry) : Node :=
  .block (shortcutHead entry) [.line ("super::" ++ names.enumName ++ "::" ++ madeText entry ++
    ".string()")]

/-- The nodes of the shortcuts with a blank line between them. -/
def shortcutNodes (names : Names) : List Entry → List Node
  | [] => []
  | first :: rest =>
      shortcutNode names first :: rest.flatMap fun entry => [.line "", shortcutNode names entry]

def facadeNodes (catalog : Catalog) (names : Names) : List Node :=
  [.line ("/// Shortcuts for " ++ backquote names.enumName ++ " in the system language."),
    .line "#[allow(non_snake_case)]",
    .block (opening ("pub mod " ++ names.facadeName)) (shortcutNodes names catalog.entries)]

section

variable {entry : Entry}

theorem mapM_parameter (parameters : List String) :
    (parameters.map parameterTokens).mapM parameter? = some parameters := by
  rw [Outcome.mapM_eq_some_iff, List.forall₂_map_left_iff, List.forall₂_same]
  intro parameter _
  rfl

theorem mapM_conversion (parameters : List String) :
    (parameters.map conversionTokens).mapM conversion? =
      some (parameters.map fun parameter => (parameter, parameter)) := by
  rw [Outcome.mapM_eq_some_iff, List.forall₂_map_left_iff, List.forall₂_map_right_iff,
    List.forall₂_same]
  intro parameter _
  rfl

theorem spells_parameters {parameters : List String}
    (areWords : ∀ parameter ∈ parameters, IsWord parameter) :
    Spells .between (commaSeparated (parameters.map (· ++ ": &str")) ++ ") -> String \x7b")
      ([Token.mark ','].intercalate (parameters.map parameterTokens) ++
        [.mark ')', .mark '-', .mark '>', .word "String", .mark '\x7b']) .between := by
  by_cases isEmpty : parameters = []
  · rw [isEmpty]
    rfl
  · exact Spells.typedThen isEmpty areWords (fun _ => rfl) fun _ => rfl

/-- The tokens up to the closing parenthesis are read as the parameters. -/
theorem exists_parameters (parameters : List String) (rest : List Token) :
    ∃ parts, commaParts? ')' []
        ([Token.mark ','].intercalate (parameters.map parameterTokens) ++ .mark ')' :: rest) =
          some (parts, rest) ∧
      parameters? parts = some parameters := by
  cases parameters with
  | nil => exact ⟨[[]], rfl, rfl⟩
  | cons parameter others =>
      refine ⟨(parameter :: others).map parameterTokens, ?_, ?_⟩
      · apply commaParts_intercalate (by decide) (by simp)
        intro part member
        obtain ⟨parameter, _, rfl⟩ := List.mem_map.mp member
        simp [parameterTokens]
      · rw [parameters?, if_neg (by simp [parameterTokens])]
        exact mapM_parameter (parameter :: others)

/-- The tokens of the line that opens the shortcut of an entry. -/
def shortcutTokens (entry : Entry) : List Token :=
  [.word "pub", .word "fn", .word entry.functionName, .mark '('] ++
    ([Token.mark ','].intercalate (entry.parameters.map parameterTokens) ++
      [.mark ')', .mark '-', .mark '>', .word "String", .mark '\x7b'])

theorem tokens_shortcutHead (wellNamed : entry.WellNamed) :
    tokens? (shortcutHead entry) = some (shortcutTokens entry) := by
  have isFunction := (isWord_of_isIdentifier wellNamed.function).1
  have start : Spells .between "pub fn " [.word "pub", .word "fn"] .between := rfl
  have named : Spells .between (entry.functionName ++ "(")
      [.word entry.functionName, .mark '('] .between :=
    Spells.wordThen isFunction fun _ => rfl
  have listed := spells_parameters (isWord_parameters wellNamed)
  have isHead := (start.append (named.append listed)).tokens_eq
  have same : shortcutHead entry = "pub fn " ++ (entry.functionName ++ "(" ++
      (commaSeparated (entry.parameters.map (· ++ ": &str")) ++ ") -> String \x7b")) := by
    rw [show ") -> String \x7b" = ") -> String" ++ " \x7b" from rfl, shortcutHead, opening]
    simp only [String.append_assoc]
  rw [same, isHead]
  rfl

/-- The head of a shortcut has the name and the parameters of its entry. -/
theorem signature_shortcutHead (wellNamed : entry.WellNamed) :
    signature? (shortcutHead entry) = some (entry.functionName, entry.parameters) := by
  obtain ⟨parts, isParts, areParameters⟩ := exists_parameters entry.parameters
    [.mark '-', .mark '>', .word "String", .mark '\x7b']
  rw [signature?, tokens_shortcutHead wellNamed, shortcutTokens]
  simp only [List.cons_append, List.nil_append, isParts, areParameters]
  rfl

theorem spells_conversions (wellNamed : entry.WellNamed) (notEmpty : entry.parameters ≠ []) :
    Spells .between (commaSeparated (entry.parameters.map fun parameter =>
        parameter ++ ": " ++ parameter ++ ".to_owned()") ++ " \x7d")
      ([Token.mark ','].intercalate (entry.parameters.map conversionTokens) ++ [.mark '\x7d'])
      .between := by
  have areWords := isWord_parameters wellNamed
  have field (parameter : String) (member : parameter ∈ entry.parameters) :
      Spells .between (parameter ++ ": ") [.word parameter, .mark ':'] .between :=
    Spells.wordThen (areWords parameter member) fun _ => rfl
  apply Spells.commaThen notEmpty
  · intro parameter member
    have copied : Spells .between (parameter ++ ".to_owned(), ")
        [.word parameter, .mark '.', .word "to_owned", .mark '(', .mark ')', .mark ',']
        .between :=
      Spells.wordThen (areWords parameter member) fun _ => rfl
    have spelled := (field parameter member).append copied
    rw [← String.append_assoc] at spelled
    rw [String.append_assoc]
    exact spelled
  · intro parameter member
    have copied : Spells .between (parameter ++ ".to_owned() \x7d")
        [.word parameter, .mark '.', .word "to_owned", .mark '(', .mark ')', .mark '\x7d']
        .between :=
      Spells.wordThen (areWords parameter member) fun _ => rfl
    have spelled := (field parameter member).append copied
    rw [← String.append_assoc] at spelled
    rw [String.append_assoc]
    exact spelled

/-- The tokens of the variant of an entry with its fields. -/
def madeTokens (entry : Entry) : List Token :=
  .word entry.variantName ::
    if entry.key.hasParameters then
      .mark '\x7b' :: ([Token.mark ','].intercalate (entry.parameters.map conversionTokens) ++
        [.mark '\x7d'])
    else []

/-- Fields stand in braces, with which the variant ends. -/
theorem spells_madeText (wellNamed : entry.WellNamed) (has : entry.key.hasParameters = true) :
    Spells .between (madeText entry) (madeTokens entry) .between := by
  have isVariant := (isWord_of_isIdentifier wellNamed.variant).1
  have named : Spells .between (entry.variantName ++ " ") [.word entry.variantName] .between :=
    Spells.wordThen isVariant fun _ => rfl
  have opened : Spells .between "\x7b " [.mark '\x7b'] .between := rfl
  have fields := spells_conversions wellNamed (Entry.parameters_ne_nil has)
  rw [madeText, madeTokens, if_pos has, if_pos has, braced, @String.append_assoc "\x7b "]
  exact named.append (opened.append fields)

/-- The line of a shortcut makes the variant of its entry. -/
theorem made_madeText (wellNamed : entry.WellNamed) :
    made? (madeText entry) = some (entry.variantName,
      entry.parameters.map fun parameter => (parameter, parameter)) := by
  have isVariant := (isWord_of_isIdentifier wellNamed.variant).1
  cases has : entry.key.hasParameters with
  | true =>
      have notEmpty := Entry.parameters_ne_nil has
      have isParts : commaParts? '\x7d' []
          ([Token.mark ','].intercalate (entry.parameters.map conversionTokens) ++
            [.mark '\x7d']) = some (entry.parameters.map conversionTokens, []) := by
        apply commaParts_intercalate (by decide) (by simpa using notEmpty)
        intro part member
        obtain ⟨parameter, _, rfl⟩ := List.mem_map.mp member
        simp [conversionTokens]
      rw [made?, (spells_madeText wellNamed has).tokens_eq, madeTokens, if_pos has]
      simp only [isParts, mapM_conversion]
      rfl
  | false =>
      rw [madeText, if_neg (by simp [has]), made?, isVariant.tokens_eq,
        Entry.parameters_eq_nil has]
      rfl

/-- The tokens of the line of a shortcut. -/
theorem tokens_shortcutLine {names : Names} (isEnum : IsWord names.enumName)
    (wellNamed : entry.WellNamed) :
    tokens? ("super::" ++ names.enumName ++ "::" ++ madeText entry ++ ".string()") =
      some ([.word "super", .mark ':', .mark ':', .word names.enumName, .mark ':', .mark ':'] ++
        (madeTokens entry ++ [.mark '.', .word "string", .mark '(', .mark ')'])) := by
  have start : Spells .between "super::" [.word "super", .mark ':', .mark ':'] .between := rfl
  have named : Spells .between (names.enumName ++ "::")
      [.word names.enumName, .mark ':', .mark ':'] .between :=
    Spells.wordThen isEnum fun _ => rfl
  have called : Spells .between (madeText entry ++ ".string()")
      (madeTokens entry ++ [.mark '.', .word "string", .mark '(', .mark ')']) .between := by
    cases has : entry.key.hasParameters with
    | true => exact (spells_madeText wellNamed has).append rfl
    | false =>
        rw [madeText, madeTokens, if_neg (by simp [has]), if_neg (by simp [has])]
        exact Spells.wordThen (isWord_of_isIdentifier wellNamed.variant).1 fun _ => rfl
  have isLine := (start.append (named.append called)).tokens_eq
  rw [← String.append_assoc, ← String.append_assoc, ← String.append_assoc] at isLine
  exact isLine

theorem shortcut_shortcutNode (names : Names) (wellNamed : entry.WellNamed) :
    shortcut? names (shortcutNode names entry) = some (Shortcut.ofEntry entry) := by
  have isMade := between_append ("super::" ++ names.enumName ++ "::") (madeText entry) ".string()"
  simp only [shortcut?, shortcutNode, signature_shortcutHead wellNamed, isMade,
    made_madeText wellNamed, Option.bind_eq_bind, Option.bind_some]
  rfl

theorem nests_shortcut (names : Names) (entry : Entry) :
    Nests (shortcut names entry) [shortcutNode names entry] := by
  have opens : lineKind (shortcutHead entry) = .opens := by
    simp [lineKind, shortcutHead, opening, List.getLast?_cons, List.getLast?_append]
  have plain : lineKind ("super::" ++ names.enumName ++ "::" ++ madeText entry ++ ".string()") =
      .plain := by
    simp [lineKind, List.getLast?_cons, List.getLast?_append]
  have nests := Nests.block opens (Nests.line plain)
  have same : shortcut names entry = [.opens (shortcutHead entry),
      .line ("super::" ++ names.enumName ++ "::" ++ madeText entry ++ ".string()"),
      .closes "\x7d"] := by
    rw [shortcut, madeText, shortcutHead]
    cases entry.key.hasParameters with
    | true => simp [String.append_assoc]
    | false => rfl
  rw [same]
  exact nests

end

variable {catalog : Catalog} {names : Names}

theorem nests_facade (catalog : Catalog) (names : Names) :
    Nests (facade catalog names) (facadeNodes catalog names) := by
  have inner : Nests (separate (catalog.entries.map (shortcut names)))
      (shortcutNodes names catalog.entries) := by
    cases catalog.entries with
    | nil => exact Nests.nil
    | cons first rest =>
        rw [List.map_cons, separate, shortcutNodes, List.flatMap_map]
        exact (nests_shortcut names first).append (nests_flatMap fun entry _ =>
          Nests.blank.append (nests_shortcut names entry))
  have title : lineKind ("/// Shortcuts for " ++ backquote names.enumName ++
      " in the system language.") = .plain := by
    simp [lineKind, List.getLast?_cons, List.getLast?_append]
  have allowed : lineKind "#[allow(non_snake_case)]" = .plain := by decide
  have opens : lineKind (opening ("pub mod " ++ names.facadeName)) = .opens := by
    simp [lineKind, opening, List.getLast?_cons, List.getLast?_append]
  exact (Nests.line title).append ((Nests.line allowed).append (Nests.block opens inner))

/-- The module has a shortcut for each entry. -/
theorem shortcuts_facade (wellNamed : catalog.WellNamed) (names : Names) :
    shortcuts? names (facade catalog names).lines =
      some (catalog.entries.map Shortcut.ofEntry) := by
  have head : "pub mod " ++ names.facadeName ++ " \x7b" =
      opening ("pub mod " ++ names.facadeName) := rfl
  have only : onlyBody? ("pub mod " ++ names.facadeName ++ " \x7b") (facadeNodes catalog names) =
      some (shortcutNodes names catalog.entries) := by
    rw [head]
    simp [onlyBody?, facadeNodes, List.filterMap_cons, Node.under?]
  have each : ∀ entry ∈ catalog.entries, declared? (shortcut? names) [shortcutNode names entry] =
      some [Shortcut.ofEntry entry] := fun entry member =>
    declared_node rfl (shortcut_shortcutNode names (wellNamed.entries entry member))
  have read : declared? (shortcut? names) (shortcutNodes names catalog.entries) =
      some (catalog.entries.map Shortcut.ofEntry) := by
    cases isEntries : catalog.entries with
    | nil => rfl
    | cons first rest =>
        rw [isEntries] at each
        obtain ⟨isFirst, further⟩ := List.forall_mem_cons.mp each
        rw [shortcutNodes, List.map_cons, List.map_eq_flatMap]
        apply declared_append isFirst
        apply declared_flatMap
        intro entry member
        exact declared_append (declared_aside (by decide)) (further entry member)
  rw [shortcuts?, (nests_facade catalog names).blocks_eq]
  simp only [Option.bind_eq_bind, Option.bind_some, only, read]

end Phrasebook.Code

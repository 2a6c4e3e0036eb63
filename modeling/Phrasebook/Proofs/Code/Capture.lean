/-
This file collects the names of types and paths that the generated code uses with a meaning from
outside. The main statement is that there are three of them and that only generated items with one
of these names take it over.
-/

import Phrasebook.Proofs.Code.Reference
import Phrasebook.Proofs.Code.Shortcut
import Phrasebook.Settings.Basic

namespace Phrasebook

open Text

namespace Code

/-- The name of the type that some tokens begin with. A word before a dot is a value. -/
def typeName? : List Token → Option String
  | .mark '&' :: rest => typeName? rest
  | .mark '\'' :: .word _ :: rest => typeName? rest
  | .word _ :: .mark '.' :: _ => none
  | .word name :: _ => some name
  | _ => none

/-- The types behind colons, arrows and angle brackets, and the first name of each path. -/
def leadingNames : List Token → List String
  | [] => []
  | .mark ':' :: .mark ':' :: .word _ :: rest => leadingNames rest
  | .word name :: .mark ':' :: .mark ':' :: rest =>
      name :: leadingNames (.mark ':' :: .mark ':' :: rest)
  | .mark ':' :: rest => (typeName? rest).toList ++ leadingNames rest
  | .mark '-' :: .mark '>' :: rest => (typeName? rest).toList ++ leadingNames rest
  | .mark '<' :: rest => (typeName? rest).toList ++ leadingNames rest
  | _ :: rest => leadingNames rest

/-- The names that a line takes from outside. Keywords are no names, and comments have none. -/
def lineNames? (line : String) : Option (List String) :=
  if ['/', '/'].isPrefixOf line.toList then some []
  else (tokens? line).map fun tokens => (leadingNames tokens).filter isIdentifier

/-- The names that some lines of code take from outside, where conditions are left out. -/
def outerNames? (lines : List String) : Option (List String) :=
  (blocks? lines).bind fun nodes => ((codeOf false nodes).mapM lineNames?).map List.flatten

/-- The names that the generated code means to take from the standard library. -/
def standardNames : List String :=
  ["String", "str", "std"]

/-- Tokens that take no other name than standard ones from outside. -/
def IsStandard (tokens : List Token) : Prop :=
  ∀ name ∈ leadingNames tokens, isIdentifier name → name ∈ standardNames

theorem IsStandard.of_eq {tokens rest : List Token} {names : List String}
    (isNames : leadingNames tokens = names ++ leadingNames rest)
    (each : ∀ name ∈ names, isIdentifier name → name ∈ standardNames)
    (further : IsStandard rest) : IsStandard tokens := by
  rw [IsStandard, isNames]
  exact List.forall_mem_append.mpr ⟨each, further⟩

theorem IsStandard.nil : IsStandard [] :=
  List.forall_mem_nil _

theorem IsStandard.of_names {tokens : List Token} (names : List String)
    (isNames : leadingNames tokens = names)
    (each : ∀ name ∈ names, isIdentifier name → name ∈ standardNames) : IsStandard tokens := by
  rw [IsStandard, isNames]
  exact each

section

variable {catalog : Catalog} {entry : Entry}

/-- Fields of a pattern are no types. -/
theorem leadingNames_words (texts : List String) (rest : List Token) :
    leadingNames ((texts.map Token.word).intersperse (.mark ',') ++ .mark '\x7d' :: rest) =
      leadingNames rest := by
  induction texts with
  | nil => rfl
  | cons text others inductionHypothesis =>
      cases others with
      | nil => rfl
      | cons second more =>
          rw [List.map_cons, List.map_cons, List.intersperse_cons_cons]
          exact inductionHypothesis

theorem isStandard_pattern {rest : List Token} (further : IsStandard (.mark '=' :: rest)) :
    IsStandard (patternTokens entry ++ .mark '=' :: rest) := by
  have names : leadingNames (patternTokens entry ++ .mark '=' :: rest) =
      ["Self"] ++ leadingNames (.mark '=' :: rest) := by
    rw [patternTokens]
    cases entry.key.hasParameters with
    | true =>
        have fields := leadingNames_words entry.parameters (.mark '=' :: rest)
        rw [if_pos rfl, List.append_assoc, List.cons_append, List.append_assoc]
        exact congrArg ("Self" :: ·) fields
    | false => rfl
  exact .of_eq names (by decide) further

theorem isStandard_expression (template : Template) {rest : List Token}
    (further : IsStandard rest) : IsStandard (expressionTokens template ++ rest) := by
  rw [expressionTokens]
  split
  · exact .of_eq (show _ = [] ++ leadingNames rest from rfl) (by decide) further
  · exact .of_eq (show _ = ["String"] ++ leadingNames rest from rfl) (by decide) further

/-- The lines of the implementation take only standard names from outside. -/
theorem ItemLine.isStandard {tokens : List Token} (isLine : ItemLine catalog tokens) :
    IsStandard tokens := by
  cases isLine with
  | blank => exact .of_names [] rfl (by decide)
  | constant source => exact .of_names ["str"] rfl (by decide)
  | systemHead => exact .of_names ["String"] rfl (by decide)
  | systemCall => exact .of_names ["Self"] rfl (by decide)
  | localeHead => exact .of_names ["str", "String"] rfl (by decide)
  | firstTest language => exact .of_names [] rfl (by decide)
  | furtherTest language => exact .of_names [] rfl (by decide)
  | otherwise => exact .of_names [] rfl (by decide)
  | call known => exact .of_names [] rfl (by decide)
  | languageHead known => exact .of_names ["String"] rfl (by decide)
  | noEntry => exact .of_names [] rfl (by decide)
  | entries => exact .of_names [] rfl (by decide)
  | armLine member template =>
      have result : IsStandard (.mark '=' :: .mark '>' ::
          (expressionTokens template ++ [.mark ','])) :=
        isStandard_expression template (.of_names [] rfl (by decide))
      rw [List.append_assoc]
      exact isStandard_pattern result
  | armHead member =>
      rw [List.append_assoc]
      exact isStandard_pattern (.of_names [] rfl (by decide))
  | expression template =>
      have result := isStandard_expression template .nil
      rwa [List.append_nil] at result
  | systemLanguage member isLine =>
      have each : ∀ line ∈ codeOf false systemLanguageNodes, ∀ tokens ∈ tokens? line,
          ∀ name ∈ leadingNames tokens, isIdentifier name → name ∈ standardNames := by
        decide +kernel
      exact each _ member _ isLine

/-- Fields of variants are texts of the standard library. -/
theorem isStandard_variant (entry : Entry) : IsStandard (variantTokens entry) := by
  have fields (parameters : List String) :
      IsStandard ([Token.mark ','].intercalate (parameters.map fieldTokens) ++
        [.mark '\x7d', .mark ',']) := by
    induction parameters with
    | nil => exact .of_names [] rfl (by decide)
    | cons parameter others inductionHypothesis =>
        cases others with
        | nil => exact .of_names ["String"] rfl (by decide)
        | cons second more =>
            rw [List.map_cons, List.map_cons, List.intercalate_cons_cons]
            exact .of_eq (show _ = ["String"] ++ leadingNames _ from rfl) (by decide)
              inductionHypothesis
  rw [variantTokens]
  split
  · exact fields entry.parameters
  · exact .of_names [] rfl (by decide)

/-- Parameters of shortcuts are borrowed texts. -/
theorem isStandard_shortcutHead (entry : Entry) : IsStandard (shortcutTokens entry) := by
  have listed (parameters : List String) :
      IsStandard ([Token.mark ','].intercalate (parameters.map parameterTokens) ++
        [.mark ')', .mark '-', .mark '>', .word "String", .mark '\x7b']) := by
    induction parameters with
    | nil => exact .of_names ["String"] rfl (by decide)
    | cons parameter others inductionHypothesis =>
        cases others with
        | nil => exact .of_names ["str", "String"] rfl (by decide)
        | cons second more =>
            rw [List.map_cons, List.map_cons, List.intercalate_cons_cons]
            exact .of_eq (show _ = ["str"] ++ leadingNames _ from rfl) (by decide)
              inductionHypothesis
  exact listed entry.parameters

/-- A shortcut names the enum by a path from the module outside. -/
theorem isStandard_shortcutLine (names : Names) (entry : Entry) :
    IsStandard ([.word "super", .mark ':', .mark ':', .word names.enumName, .mark ':', .mark ':'] ++
      (madeTokens entry ++ [.mark '.', .word "string", .mark '(', .mark ')'])) := by
  have conversions (parameters : List String) :
      IsStandard ([Token.mark ','].intercalate (parameters.map conversionTokens) ++
        [.mark '\x7d', .mark '.', .word "string", .mark '(', .mark ')']) := by
    induction parameters with
    | nil => exact .of_names [] rfl (by decide)
    | cons parameter others inductionHypothesis =>
        cases others with
        | nil => exact .of_names [] rfl (by decide)
        | cons second more =>
            rw [List.map_cons, List.map_cons, List.intercalate_cons_cons]
            exact inductionHypothesis
  rw [madeTokens]
  split
  · have fields := conversions entry.parameters
    rw [List.append_cons] at fields
    exact .of_eq (show _ = ["super"] ++ leadingNames _ from rfl) (by decide) fields
  · exact .of_names ["super"] rfl (by decide)

end

/-- Lines of standard tokens are those that take only standard names from outside. -/
theorem hasTokens_isStandard_iff {line : String} :
    HasTokens IsStandard line ↔ ∃ found, lineNames? line = some found ∧ found ⊆ standardNames := by
  rw [HasTokens, lineNames?]
  cases ['/', '/'].isPrefixOf line.toList with
  | true => simp
  | false =>
      simp only [Bool.false_eq_true, if_false, false_or, Option.map_eq_some_iff, IsStandard]
      constructor
      · rintro ⟨tokens, isLine, isStandard⟩
        refine ⟨_, ⟨tokens, isLine, rfl⟩, ?_⟩
        intro name member
        obtain ⟨isLeading, identifier⟩ := List.mem_filter.mp member
        exact isStandard name isLeading identifier
      · rintro ⟨found, ⟨tokens, isLine, rfl⟩, within⟩
        exact ⟨tokens, isLine, fun name isLeading identifier =>
          within (List.mem_filter.mpr ⟨isLeading, identifier⟩)⟩

/-- Code that takes only standard names from outside. -/
def StandardOnly (nodes : List Node) : Prop :=
  Everywhere (HasTokens IsStandard) false nodes

section

variable {catalog : Catalog} {names : Names}

/-- The tokens of a line that opens a named block. -/
theorem tokens_opening {start name : String} {tokens : List Token}
    (isStart : Spells .between start tokens .between) (isWord : IsWord name) :
    tokens? (opening (start ++ name)) = some (tokens ++ [.word name, .mark '\x7b']) := by
  have named : Spells .between (name ++ " \x7b") [.word name, .mark '\x7b'] .between :=
    Spells.wordThen isWord fun _ => rfl
  rw [opening, String.append_assoc]
  exact (isStart.append named).tokens_eq

/-- A line without names. -/
theorem standardOnly_line {line : String} (none : lineNames? line = some []) :
    StandardOnly [.line line] :=
  Everywhere.line (hasTokens_isStandard_iff.mpr ⟨[], none, List.nil_subset _⟩)

theorem standardOnly_accessorNodes (wellNamed : catalog.WellNamed)
    (known : catalog.defaultLanguage ∈ catalog.languages) (isEnum : IsWord names.enumName)
    (embedded : Option String) : StandardOnly (accessorNodes catalog names embedded) := by
  have title : StandardOnly [.line ("/// Localized phrases. Default language: " ++
      backquote catalog.defaultLanguage ++ ".")] := Everywhere.line (.comment (by simp))
  have allowed : StandardOnly [.line "#[allow(non_snake_case)]"] :=
    standardOnly_line (by decide +kernel)
  have derived : StandardOnly [.line "#[derive(Debug, Clone, PartialEq, Eq, Hash)]"] :=
    standardOnly_line (by decide +kernel)
  have alsoAllowed : StandardOnly [.line "#[allow(non_snake_case, unused_variables)]"] :=
    standardOnly_line (by decide +kernel)
  have variants : StandardOnly (catalog.entries.map variantNode) :=
    Everywhere.map fun entry member =>
      Everywhere.line (.of_tokens (tokens_variant (wellNamed.entries entry member))
        (isStandard_variant entry))
  have enumHead : Spells .between "pub enum " [.word "pub", .word "enum"] .between := rfl
  have enumeration : StandardOnly
      [.block (opening ("pub enum " ++ names.enumName)) (catalog.entries.map variantNode)] :=
    Everywhere.block (.of_tokens (tokens_opening enumHead isEnum) (.of_names [] rfl (by decide)))
      variants
  have implHead : Spells .between "impl " [.word "impl"] .between := rfl
  have items : StandardOnly (implementationNodes catalog embedded) :=
    (implements_implementationNodes wellNamed known embedded).mono fun _ =>
      HasTokens.mono fun _ isLine => isLine.isStandard
  have implementation : StandardOnly
      [.block (opening ("impl " ++ names.enumName)) (implementationNodes catalog embedded)] :=
    Everywhere.block (.of_tokens (tokens_opening implHead isEnum) (.of_names [] rfl (by decide)))
      items
  exact (title.append (allowed.append (derived.append enumeration))).append
    ((standardOnly_line rfl).append (alsoAllowed.append implementation))

theorem standardOnly_facadeNodes (wellNamed : catalog.WellNamed)
    (isEnum : IsWord names.enumName) (isFacade : IsWord names.facadeName) :
    StandardOnly (facadeNodes catalog names) := by
  have shortcut (entry : Entry) (member : entry ∈ catalog.entries) :
      StandardOnly [shortcutNode names entry] := by
    have named := wellNamed.entries entry member
    exact Everywhere.block (.of_tokens (tokens_shortcutHead named) (isStandard_shortcutHead entry))
      (Everywhere.line (.of_tokens (tokens_shortcutLine isEnum named)
        (isStandard_shortcutLine names entry)))
  have shortcuts : StandardOnly (shortcutNodes names catalog.entries) := by
    cases isEntries : catalog.entries with
    | nil => exact Everywhere.nil
    | cons first rest =>
        rw [isEntries] at shortcut
        obtain ⟨isFirst, further⟩ := List.forall_mem_cons.mp shortcut
        exact isFirst.append (Everywhere.flatMap fun entry member =>
          (standardOnly_line rfl).append (further entry member))
  have title : StandardOnly [.line ("/// Shortcuts for " ++ backquote names.enumName ++
      " in the system language.")] := Everywhere.line (.comment (by simp))
  have allowed : StandardOnly [.line "#[allow(non_snake_case)]"] :=
    standardOnly_line (by decide +kernel)
  have modHead : Spells .between "pub mod " [.word "pub", .word "mod"] .between := rfl
  have shortcutModule : StandardOnly
      [.block (opening ("pub mod " ++ names.facadeName)) (shortcutNodes names catalog.entries)] :=
    Everywhere.block (.of_tokens (tokens_opening modHead isFacade) (.of_names [] rfl (by decide)))
      shortcuts
  exact title.append (allowed.append shortcutModule)

/-- The names of code are those of its lines. -/
theorem StandardOnly.outerNames_eq {lines : List String} {nodes : List Node}
    (isStandard : StandardOnly nodes) (isRead : blocks? lines = some nodes) :
    ∃ found, outerNames? lines = some found ∧ found ⊆ standardNames ∧
      ∀ line ∈ codeOf false nodes, ∀ part, lineNames? line = some part → part ⊆ found := by
  have each (line : String) (member : line ∈ codeOf false nodes) :
      ∃ part, lineNames? line = some part ∧ part ⊆ standardNames :=
    hasTokens_isStandard_iff.mp (isStandard line member)
  obtain ⟨parts, areParts⟩ := Lists.exists_forall₂ each
  have collected : (codeOf false nodes).mapM lineNames? = some parts :=
    Outcome.mapM_eq_some_iff.mpr (areParts.imp fun _ _ => And.left)
  refine ⟨parts.flatten, ?_, ?_, ?_⟩
  · rw [outerNames?, isRead, Option.bind_some, collected]
    rfl
  · intro name member
    obtain ⟨part, isPart, isName⟩ := List.mem_flatten.mp member
    obtain ⟨_, _, _, within⟩ := Lists.exists_of_mem_right areParts isPart
    exact within isName
  · intro line member part isPart name isName
    obtain ⟨other, isOther, same, _⟩ := Lists.exists_of_mem_left areParts member
    rw [isPart] at same
    cases same
    exact List.mem_flatten.mpr ⟨part, isOther, isName⟩

/-- The function that finds the language of the system uses all standard names. -/
theorem exists_line_of_standard {name : String} (standard : name ∈ standardNames) :
    ∃ line ∈ codeOf false systemLanguageNodes, ∃ part, lineNames? line = some part ∧
      name ∈ part := by
  have each : ∀ name ∈ standardNames, ∃ line ∈ codeOf false systemLanguageNodes,
      ∃ part ∈ lineNames? line, name ∈ part := by
    decide +kernel
  exact each name standard

theorem codeOf_systemLanguage_subset (catalog : Catalog) (isEnum : IsWord names.enumName)
    (embedded : Option String) :
    codeOf false systemLanguageNodes ⊆ codeOf false (accessorNodes catalog names embedded) := by
  have implHead : Spells .between "impl " [.word "impl"] .between := rfl
  have noArm : startsArm (opening ("impl " ++ names.enumName)) = false := by
    rw [startsArm, tokens_opening implHead isEnum]
    rfl
  intro line member
  have inside : line ∈ codeOf false (implementationNodes catalog embedded) := by
    rw [implementationNodes, codeOf_append]
    exact List.mem_append_right _ (List.mem_append_right _ member)
  rw [accessorNodes, codeOf_append]
  apply List.mem_append_right
  simp [codeOf, Node.code, noArm, inside]

end

/-- No generated item has a name that the generated code takes from outside, nor the name of
another one. -/
def Uncaptured (names : Names) (accessors shortcuts : List String) : Prop :=
  names.enumName ≠ names.facadeName ∧ ∃ first second, outerNames? accessors = some first ∧
    outerNames? shortcuts = some second ∧
      ∀ name ∈ first ++ second, name ≠ names.enumName ∧ name ≠ names.facadeName

section

variable {catalog : Catalog} {names : Names}

/-- The code for a catalog takes just the standard names from outside. -/
theorem outerNames_generated {strict : Bool} {source : String}
    (parsed : Catalog.parse strict source = .ok catalog) (isEnum : IsWord names.enumName)
    (isFacade : IsWord names.facadeName) (embedded : Option String) :
    ∃ first second, outerNames? (accessors catalog names embedded).lines = some first ∧
      outerNames? (facade catalog names).lines = some second ∧
        ∀ name, name ∈ first ++ second ↔ name ∈ standardNames := by
  obtain ⟨pairs, drafts, _, reads⟩ := Catalog.parse_eq_ok_iff.mp parsed
  have wellNamed := reads.wellNamed
  have known := reads.content.defaultKnown
  obtain ⟨first, isFirst, firstWithin, covers⟩ :=
    (standardOnly_accessorNodes wellNamed known isEnum embedded).outerNames_eq
      (nests_accessors wellNamed embedded).blocks_eq
  obtain ⟨second, isSecond, secondWithin, _⟩ :=
    (standardOnly_facadeNodes wellNamed isEnum isFacade).outerNames_eq
      (nests_facade catalog names).blocks_eq
  refine ⟨first, second, isFirst, isSecond, ?_⟩
  intro name
  constructor
  · intro member
    exact List.append_subset.mpr ⟨firstWithin, secondWithin⟩ member
  · intro standard
    obtain ⟨line, isLine, part, isPart, member⟩ := exists_line_of_standard standard
    have isCode := codeOf_systemLanguage_subset catalog isEnum embedded isLine
    have within := covers line isCode part isPart
    exact List.mem_append_left _ (within member)

theorem uncaptured_of_parse {strict : Bool} {source : String}
    (parsed : Catalog.parse strict source = .ok catalog) (isEnum : IsWord names.enumName)
    (isFacade : IsWord names.facadeName) (embedded : Option String) :
    Uncaptured names (accessors catalog names embedded).lines (facade catalog names).lines ↔
      names.enumName ≠ names.facadeName ∧ names.enumName ∉ standardNames ∧
        names.facadeName ∉ standardNames := by
  obtain ⟨first, second, isFirst, isSecond, all⟩ :=
    outerNames_generated parsed isEnum isFacade embedded
  have free : (∀ name ∈ first ++ second, name ≠ names.enumName ∧ name ≠ names.facadeName) ↔
      names.enumName ∉ standardNames ∧ names.facadeName ∉ standardNames := by
    rw [← all, ← all]
    constructor
    · intro each
      exact ⟨fun member => (each _ member).1 rfl, fun member => (each _ member).2 rfl⟩
    · rintro ⟨noEnum, noFacade⟩ name member
      constructor
      · rintro rfl
        exact noEnum member
      · rintro rfl
        exact noFacade member
  rw [Uncaptured, ← free]
  simp [isFirst, isSecond]

end

end Code

theorem Settings.fault_eq_none_iff {settings : Settings} : settings.fault? = none ↔
    isIdentifier settings.enumName ∧ isIdentifier settings.facadeName ∧
      settings.enumName ≠ settings.facadeName := by
  rw [fault?]
  split
  · rename_i refused
    simp_all
  · split
    · rename_i refused
      simp_all
    · simp_all

namespace Code

/-- Valid settings give the generated items different names, but not names that the code takes
from outside with a meaning of their own. These are the names of the standard library in the code
of every catalog, and the generated items take them over exactly where one has such a name. -/
theorem uncaptured_iff {settings : Settings} (valid : settings.fault? = none) {strict : Bool}
    {source : String} {catalog : Catalog} (parsed : Catalog.parse strict source = .ok catalog)
    (attached : Option String) :
    let embedded := if settings.embedSource then attached else none
    let accessorLines := (accessors catalog settings.options.names embedded).lines
    let shortcutLines := (facade catalog settings.options.names).lines
    (generate catalog settings.options attached).accessors = indented 0 accessorLines ∧
      (generate catalog settings.options attached).facade = indented 0 shortcutLines ∧
      (∃ first second, outerNames? accessorLines = some first ∧
        outerNames? shortcutLines = some second ∧
          ∀ name, name ∈ first ++ second ↔ name ∈ standardNames) ∧
      settings.enumName ≠ settings.facadeName ∧
      (Uncaptured settings.options.names accessorLines shortcutLines ↔
        settings.enumName ∉ standardNames ∧ settings.facadeName ∉ standardNames) := by
  obtain ⟨pairs, drafts, _, reads⟩ := Catalog.parse_eq_ok_iff.mp parsed
  obtain ⟨enumIdentifier, facadeIdentifier, differ⟩ := Settings.fault_eq_none_iff.mp valid
  have isEnum := (isWord_of_isIdentifier enumIdentifier).1
  have isFacade := (isWord_of_isIdentifier facadeIdentifier).1
  intro embedded accessorLines shortcutLines
  refine ⟨Layout.render_eq (nests_accessors reads.wellNamed embedded).honest,
    Layout.render_eq (nests_facade catalog settings.options.names).honest,
    outerNames_generated parsed isEnum isFacade embedded, differ, ?_⟩
  have uncaptured : Uncaptured settings.options.names accessorLines shortcutLines ↔ _ :=
    uncaptured_of_parse parsed isEnum isFacade embedded
  exact uncaptured.trans (and_iff_right differ)

/-- The default names are none of the standard library. -/
theorem uncaptured_default :
    ({} : Settings).fault? = none ∧
      Catalog.parse false Catalog.houseSource = .ok Catalog.houseCatalog ∧
      Uncaptured {} (accessors Catalog.houseCatalog {} none).lines
        (facade Catalog.houseCatalog {}).lines := by
  have valid : ({} : Settings).fault? = none := by decide
  have parsed := Catalog.parse_houseSource false
  have free : "Localized" ∉ standardNames ∧ "loc" ∉ standardNames := by decide
  exact ⟨valid, parsed, (uncaptured_iff valid parsed none).2.2.2.2.mpr free⟩

/-- An enum may be named like the texts of the standard library. -/
theorem not_uncaptured :
    ¬∀ (settings : Settings) (strict : Bool) (source : String) (catalog : Catalog)
      (attached : Option String), settings.fault? = none →
        Catalog.parse strict source = .ok catalog →
          Uncaptured settings.options.names
            (accessors catalog settings.options.names
              (if settings.embedSource then attached else none)).lines
            (facade catalog settings.options.names).lines := by
  intro every
  let settings : Settings := { enumName := "String" }
  have parsed := Catalog.parse_houseSource false
  have isEnum := (isWord_of_isIdentifier (show isIdentifier "String" by decide)).1
  have isFacade := (isWord_of_isIdentifier (show isIdentifier "loc" by decide)).1
  have uncaptured := every settings false _ _ none (by decide) parsed
  have free := ((uncaptured_of_parse parsed isEnum isFacade none).mp uncaptured).2.1
  exact free (by decide)

end Code

end Phrasebook

/-
This file reads the variants of the enum. The main statement is that each entry has a variant with
its parameters for fields.
-/

import Phrasebook.Proofs.Code.Item

namespace Phrasebook.Code

open Text

/-- The body of the only block with the head. -/
def onlyBody? (head : String) (nodes : List Node) : Option (List Node) :=
  match nodes.filterMap (Node.under? head) with
  | [body] => some body
  | _ => none

/-- The name of a variant and its fields. -/
def variant? : Node → Option (String × List String)
  | .block .. => none
  | .line text =>
      match tokens? text with
      | some [.word name, .mark ','] => some (name, [])
      | some (.word name :: .mark '\x7b' :: rest) =>
          match commaParts? '\x7d' [] rest with
          | some (parts, [.mark ',']) => (parts.mapM field?).map fun fields => (name, fields)
          | _ => none
      | _ => none

/-- The variants of the enum that some lines declare. -/
def variants? (names : Names) (lines : List String) : Option (List (String × List String)) := do
  let nodes ← blocks? lines
  let body ← onlyBody? ("pub enum " ++ names.enumName ++ " \x7b") nodes
  declared? variant? body

/-- The tokens of a field. -/
def fieldTokens (parameter : String) : List Token :=
  [.word parameter, .mark ':', .word "String"]

section

variable {entry : Entry}

theorem spells_fields (wellNamed : entry.WellNamed) (notEmpty : entry.parameters ≠ []) :
    Spells .between (commaSeparated (entry.parameters.map (· ++ ": String")) ++ " \x7d,")
      ([Token.mark ','].intercalate (entry.parameters.map fieldTokens) ++
        [.mark '\x7d', .mark ',']) .between :=
  Spells.typedThen notEmpty (isWord_parameters wellNamed) (fun _ => rfl) fun _ => rfl

theorem mapM_field (parameters : List String) :
    (parameters.map fieldTokens).mapM field? = some parameters := by
  rw [Outcome.mapM_eq_some_iff, List.forall₂_map_left_iff, List.forall₂_same]
  intro parameter _
  rfl

/-- The tokens of the variant of an entry. -/
def variantTokens (entry : Entry) : List Token :=
  .word entry.variantName ::
    if entry.key.hasParameters then
      .mark '\x7b' :: ([Token.mark ','].intercalate (entry.parameters.map fieldTokens) ++
        [.mark '\x7d', .mark ','])
    else [.mark ',']

theorem tokens_variant (wellNamed : entry.WellNamed) :
    tokens? (variant entry).text = some (variantTokens entry) := by
  have isVariant := (isWord_of_isIdentifier wellNamed.variant).1
  rw [variant, variantTokens]
  cases has : entry.key.hasParameters with
  | true =>
      have notEmpty := Entry.parameters_ne_nil has
      have named : Spells .between (entry.variantName ++ " ") [.word entry.variantName] .between :=
        Spells.wordThen isVariant fun _ => rfl
      have opened : Spells .between "\x7b " [.mark '\x7b'] .between := rfl
      have isLine := (named.append (opened.append (spells_fields wellNamed notEmpty))).tokens_eq
      have same : entry.variantName ++ " " ++
          braced (commaSeparated (entry.parameters.map (· ++ ": String"))) ++ "," =
            entry.variantName ++ " " ++ ("\x7b " ++
              (commaSeparated (entry.parameters.map (· ++ ": String")) ++ " \x7d,")) := by
        rw [show " \x7d," = " \x7d" ++ "," from rfl, braced]
        simp only [String.append_assoc]
      rw [if_pos rfl, Step.text, same, isLine]
      rfl
  | false =>
      have isLine : Spells .between (entry.variantName ++ ",")
          [.word entry.variantName, .mark ','] .between :=
        Spells.wordThen isVariant fun _ => rfl
      rw [if_neg (by decide), Step.text, isLine.tokens_eq]
      rfl

theorem variant_variantNode (wellNamed : entry.WellNamed) :
    variant? (variantNode entry) = some (entry.variantName, entry.parameters) := by
  rw [variantNode, variant?, tokens_variant wellNamed, variantTokens]
  cases has : entry.key.hasParameters with
  | true =>
      have notEmpty := Entry.parameters_ne_nil has
      have isParts : commaParts? '\x7d' []
          ([Token.mark ','].intercalate (entry.parameters.map fieldTokens) ++
            [.mark '\x7d', .mark ',']) =
            some (entry.parameters.map fieldTokens, [.mark ',']) := by
        apply commaParts_intercalate (by decide) (by simpa using notEmpty)
        intro part member
        obtain ⟨parameter, _, rfl⟩ := List.mem_map.mp member
        simp [fieldTokens]
      simp only [if_true, isParts, mapM_field]
      rfl
  | false =>
      rw [Entry.parameters_eq_nil has]
      rfl

theorem isAside_variantNode (wellNamed : entry.WellNamed) :
    (variantNode entry).isAside = false := by
  obtain ⟨isWord, _⟩ := isWord_of_isIdentifier wellNamed.variant
  obtain ⟨first, rest, isText, starts, _⟩ := isWord.exists_cons
  have noSlash : ¬first = '/' := by
    intro same
    rw [same] at starts
    exact absurd starts (by decide)
  rw [variantNode, variant]
  split
  · simp [Step.text, Node.isAside, isText, List.isPrefixOf, Ne.symm noSlash]
  · simp [Step.text, Node.isAside, isText, List.isPrefixOf, Ne.symm noSlash]

end

variable {catalog : Catalog} {names : Names}

theorem enumeration_accessorNodes (catalog : Catalog) (names : Names)
    (embedded : Option String) :
    onlyBody? ("pub enum " ++ names.enumName ++ " \x7b") (accessorNodes catalog names embedded) =
      some (catalog.entries.map variantNode) := by
  have differs : (opening ("impl " ++ names.enumName) == opening ("pub enum " ++ names.enumName)) =
      false := by
    rw [beq_eq_false_iff_ne]
    intro same
    have letters := congrArg (·.toList.head?) same
    simp [opening] at letters
  have head : "pub enum " ++ names.enumName ++ " \x7b" = opening ("pub enum " ++ names.enumName) :=
    rfl
  rw [head]
  simp [onlyBody?, accessorNodes, enumerationNodes, List.filterMap_cons, Node.under?, differs]

/-- The enum has a variant for each entry, with the parameters of the entry for fields. -/
theorem variants_accessors (wellNamed : catalog.WellNamed) (embedded : Option String) :
    variants? names (accessors catalog names embedded).lines =
      some (catalog.entries.map fun entry => (entry.variantName, entry.parameters)) := by
  have read : declared? variant? (catalog.entries.map variantNode) =
      some (catalog.entries.map fun entry => (entry.variantName, entry.parameters)) := by
    rw [List.map_eq_flatMap, List.map_eq_flatMap]
    apply declared_flatMap
    intro entry member
    have named := wellNamed.entries entry member
    exact declared_node (isAside_variantNode named) (variant_variantNode named)
  rw [variants?, (nests_accessors wellNamed embedded).blocks_eq]
  simp only [Option.bind_eq_bind, Option.bind_some, enumeration_accessorNodes, read]

end Phrasebook.Code

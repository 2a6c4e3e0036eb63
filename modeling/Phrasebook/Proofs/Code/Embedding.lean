/-
This file compares code that has its source as a constant with code that does not. The main
statement is that the constant is all that they differ by, and that it reads as the source.
-/

import Phrasebook.Code.Compile
import Phrasebook.Proofs.Catalog.Reading
import Phrasebook.Proofs.Text.Literal

namespace Phrasebook.Code

open Text

/-- The text of a layout inside of some open blocks. -/
def Layout.renderIn (depth : Nat) (layout : Layout) : String :=
  (Writer.writeAll ⟨depth, ""⟩ layout).output

theorem lineText_of_ne_empty {text : String} (inhabited : text ≠ "") (depth : Nat) :
    lineText depth text = indentation depth ++ text ++ "\n" := by
  have notEmpty : text.isEmpty = false := by
    simpa using inhabited
  rw [lineText, notEmpty]
  rfl

namespace Writer

theorem depth_write (writer : Writer) (step : Step) :
    (writer.write step).depth = (write ⟨writer.depth, ""⟩ step).depth := by
  cases step <;> rfl

theorem output_write (writer : Writer) (step : Step) :
    (writer.write step).output = writer.output ++ (write ⟨writer.depth, ""⟩ step).output := by
  cases step <;> simp [write, put]

/-- A layout goes behind what is written already, and only the depth decides how it looks. -/
theorem output_writeAll (writer : Writer) (layout : Layout) :
    (writer.writeAll layout).output = writer.output ++ layout.renderIn writer.depth := by
  induction layout generalizing writer with
  | nil => simp [writeAll, Layout.renderIn]
  | cons step rest inductionHypothesis =>
      have behind (writer : Writer) : (writer.writeAll (step :: rest)).output =
          (writer.write step).output ++ Layout.renderIn (writer.write step).depth rest :=
        inductionHypothesis (writer.write step)
      rw [Layout.renderIn, behind, behind, depth_write writer, output_write writer,
        String.append_assoc]

theorem writeAll_append (writer : Writer) (first second : Layout) :
    writer.writeAll (first ++ second) = (writer.writeAll first).writeAll second :=
  List.foldl_append

/-- Variants are single lines and open no block. -/
theorem depth_variants (writer : Writer) (entries : List Entry) :
    (writer.writeAll (entries.map variant)).depth = writer.depth := by
  induction entries generalizing writer with
  | nil => rfl
  | cons entry rest inductionHypothesis =>
      have kept : (writer.write (variant entry)).depth = writer.depth := by
        rw [variant]
        split <;> rfl
      exact (inductionHypothesis (writer.write (variant entry))).trans kept

end Writer

/-- Lines as a text. -/
def unlines : List String → String
  | [] => ""
  | line :: rest => line ++ "\n" ++ unlines rest

/-- The layout up to the line that opens the methods. -/
def beforeMethods (catalog : Catalog) (names : Names) : Layout :=
  enumeration catalog names ++
    [.blank, .line "#[allow(non_snake_case, unused_variables)]",
      .opens (opening ("impl " ++ names.enumName))]

/-- The layout from the first method to the end. -/
def methods (catalog : Catalog) : Layout :=
  systemAccessor ++ .blank :: localeAccessor catalog ++
    (catalog.languages.flatMap fun language => .blank :: languageAccessor catalog language) ++
    .blank :: systemLanguage ++ [.closes "\x7d"]

/-- What stands in front of the methods: the enum and the attribute of its implementation. -/
def preamble (catalog : Catalog) (names : Names) : String :=
  (enumeration catalog names).render ++ unlines ["", "#[allow(non_snake_case, unused_variables)]"]

def implementationLine (names : Names) : String :=
  "impl " ++ names.enumName ++ " \x7b"

/-- The lines of a constant that is written with the literal. -/
def constantLines (literal : String) : List String :=
  ["    /// Catalog this code was generated from.",
    "    pub const SOURCE: &'static str = " ++ literal ++ ";",
    ""]

section

variable (catalog : Catalog) (names : Names)

theorem accessors_eq (embedded : Option String) :
    accessors catalog names embedded =
      beforeMethods catalog names ++ (embedded.map sourceConstant).getD [] ++ methods catalog := by
  simp only [accessors, beforeMethods, methods, List.append_assoc]

theorem writeAll_enumeration :
    Writer.writeAll {} (enumeration catalog names) = ⟨0, (enumeration catalog names).render⟩ := by
  have closed : (Writer.writeAll {} (enumeration catalog names)).depth = 0 := by
    rw [enumeration, Writer.writeAll_append, Writer.writeAll_append]
    change (Writer.writeAll _ (catalog.entries.map variant)).depth - 1 = 0
    rw [Writer.depth_variants]
    rfl
  rw [Layout.render]
  generalize Writer.writeAll {} (enumeration catalog names) = written at closed ⊢
  rw [← closed]

/-- What is written when the methods begin. -/
theorem writeAll_beforeMethods :
    Writer.writeAll {} (beforeMethods catalog names) =
      ⟨1, preamble catalog names ++ unlines [implementationLine names]⟩ := by
  have noIndentation : indentation 0 = "" := rfl
  rw [beforeMethods, Writer.writeAll_append, writeAll_enumeration]
  simp [Writer.writeAll, Writer.write, Writer.put, lineText_of_ne_empty, noIndentation, opening,
    preamble, unlines, implementationLine, String.append_assoc]

/-- A constant is three lines of the open block. -/
theorem writeAll_sourceConstant (text source : String) :
    Writer.writeAll ⟨1, text⟩ (sourceConstant source) =
      ⟨1, text ++ unlines (constantLines (quote source))⟩ := by
  have oneIndentation : indentation 1 = "    " := rfl
  have isIndented (rest : String) : "    pub const SOURCE: &'static str = " ++ rest =
      "    " ++ ("pub const SOURCE: &'static str = " ++ rest) := by
    rw [← String.append_assoc]
    rfl
  simp [Writer.writeAll, sourceConstant, Writer.write, Writer.put, lineText_of_ne_empty,
    oneIndentation, unlines, constantLines, isIndented, String.append_assoc]

/-- The constant stands behind the line that opens the methods. -/
theorem render_accessors (embedded : Option String) :
    (accessors catalog names embedded).render =
      preamble catalog names ++ unlines [implementationLine names] ++
        unlines ((embedded.map fun source => constantLines (quote source)).getD []) ++
          (methods catalog).renderIn 1 := by
  rw [Layout.render, accessors_eq, Writer.writeAll_append, Writer.writeAll_append,
    writeAll_beforeMethods, Writer.output_writeAll]
  cases embedded with
  | none => simp [Writer.writeAll, unlines]
  | some source =>
      rw [Option.map_some, Option.getD_some, writeAll_sourceConstant]
      rfl

end

/-- Code with a constant has three lines more than code without, all behind the line that opens the
methods. -/
structure Embeds (catalog : Catalog) (names : Names) (literal : String)
    (plain embedded : Artifacts) : Prop where
  accessors : ∃ rest,
    plain.accessors = preamble catalog names ++ unlines [implementationLine names] ++ rest ∧
      embedded.accessors =
        preamble catalog names ++ unlines [implementationLine names] ++
          unlines (constantLines literal) ++ rest
  facade : embedded.facade = plain.facade

theorem embeds_generate (catalog : Catalog) (options : Options) (source : String) :
    Embeds catalog options.names (quote source)
      (generate catalog { options with embedSource := false } (some source))
      (generate catalog { options with embedSource := true } (some source)) := by
  have onPlain := render_accessors catalog options.names none
  have onEmbedded := render_accessors catalog options.names (some source)
  rw [Option.map_none, Option.getD_none, unlines, String.append_empty] at onPlain
  rw [Option.map_some, Option.getD_some] at onEmbedded
  constructor
  · simp only [generate, Bool.false_eq_true, if_false, if_true]
    exact ⟨_, onPlain, onEmbedded⟩
  · rfl

/-- Without the option, or without a source, there is no constant. -/
theorem generate_of_not_embedded (catalog : Catalog) (options : Options) (text : String)
    {embedSource : Bool} {source : Option String} (without : embedSource = false ∨ source = none) :
    generate catalog { options with embedSource := embedSource } source =
      generate catalog { options with embedSource := false } (some text) := by
  obtain rfl | rfl := without
  · rfl
  · cases embedSource <;> rfl

/-- The source of a catalog goes into the code as a constant and comes back from it. -/
theorem compile_embeds {source : String} {options : Options} {catalog : Catalog}
    (parsed : Catalog.parse options.strict source = .ok catalog) :
    ∃ plain embedded literal,
      compile source { options with embedSource := false } = .ok plain ∧
      (∀ embedSource attached, embedSource = false ∨ attached = none →
        generate catalog { options with embedSource := embedSource } attached = plain) ∧
      compile source { options with embedSource := true } = .ok embedded ∧
      Embeds catalog options.names literal plain embedded ∧
      (∀ character ∈ literal.toList, character ∉ lineBreaks) ∧ QuotesEscaped literal ∧
      (∀ decoded, IsLiteral literal decoded ↔ decoded = source) ∧
      ∀ decoded, IsLiteral literal decoded →
        compile decoded { options with embedSource := true } = .ok embedded := by
  have compiled (embedSource : Bool) :
      compile source { options with embedSource := embedSource } =
        .ok (generate catalog { options with embedSource := embedSource } (some source)) := by
    rw [compile, parsed]
    rfl
  have isLiteral := isLiteral_quote source
  refine ⟨_, _, quote source, compiled false, ?_, compiled true,
    embeds_generate catalog options source, isLiteral.oneLine, isLiteral.quotesEscaped,
    fun decoded => isLiteral_quote_iff, ?_⟩
  · intro embedSource attached without
    exact generate_of_not_embedded catalog options source without
  · intro decoded isDecoded
    rw [isDecoded.content_eq isLiteral]
    exact compiled true

theorem compile_embeds_house :
    Catalog.parse true Catalog.houseSource = .ok Catalog.houseCatalog ∧
      ∃ plain embedded literal,
        compile Catalog.houseSource { strict := true, names := ⟨"Strings", "tr"⟩ } = .ok plain ∧
        compile Catalog.houseSource
          { strict := true, names := ⟨"Strings", "tr"⟩, embedSource := true } = .ok embedded ∧
        Embeds Catalog.houseCatalog ⟨"Strings", "tr"⟩ literal plain embedded ∧
        IsLiteral literal Catalog.houseSource := by
  have parsed := Catalog.parse_houseSource true
  let options : Options := { strict := true, names := ⟨"Strings", "tr"⟩ }
  obtain ⟨plain, embedded, literal, isPlain, _, isEmbedded, embeds, _, _, isContent, _⟩ :=
    compile_embeds (show Catalog.parse options.strict Catalog.houseSource = _ from parsed)
  exact ⟨parsed, plain, embedded, literal, isPlain, isEmbedded, embeds,
    (isContent Catalog.houseSource).mpr rfl⟩

end Phrasebook.Code

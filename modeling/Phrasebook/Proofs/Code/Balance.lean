/-
This file counts the blocks that are open while code is written. The main statement is that
generated code closes the blocks that it opens and no others, and that its lines are indented by
the open blocks.
-/

import Mathlib.Algebra.GroupWithZero.Nat
import Phrasebook.Proofs.Code.Block
import Phrasebook.Proofs.Code.Embedding

namespace Phrasebook.Code

namespace Step

/-- The blocks that a step closes, which it does before it writes its line. -/
def closed : Step → Nat
  | .line _ => 0
  | .blank => 0
  | .opens _ => 0
  | .reopens _ => 1
  | .closes _ => 1

/-- The blocks that a step opens behind its line. -/
def opened : Step → Nat
  | .line _ => 0
  | .blank => 0
  | .opens _ => 1
  | .reopens _ => 1
  | .closes _ => 0

/-- The open blocks behind a step, which may close none where none is open. -/
def depth? (depth : Nat) (step : Step) : Option Nat :=
  if step.closed ≤ depth then some (depth - step.closed + step.opened) else none

theorem depth_eq_some_iff {step : Step} {depth after : Nat} :
    step.depth? depth = some after ↔
      step.closed ≤ depth ∧ depth - step.closed + step.opened = after := by
  rw [depth?]
  split
  · rename_i covered
    simp [covered]
  · rename_i uncovered
    simp [uncovered]

end Step

namespace Layout

def closed (layout : Layout) : Nat :=
  (layout.map Step.closed).sum

def opened (layout : Layout) : Nat :=
  (layout.map Step.opened).sum

/-- The open blocks behind a layout, none of whose steps closes a block where none is open. -/
def depth? (depth : Nat) (layout : Layout) : Option Nat :=
  layout.foldlM Step.depth? depth

theorem depth_nil (depth : Nat) : depth? depth [] = some depth :=
  rfl

theorem depth_append_eq_some_iff {first second : Layout} {depth after : Nat} :
    depth? depth (first ++ second) = some after ↔
      ∃ middle, first.depth? depth = some middle ∧ second.depth? middle = some after := by
  rw [depth?, List.foldlM_append, Option.bind_eq_bind, Option.bind_eq_some_iff]
  rfl

theorem depth_cons_eq_some_iff {step : Step} {rest : Layout} {depth after : Nat} :
    depth? depth (step :: rest) = some after ↔
      ∃ middle, step.depth? depth = some middle ∧ rest.depth? middle = some after := by
  rw [depth?, List.foldlM_cons, Option.bind_eq_bind, Option.bind_eq_some_iff]
  rfl

/-- The open blocks are those that were open before and those that the layout opens, less those
that it closes. -/
theorem depth_add_closed {layout : Layout} {depth after : Nat}
    (followed : layout.depth? depth = some after) :
    after + layout.closed = depth + layout.opened := by
  induction layout generalizing depth with
  | nil =>
      rw [depth_nil, Option.some.injEq] at followed
      rw [followed]
      rfl
  | cons step rest inductionHypothesis =>
      obtain ⟨middle, isStep, isRest⟩ := depth_cons_eq_some_iff.mp followed
      obtain ⟨covered, isMiddle⟩ := Step.depth_eq_some_iff.mp isStep
      have further := inductionHypothesis isRest
      simp only [closed, opened, List.map_cons, List.sum_cons] at further ⊢
      omega

end Layout

namespace Writer

theorem depth_write_eq (writer : Writer) (step : Step) :
    (writer.write step).depth = writer.depth - step.closed + step.opened := by
  cases step <;> rfl

theorem output_write_eq (writer : Writer) (step : Step) :
    (writer.write step).output =
      writer.output ++ placed (writer.depth - step.closed) step.text := by
  rw [← lineText_eq]
  cases step <;> rfl

/-- The writer counts the open blocks where no step closes a block that is not open. -/
theorem depth_writeAll {layout : Layout} {writer : Writer} {after : Nat}
    (followed : layout.depth? writer.depth = some after) :
    (writer.writeAll layout).depth = after := by
  induction layout generalizing writer with
  | nil => exact Option.some.inj followed
  | cons step rest inductionHypothesis =>
      obtain ⟨middle, isStep, isRest⟩ := Layout.depth_cons_eq_some_iff.mp followed
      have isMiddle : (writer.write step).depth = middle :=
        (depth_write_eq writer step).trans (Step.depth_eq_some_iff.mp isStep).2
      rw [← isMiddle] at isRest
      exact inductionHypothesis isRest

end Writer

/-- A layout closes the blocks that it opens and no others. -/
def Keeps (layout : Layout) : Prop :=
  ∀ depth, layout.depth? depth = some depth

/-- A layout closes one block more than it opens. -/
def Leaves (layout : Layout) : Prop :=
  ∀ depth, layout.depth? (depth + 1) = some depth

namespace Leaves

theorem close (text : String) : Leaves [.closes text] :=
  fun _ => rfl

theorem reopen {body rest : Layout} (text : String) (isBody : Keeps body) (isRest : Leaves rest) :
    Leaves (.reopens text :: body ++ rest) := by
  intro depth
  rw [List.cons_append, Layout.depth_cons_eq_some_iff]
  have isStep : (Step.reopens text).depth? (depth + 1) = some (depth + 1) := by
    simp [Step.depth_eq_some_iff, Step.closed, Step.opened]
  refine ⟨depth + 1, isStep, ?_⟩
  rw [Layout.depth_append_eq_some_iff]
  exact ⟨depth + 1, isBody (depth + 1), isRest depth⟩

end Leaves

namespace Keeps

theorem nil : Keeps [] :=
  fun _ => rfl

theorem line (text : String) : Keeps [.line text] :=
  fun _ => rfl

theorem blank : Keeps [.blank] :=
  fun _ => rfl

theorem append {first second : Layout} (isFirst : Keeps first) (isSecond : Keeps second) :
    Keeps (first ++ second) := by
  intro depth
  rw [Layout.depth_append_eq_some_iff]
  exact ⟨depth, isFirst depth, isSecond depth⟩

theorem flatMap {A : Type} {items : List A} {layout : A → Layout}
    (each : ∀ item ∈ items, Keeps (layout item)) : Keeps (items.flatMap layout) := by
  induction items with
  | nil => exact nil
  | cons item rest inductionHypothesis =>
      obtain ⟨first, further⟩ := List.forall_mem_cons.mp each
      rw [List.flatMap_cons]
      exact first.append (inductionHypothesis further)

theorem map {A : Type} {items : List A} {step : A → Step}
    (each : ∀ item ∈ items, Keeps [step item]) : Keeps (items.map step) := by
  rw [List.map_eq_flatMap]
  exact flatMap each

/-- A block, with all the blocks that begin where another one ends. -/
theorem blocks {body rest : Layout} (text : String) (isBody : Keeps body) (isRest : Leaves rest) :
    Keeps (.opens text :: body ++ rest) := by
  intro depth
  rw [List.cons_append, Layout.depth_cons_eq_some_iff]
  refine ⟨depth + 1, rfl, ?_⟩
  rw [Layout.depth_append_eq_some_iff]
  exact ⟨depth + 1, isBody (depth + 1), isRest depth⟩

theorem block {body : Layout} (head last : String) (isBody : Keeps body) :
    Keeps (.opens head :: body ++ [.closes last]) :=
  blocks head isBody (Leaves.close last)

/-- Tests keep the blocks where all their lines do. -/
theorem chain {tests : List (String × Layout)} {otherwise : Layout}
    (each : ∀ test ∈ tests, Keeps test.2) (last : Keeps otherwise) :
    Keeps (chain tests otherwise) := by
  have further (others : List (String × Layout)) (keep : ∀ test ∈ others, Keeps test.2) :
      Leaves (others.flatMap
          (fun test => .reopens (opening ("\x7d else if " ++ test.1)) :: test.2) ++
        (.reopens (opening "\x7d else") :: otherwise ++ [.closes "\x7d"])) := by
    induction others with
    | nil => exact Leaves.reopen _ last (Leaves.close _)
    | cons test rest inductionHypothesis =>
        obtain ⟨isTest, isRest⟩ := List.forall_mem_cons.mp keep
        rw [List.flatMap_cons, List.append_assoc]
        exact Leaves.reopen _ isTest (inductionHypothesis isRest)
  cases tests with
  | nil => exact last
  | cons test rest =>
      obtain ⟨isTest, isRest⟩ := List.forall_mem_cons.mp each
      have blocks := Keeps.blocks (opening ("if " ++ test.1)) isTest (further rest isRest)
      simpa [Code.chain] using blocks

end Keeps

section

variable (catalog : Catalog) (names : Names)

theorem keeps_variant (entry : Entry) : Keeps [variant entry] := by
  rw [variant]
  split <;> exact Keeps.line _

theorem keeps_enumeration : Keeps (enumeration catalog names) := by
  have variants : Keeps (catalog.entries.map variant) :=
    Keeps.map fun entry _ => keeps_variant entry
  exact (Keeps.line _).append ((Keeps.line _).append ((Keeps.line _).append
    (Keeps.block _ _ variants)))

theorem keeps_sourceConstant (source : String) : Keeps (sourceConstant source) :=
  (Keeps.line _).append ((Keeps.line _).append Keeps.blank)

theorem keeps_systemAccessor : Keeps systemAccessor :=
  (Keeps.line _).append (Keeps.block _ _ (Keeps.line _))

theorem keeps_localeAccessor : Keeps (localeAccessor catalog) := by
  have tests : Keeps (chain ((candidates catalog).map fun language =>
      ("locale.starts_with(" ++ Text.quote language ++ ")", [Step.line (methodCall language)]))
      [.line (methodCall catalog.defaultLanguage)]) := by
    apply Keeps.chain _ (Keeps.line _)
    intro test member
    obtain ⟨language, _, rfl⟩ := List.mem_map.mp member
    exact Keeps.line _
  exact (Keeps.line _).append (Keeps.block _ _ tests)

theorem keeps_arm (entry : Entry) (wording : Wording) : Keeps (arm entry wording) := by
  rw [arm]
  split
  · exact Keeps.line _
  · apply Keeps.block
    apply Keeps.chain _ (Keeps.line _)
    intro test member
    obtain ⟨conditional, _, rfl⟩ := List.mem_map.mp member
    exact Keeps.line _

theorem keeps_arms (language : String) : Keeps (arms catalog language) := by
  apply Keeps.flatMap
  intro entry _
  split
  · exact keeps_arm entry _
  · exact Keeps.nil

theorem keeps_languageAccessor (language : String) : Keeps (languageAccessor catalog language) := by
  have body : Keeps (if catalog.entries.isEmpty then [.line "match *self \x7b\x7d"]
      else .opens (opening "match self") :: arms catalog language ++ [.closes "\x7d"]) := by
    split
    · exact Keeps.line _
    · exact Keeps.block _ _ (keeps_arms catalog language)
  exact (Keeps.line _).append (Keeps.block _ _ body)

theorem keeps_systemLanguage : Keeps systemLanguage :=
  fun _ => rfl

theorem keeps_accessors (embedded : Option String) : Keeps (accessors catalog names embedded) := by
  have source : Keeps ((embedded.map sourceConstant).getD []) := by
    cases embedded with
    | none => exact Keeps.nil
    | some text => exact keeps_sourceConstant text
  have languages : Keeps
      (catalog.languages.flatMap fun language => .blank :: languageAccessor catalog language) :=
    Keeps.flatMap fun language _ => Keeps.blank.append (keeps_languageAccessor catalog language)
  have items := (((source.append keeps_systemAccessor).append
    (Keeps.blank.append (keeps_localeAccessor catalog))).append languages).append
      (Keeps.blank.append keeps_systemLanguage)
  have implementation := Keeps.blank.append ((Keeps.line
    "#[allow(non_snake_case, unused_variables)]").append
      (Keeps.block (opening ("impl " ++ names.enumName)) "\x7d" items))
  have keeps := (keeps_enumeration catalog names).append implementation
  simpa [accessors] using keeps

theorem keeps_shortcut (entry : Entry) : Keeps (shortcut names entry) :=
  Keeps.block _ _ (Keeps.line _)

theorem keeps_separate {layouts : List Layout} (each : ∀ layout ∈ layouts, Keeps layout) :
    Keeps (separate layouts) := by
  cases layouts with
  | nil => exact Keeps.nil
  | cons first rest =>
      obtain ⟨isFirst, isRest⟩ := List.forall_mem_cons.mp each
      exact isFirst.append (Keeps.flatMap fun layout member =>
        Keeps.blank.append (isRest layout member))

theorem keeps_facade : Keeps (facade catalog names) := by
  have inner : Keeps (separate (catalog.entries.map (shortcut names))) := by
    apply keeps_separate
    intro layout member
    obtain ⟨entry, _, rfl⟩ := List.mem_map.mp member
    exact keeps_shortcut names entry
  exact (Keeps.line _).append ((Keeps.line _).append (Keeps.block _ _ inner))

end

/-- At whatever depth a layout is written, it leaves the depth as it finds it. Its steps close open
blocks only, and a line has four spaces for each block that is open where it is written. -/
structure Balanced (layout : Layout) : Prop where
  depth : ∀ writer, (Writer.writeAll writer layout).depth = writer.depth
  closes : ∀ writer before step after, layout = before ++ step :: after →
    step.closed ≤ (Writer.writeAll writer before).depth
  indented : ∀ writer before step after, layout = before ++ step :: after →
    ∃ depth, depth + Layout.closed (before ++ [step]) = writer.depth + Layout.opened before ∧
      (Writer.writeAll writer (before ++ [step])).output =
        (Writer.writeAll writer before).output ++ placed depth step.text

theorem Keeps.exists_depth {before after : Layout} {step : Step}
    (keeps : Keeps (before ++ step :: after)) (depth : Nat) :
    ∃ middle, before.depth? depth = some middle ∧ step.closed ≤ middle := by
  obtain ⟨middle, isBefore, isRest⟩ := Layout.depth_append_eq_some_iff.mp (keeps depth)
  obtain ⟨_, isStep, _⟩ := Layout.depth_cons_eq_some_iff.mp isRest
  exact ⟨middle, isBefore, (Step.depth_eq_some_iff.mp isStep).1⟩

theorem Keeps.balanced {layout : Layout} (keeps : Keeps layout) : Balanced layout := by
  constructor
  · intro writer
    exact Writer.depth_writeAll (keeps writer.depth)
  · rintro writer before step after rfl
    obtain ⟨middle, isBefore, covered⟩ := keeps.exists_depth writer.depth
    rw [Writer.depth_writeAll isBefore]
    exact covered
  · rintro writer before step after rfl
    obtain ⟨middle, isBefore, covered⟩ := keeps.exists_depth writer.depth
    refine ⟨middle - step.closed, ?_, ?_⟩
    · have counted := Layout.depth_add_closed isBefore
      simp only [Layout.closed, List.map_append, List.sum_append, List.map_singleton,
        List.sum_singleton] at counted ⊢
      omega
    · rw [Writer.writeAll_append]
      have written := Writer.output_write_eq (writer.writeAll before) step
      rw [Writer.depth_writeAll isBefore] at written
      exact written

/-- A text that is written by a layout, outside of all blocks and with full lines. -/
structure WrittenBy (text : String) (layout : Layout) : Prop where
  balanced : Balanced layout
  output : (Writer.writeAll {} layout).output = text
  depth : (Writer.writeAll {} layout).depth = 0
  newline : text.toList.getLast? = some '\n'

theorem Writer.getLast_write (writer : Writer) (step : Step) :
    (writer.write step).output.toList.getLast? = some '\n' := by
  rw [output_write_eq, placed]
  split <;> simp [List.getLast?_append]

theorem Keeps.writtenBy {layout : Layout} (keeps : Keeps layout) (inhabited : layout ≠ []) :
    WrittenBy layout.render layout := by
  refine ⟨keeps.balanced, rfl, Writer.depth_writeAll (keeps 0), ?_⟩
  obtain ⟨before, last, rfl⟩ := (List.eq_nil_or_concat layout).resolve_left inhabited
  rw [Layout.render, List.concat_eq_append, Writer.writeAll_append]
  exact Writer.getLast_write _ last

/-- For every catalog the parts of the code are balanced, and so are the accessors and the
shortcuts as a whole. -/
theorem generate_balanced (catalog : Catalog) (options : Options) (source : Option String) :
    let embedded := if options.embedSource then source else none
    let code := generate catalog options source
    (Balanced (enumeration catalog options.names) ∧ Balanced systemAccessor ∧
      Balanced (localeAccessor catalog) ∧
      (∀ language, Balanced (languageAccessor catalog language)) ∧
      (∀ entry wording, Balanced (arm entry wording)) ∧ Balanced systemLanguage) ∧
    WrittenBy code.accessors (accessors catalog options.names embedded) ∧
      WrittenBy code.facade (facade catalog options.names) := by
  intro embedded code
  have parts : Balanced (enumeration catalog options.names) ∧ Balanced systemAccessor ∧
      Balanced (localeAccessor catalog) ∧
      (∀ language, Balanced (languageAccessor catalog language)) ∧
      (∀ entry wording, Balanced (arm entry wording)) ∧ Balanced systemLanguage :=
    ⟨(keeps_enumeration catalog options.names).balanced, keeps_systemAccessor.balanced,
      (keeps_localeAccessor catalog).balanced,
      fun language => (keeps_languageAccessor catalog language).balanced,
      fun entry wording => (keeps_arm entry wording).balanced, keeps_systemLanguage.balanced⟩
  refine ⟨parts, ?_, ?_⟩
  · exact (keeps_accessors catalog options.names embedded).writtenBy (by simp [accessors])
  · exact (keeps_facade catalog options.names).writtenBy (by simp [facade])

/-- The shortcuts of a small catalog, and one of its methods inside of the implementation. -/
theorem generate_balanced_house :
    let code := generate Catalog.houseCatalog {} none
    WrittenBy code.facade (facade Catalog.houseCatalog {}) ∧
      code.facade = unlines
        ["/// Shortcuts for `Localized` in the system language.",
          "#[allow(non_snake_case)]",
          "pub mod loc \x7b",
          "    pub fn house() -> String \x7b",
          "        super::Localized::House.string()",
          "    \x7d",
          "",
          "    pub fn houses(count: &str) -> String \x7b",
          "        super::Localized::Houses \x7b count: count.to_owned() \x7d.string()",
          "    \x7d",
          "\x7d"] ∧
      Balanced (languageAccessor Catalog.houseCatalog "en") ∧
      Layout.renderIn 1 (languageAccessor Catalog.houseCatalog "en") = unlines
        ["    /// `en` translation.",
          "    pub fn en(&self) -> String \x7b",
          "        match self \x7b",
          "            Self::House => String::from(\"House\"),",
          "            Self::Houses \x7b count \x7d => \x7b",
          "                if count == \"1\" \x7b",
          "                    String::from(\"One house\")",
          "                \x7d else \x7b",
          "                    format!(\"\x7bcount\x7d houses\")",
          "                \x7d",
          "            \x7d",
          "        \x7d",
          "    \x7d"] := by
  obtain ⟨⟨_, _, _, languages, _, _⟩, _, shortcuts⟩ :=
    generate_balanced Catalog.houseCatalog {} none
  refine ⟨shortcuts, ?_, languages "en", ?_⟩
  · decide +kernel
  · decide +kernel

end Phrasebook.Code

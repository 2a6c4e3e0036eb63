/-
This file reads lines of code as nested blocks. A line opens a block with its last character and
closes one with its first; nothing else of a line counts.
-/

import Phrasebook.Code.Layout

namespace Phrasebook.Code

inductive LineKind where
  | plain
  | opens
  | reopens
  | closes
  deriving Repr, DecidableEq

def lineKind (line : String) : LineKind :=
  match line.toList.head? == some '\x7d', line.toList.getLast? == some '\x7b' with
  | false, false => .plain
  | false, true => .opens
  | true, true => .reopens
  | true, false => .closes

/-- A line that closes a block and opens the next one leaves both side by side. -/
inductive Node where
  | line (text : String)
  | block (head : String) (body : List Node)
  deriving Repr

/-- The open blocks with the nodes before each, innermost first, and the nodes of the innermost. -/
structure Reader where
  opened : List (String × List Node)
  nodes : List Node

namespace Reader

def close (reader : Reader) : Option Reader :=
  match reader.opened with
  | [] => none
  | (head, before) :: outer => some ⟨outer, before ++ [.block head reader.nodes]⟩

def enter (reader : Reader) (head : String) : Reader :=
  ⟨(head, reader.nodes) :: reader.opened, []⟩

def next (reader : Reader) (line : String) : Option Reader :=
  match lineKind line with
  | .plain => some { reader with nodes := reader.nodes ++ [.line line] }
  | .opens => some (reader.enter line)
  | .reopens => reader.close.map (·.enter line)
  | .closes => reader.close

end Reader

/-- The blocks of some lines, where all that are opened are closed. -/
def blocks? (lines : List String) : Option (List Node) :=
  match lines.foldlM Reader.next ⟨[], []⟩ with
  | some ⟨[], nodes⟩ => some nodes
  | _ => none

/-- A line inside of some open blocks: behind four spaces for each of them, and with a line feed at
its end. An empty line has no spaces. -/
def placed (depth : Nat) (line : String) : String :=
  if line = "" then "\n" else String.join (List.replicate depth "    ") ++ line ++ "\n"

/-- Lines, each placed inside of the blocks that are open there. -/
def indented (depth : Nat) : List String → String
  | [] => ""
  | line :: rest =>
      match lineKind line with
      | .plain => placed depth line ++ indented depth rest
      | .opens => placed depth line ++ indented (depth + 1) rest
      | .reopens => placed (depth - 1) line ++ indented (depth - 1 + 1) rest
      | .closes => placed (depth - 1) line ++ indented (depth - 1) rest

def Step.text : Step → String
  | .line text => text
  | .blank => ""
  | .opens text => text
  | .reopens text => text
  | .closes text => text

def Step.kind : Step → LineKind
  | .line _ => .plain
  | .blank => .plain
  | .opens _ => .opens
  | .reopens _ => .reopens
  | .closes _ => .closes

def Layout.lines (layout : Layout) : List String :=
  layout.map Step.text

/-- A line shows by its text what it does to the blocks. -/
def Step.Honest (step : Step) : Prop :=
  lineKind step.text = step.kind

theorem indentation_eq (depth : Nat) :
    indentation depth = String.join (List.replicate depth "    ") := by
  rw [← String.toList_inj, indentation, String.toList_ofList, String.toList_join]
  induction depth with
  | zero => rfl
  | succ depth inductionHypothesis =>
      rw [List.replicate_succ, List.flatMap_cons, ← inductionHypothesis, Nat.mul_succ,
        Nat.add_comm, ← List.replicate_append_replicate]
      rfl

theorem lineText_eq (depth : Nat) (line : String) : lineText depth line = placed depth line := by
  rw [lineText, placed, indentation_eq]
  by_cases isEmpty : line = ""
  · rw [if_pos isEmpty, isEmpty]
    rfl
  · rw [if_neg isEmpty, if_neg (by simpa using isEmpty)]

/-- What is written depends on the texts of the lines only. -/
theorem Writer.writeAll_eq {layout : Layout} (honest : ∀ step ∈ layout, step.Honest)
    (writer : Writer) :
    (writer.writeAll layout).output = writer.output ++ indented writer.depth layout.lines := by
  induction layout generalizing writer with
  | nil => simp [writeAll, Layout.lines, indented]
  | cons step rest inductionHypothesis =>
      obtain ⟨first, further⟩ := List.forall_mem_cons.mp honest
      apply (inductionHypothesis further (writer.write step)).trans
      change _ = writer.output ++ indented writer.depth (step.text :: Layout.lines rest)
      rw [indented, show lineKind step.text = step.kind from first]
      cases step with
      | blank => simp [write, put, Step.text, Step.kind, placed, String.append_assoc]
      | _ => simp [write, put, Step.kind, Step.text, lineText_eq, String.append_assoc]

theorem Layout.render_eq {layout : Layout} (honest : ∀ step ∈ layout, step.Honest) :
    layout.render = indented 0 layout.lines := by
  rw [render, Writer.writeAll_eq honest]
  exact String.empty_append

/-- Wherever a layout stands, it is read as the nodes. -/
structure Nests (layout : Layout) (nodes : List Node) : Prop where
  honest : ∀ step ∈ layout, step.Honest
  reads : ∀ opened before, layout.lines.foldlM Reader.next ⟨opened, before⟩ =
    some ⟨opened, before ++ nodes⟩

/-- Inside an open block a layout is read as the end of the block and the nodes behind it. -/
structure Ends (layout : Layout) (nodes : List Node) : Prop where
  honest : ∀ step ∈ layout, step.Honest
  reads : ∀ opened head before inner,
    layout.lines.foldlM Reader.next ⟨(head, before) :: opened, inner⟩ =
      some ⟨opened, before ++ .block head inner :: nodes⟩

theorem Nests.blocks_eq {layout : Layout} {nodes : List Node} (nests : Nests layout nodes) :
    blocks? layout.lines = some nodes := by
  rw [blocks?, nests.reads]
  rfl

namespace Nests

theorem nil : Nests [] [] :=
  ⟨by simp, fun opened before => by simp [Layout.lines]⟩

theorem append {first second : Layout} {nodes more : List Node} (isFirst : Nests first nodes)
    (isSecond : Nests second more) : Nests (first ++ second) (nodes ++ more) := by
  refine ⟨List.forall_mem_append.mpr ⟨isFirst.honest, isSecond.honest⟩, ?_⟩
  intro opened before
  rw [Layout.lines, List.map_append, List.foldlM_append]
  have start := isFirst.reads opened before
  have further := isSecond.reads opened (before ++ nodes)
  simp only [Layout.lines] at start further
  rw [start]
  simp [further]

theorem line {text : String} (plain : lineKind text = .plain) :
    Nests [.line text] [.line text] := by
  refine ⟨List.forall_mem_singleton.mpr plain, ?_⟩
  intro opened before
  simp [Layout.lines, Step.text, Reader.next, plain]

theorem blank : Nests [.blank] [.line ""] := by
  refine ⟨List.forall_mem_singleton.mpr rfl, ?_⟩
  intro opened before
  rfl

end Nests

namespace Ends

theorem close {text : String} (closes : lineKind text = .closes) : Ends [.closes text] [] := by
  refine ⟨List.forall_mem_singleton.mpr closes, ?_⟩
  intro opened head before inner
  simp [Layout.lines, Step.text, Reader.next, closes, Reader.close]

theorem reopen {text : String} {body rest : Layout} {inner nodes : List Node}
    (reopens : lineKind text = .reopens) (isBody : Nests body inner) (isRest : Ends rest nodes) :
    Ends (.reopens text :: body ++ rest) (.block text inner :: nodes) := by
  constructor
  · have honest : ∀ step ∈ Step.reopens text :: body, step.Honest :=
      List.forall_mem_cons.mpr ⟨reopens, isBody.honest⟩
    exact List.forall_mem_append.mpr ⟨honest, isRest.honest⟩
  · intro opened head before outer
    have start := isBody.reads ((text, before ++ [.block head outer]) :: opened) []
    have further := isRest.reads opened text (before ++ [.block head outer]) inner
    simp only [Layout.lines] at start further
    simp only [Layout.lines, List.cons_append, List.map_cons, List.map_append, List.foldlM_cons,
      List.foldlM_append, Step.text, Reader.next, reopens, Reader.close, Reader.enter,
      Option.map_some, Option.bind_eq_bind, Option.bind_some, start, List.nil_append, further]
    simp

end Ends

namespace Nests

/-- A block, with all the blocks that begin where another one ends. -/
theorem blocks {text : String} {body rest : Layout} {inner nodes : List Node}
    (opens : lineKind text = .opens) (isBody : Nests body inner) (isRest : Ends rest nodes) :
    Nests (.opens text :: body ++ rest) (.block text inner :: nodes) := by
  constructor
  · have honest : ∀ step ∈ Step.opens text :: body, step.Honest :=
      List.forall_mem_cons.mpr ⟨opens, isBody.honest⟩
    exact List.forall_mem_append.mpr ⟨honest, isRest.honest⟩
  · intro opened before
    have start := isBody.reads ((text, before) :: opened) []
    have further := isRest.reads opened text before inner
    simp only [Layout.lines] at start further
    simp only [Layout.lines, List.cons_append, List.map_cons, List.map_append, List.foldlM_cons,
      List.foldlM_append, Step.text, Reader.next, opens, Reader.enter, Option.bind_eq_bind,
      Option.bind_some, start, List.nil_append, further]

theorem block {text : String} {body : Layout} {inner : List Node}
    (opens : lineKind text = .opens) (isBody : Nests body inner) :
    Nests (.opens text :: body ++ [.closes "\x7d"]) [.block text inner] :=
  blocks opens isBody (Ends.close (by decide))

end Nests

end Phrasebook.Code

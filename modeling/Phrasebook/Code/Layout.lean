/-
This file lays out code in lines that are indented by the open blocks.
-/

namespace Phrasebook.Code

/-- A line may open a block, close one, or close one and open the next. -/
inductive Step where
  | line (text : String)
  | blank
  | opens (text : String)
  | reopens (text : String)
  | closes (text : String)
  deriving Repr, DecidableEq

abbrev Layout := List Step

structure Writer where
  depth : Nat := 0
  output : String := ""
  deriving Repr, DecidableEq

/-- Four spaces for each open block. -/
def indentation (depth : Nat) : String :=
  String.ofList (List.replicate (4 * depth) ' ')

/-- An empty line has no indentation. -/
def lineText (depth : Nat) (text : String) : String :=
  (if text.isEmpty then "" else indentation depth ++ text) ++ "\n"

namespace Writer

def put (writer : Writer) (text : String) : Writer :=
  { writer with output := writer.output ++ text }

/-- Closing a block where none is open leaves the depth at zero. -/
def write (writer : Writer) : Step → Writer
  | .line text => writer.put (lineText writer.depth text)
  | .blank => writer.put "\n"
  | .opens text => ⟨writer.depth + 1, writer.output ++ lineText writer.depth text⟩
  | .reopens text => ⟨writer.depth - 1 + 1, writer.output ++ lineText (writer.depth - 1) text⟩
  | .closes text => ⟨writer.depth - 1, writer.output ++ lineText (writer.depth - 1) text⟩

def writeAll (writer : Writer) (layout : Layout) : Writer :=
  layout.foldl write writer

end Writer

def Layout.render (layout : Layout) : String :=
  (Writer.writeAll {} layout).output

end Phrasebook.Code

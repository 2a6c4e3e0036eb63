/-
This file reads blocks that test conditions one after the other. A condition is not looked into;
whoever reads the blocks says which conditions hold.
-/

import Phrasebook.Code.Accessors
import Phrasebook.Proofs.Code.Block

namespace Phrasebook.Code

/-- The text between two others. -/
def between? (start finish text : String) : Option String :=
  let rest := text.toList.drop start.toList.length
  if start.toList.isPrefixOf text.toList && finish.toList.isSuffixOf rest then
    some (String.ofList (rest.take (rest.length - finish.toList.length)))
  else none

/-- Conditions with what runs where one holds, and what runs where none does. -/
structure Branches where
  tests : List (String × List Node)
  otherwise : List Node

namespace Branches

/-- The conditions after the first one; the last block has none. -/
def further? : List Node → Option Branches
  | .block head body :: rest =>
      match between? "\x7d else if " " \x7b" head with
      | some test => (further? rest).map fun branches =>
          { branches with tests := (test, body) :: branches.tests }
      | none => if head == "\x7d else \x7b" && rest.isEmpty then some ⟨[], body⟩ else none
  | _ => none

def ofNodes? : List Node → Option Branches
  | .block head body :: rest =>
      match between? "if " " \x7b" head with
      | some test => (further? rest).map fun branches =>
          { branches with tests := (test, body) :: branches.tests }
      | none => none
  | _ => none

/-- The body of the first condition that holds. -/
def firstBody? (holds : String → Option Bool) (otherwise : List Node) :
    List (String × List Node) → Option (List Node)
  | [] => some otherwise
  | (test, body) :: rest =>
      match holds test with
      | none => none
      | some true => some body
      | some false => firstBody? holds otherwise rest

def body? (holds : String → Option Bool) (branches : Branches) : Option (List Node) :=
  firstBody? holds branches.otherwise branches.tests

end Branches

/-- The only line of some nodes. -/
def onlyLine? : List Node → Option String
  | [.line text] => some text
  | _ => none

/-- The line that gives the result of some nodes, which may stand behind conditions. -/
def result? (holds : String → Option Bool) (nodes : List Node) : Option String :=
  match onlyLine? nodes with
  | some text => some text
  | none => ((Branches.ofNodes? nodes).bind (Branches.body? holds)).bind onlyLine?

/-- The blocks behind the first condition. -/
def furtherNodes (tests : List (String × String)) (otherwise : String) : List Node :=
  tests.map (fun (test, result) => .block (opening ("\x7d else if " ++ test)) [.line result]) ++
    [.block (opening "\x7d else") [.line otherwise]]

/-- The blocks of conditions with a line each. -/
def chainNodes (tests : List (String × String)) (otherwise : String) : List Node :=
  match tests with
  | [] => [.line otherwise]
  | (test, result) :: rest =>
      .block (opening ("if " ++ test)) [.line result] :: furtherNodes rest otherwise

theorem between_append (start middle finish : String) :
    between? start finish (start ++ middle ++ finish) = some middle := by
  have isRest : (start ++ middle ++ finish).toList.drop start.toList.length =
      middle.toList ++ finish.toList := by
    rw [String.append_assoc, String.toList_append, List.drop_left, String.toList_append]
  have starts : start.toList.isPrefixOf (start ++ middle ++ finish).toList := by
    rw [List.isPrefixOf_iff_prefix, String.append_assoc, String.toList_append]
    exact List.prefix_append _ _
  have finishes : finish.toList.isSuffixOf (middle.toList ++ finish.toList) := by
    rw [List.isSuffixOf_iff_suffix]
    exact List.suffix_append _ _
  rw [between?, isRest, if_pos (by rw [starts, finishes]; rfl)]
  simp

section

variable {tests : List (String × String)} {otherwise : String}

theorem lineKind_if (test : String) : lineKind (opening ("if " ++ test)) = .opens := by
  simp [lineKind, opening, List.getLast?_cons, List.getLast?_append]

theorem lineKind_elseIf (test : String) :
    lineKind (opening ("\x7d else if " ++ test)) = .reopens := by
  simp [lineKind, opening, List.getLast?_cons, List.getLast?_append]

/-- The blocks behind the first condition end where the last one does. -/
theorem ends_further (lines : ∀ test ∈ tests, lineKind test.2 = .plain)
    (last : lineKind otherwise = .plain) :
    Ends ((tests.map fun (test, result) => (test, [Step.line result])).flatMap
        (fun (test, lines) => Step.reopens (opening ("\x7d else if " ++ test)) :: lines) ++
      (.reopens (opening "\x7d else") :: [.line otherwise] ++ [.closes "\x7d"]))
      (furtherNodes tests otherwise) := by
  induction tests with
  | nil => exact Ends.reopen (by decide) (Nests.line last) (Ends.close (by decide))
  | cons test rest inductionHypothesis =>
      obtain ⟨first, further⟩ := List.forall_mem_cons.mp lines
      rw [List.map_cons, List.flatMap_cons, List.append_assoc]
      exact Ends.reopen (lineKind_elseIf _) (Nests.line first) (inductionHypothesis further)

/-- The layout of conditions is read as their blocks. -/
theorem nests_chain (lines : ∀ test ∈ tests, lineKind test.2 = .plain)
    (last : lineKind otherwise = .plain) :
    Nests (chain (tests.map fun (test, result) => (test, [Step.line result])) [.line otherwise])
      (chainNodes tests otherwise) := by
  cases tests with
  | nil => exact Nests.line last
  | cons test rest =>
      obtain ⟨first, further⟩ := List.forall_mem_cons.mp lines
      have isRest := ends_further further last
      have nests := Nests.blocks (lineKind_if test.1) (Nests.line first) isRest
      simpa [chain, chainNodes] using nests

theorem further_furtherNodes (tests : List (String × String)) (otherwise : String) :
    Branches.further? (furtherNodes tests otherwise) =
      some ⟨tests.map fun (test, result) => (test, [.line result]), [.line otherwise]⟩ := by
  induction tests with
  | nil => rfl
  | cons test rest inductionHypothesis =>
      have isTest := between_append "\x7d else if " test.1 " \x7b"
      rw [furtherNodes, List.map_cons, List.cons_append, Branches.further?, opening, isTest]
      change (Branches.further? (furtherNodes rest otherwise)).map _ = _
      rw [inductionHypothesis]
      rfl

theorem firstBody_map {holds : String → Option Bool} (flag : String → Bool)
    (known : ∀ test ∈ tests, holds test.1 = some (flag test.1)) :
    Branches.firstBody? holds [.line otherwise]
        (tests.map fun (test, result) => (test, [.line result])) =
      some [.line (((tests.find? fun test => flag test.1).map Prod.snd).getD otherwise)] := by
  induction tests with
  | nil => rfl
  | cons test rest inductionHypothesis =>
      obtain ⟨isKnown, further⟩ := List.forall_mem_cons.mp known
      rw [List.map_cons, Branches.firstBody?, isKnown, List.find?_cons]
      cases flag test.1 with
      | true => rfl
      | false => exact inductionHypothesis further

/-- The result of the blocks is that of the first condition that holds. -/
theorem result_chainNodes {holds : String → Option Bool} (flag : String → Bool)
    (known : ∀ test ∈ tests, holds test.1 = some (flag test.1)) :
    result? holds (chainNodes tests otherwise) =
      some (((tests.find? fun test => flag test.1).map Prod.snd).getD otherwise) := by
  cases tests with
  | nil => rfl
  | cons test rest =>
      have isTest := between_append "if " test.1 " \x7b"
      have isBranches : Branches.ofNodes? (chainNodes (test :: rest) otherwise) =
          some ⟨(test :: rest).map fun (test, result) => (test, [.line result]),
            [.line otherwise]⟩ := by
        rw [chainNodes, Branches.ofNodes?, opening, isTest]
        simp only [further_furtherNodes]
        rfl
      have isBlock : onlyLine? (chainNodes (test :: rest) otherwise) = none := rfl
      rw [result?, isBlock, isBranches]
      simp only [Option.bind_some, Branches.body?]
      rw [firstBody_map flag known]
      rfl

end

end Phrasebook.Code

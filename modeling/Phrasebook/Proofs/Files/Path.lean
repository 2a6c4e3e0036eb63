/-
This file proves that paths are read back as the names they are written from: the parts of a path,
the paths that contain it and a name behind it.
-/

import Mathlib.Data.List.Infix
import Phrasebook.Files.Disk
import Phrasebook.Proofs.Lists

namespace Phrasebook

namespace Path

/-- A part that leads from a directory to a place in it. -/
structure IsName (part : List Char) : Prop where
  noSlash : '/' ∉ part
  busy : isIdle part = false
  down : part ≠ ['.', '.']

theorem IsName.ne_nil {part : List Char} (isName : IsName part) : part ≠ [] := by
  rintro rfl
  cases isName.busy

theorem IsName.relative {name : String} (isName : IsName name.toList) :
    isAbsolute name = false := by
  rw [isAbsolute, beq_eq_false_iff_ne]
  intro first
  exact isName.noSlash (List.mem_of_mem_head? first)

theorem parts_ne_nil (text : List Char) : parts text ≠ [] := by
  unfold parts
  split
  · exact List.cons_ne_nil _ _
  · exact List.cons_ne_nil _ _
  · split
    · exact List.cons_ne_nil _ _
    · exact List.cons_ne_nil _ _

theorem parts_cons {character : Char} (noSlash : character ≠ '/') (rest : List Char) :
    ∃ part more, parts rest = part :: more ∧
      parts (character :: rest) = (character :: part) :: more := by
  obtain ⟨part, more, isParts⟩ := List.exists_cons_of_ne_nil (parts_ne_nil rest)
  refine ⟨part, more, isParts, ?_⟩
  rw [parts, isParts]
  exact noSlash

theorem noSlash_of_mem_parts {text part : List Char} (member : part ∈ parts text) :
    '/' ∉ part := by
  induction text generalizing part with
  | nil =>
      rw [List.mem_singleton.mp member]
      exact List.not_mem_nil
  | cons character rest inductionHypothesis =>
      by_cases isSlash : character = '/'
      · subst isSlash
        rcases List.mem_cons.mp member with rfl | further
        · exact List.not_mem_nil
        · exact inductionHypothesis further
      · obtain ⟨first, more, isRest, isParts⟩ := parts_cons isSlash rest
        rw [isParts] at member
        rw [isRest] at inductionHypothesis
        rcases List.mem_cons.mp member with rfl | further
        · rw [List.mem_cons, not_or]
          exact ⟨Ne.symm isSlash, inductionHypothesis List.mem_cons_self⟩
        · exact inductionHypothesis (List.mem_cons_of_mem _ further)

/-- A text without slashes goes to the front of the first part. -/
theorem parts_append {front : List Char} (noSlash : '/' ∉ front) {text part : List Char}
    {more : List (List Char)} (isParts : parts text = part :: more) :
    parts (front ++ text) = (front ++ part) :: more := by
  induction front with
  | nil => exact isParts
  | cons character rest inductionHypothesis =>
      rw [List.mem_cons, not_or] at noSlash
      obtain ⟨differs, further⟩ := noSlash
      obtain ⟨first, others, isRest, isWhole⟩ := parts_cons (Ne.symm differs) (rest ++ text)
      rw [inductionHypothesis further] at isRest
      cases isRest
      exact isWhole

theorem parts_of_noSlash {text : List Char} (noSlash : '/' ∉ text) : parts text = [text] := by
  have isEmpty : parts [] = [[]] := rfl
  have isParts := parts_append noSlash isEmpty
  rw [List.append_nil] at isParts
  exact isParts

/-- Parts that are joined with slashes are read back. -/
theorem parts_intercalate {list : List (List Char)} (inhabited : list ≠ [])
    (noSlash : ∀ part ∈ list, '/' ∉ part) : parts (['/'].intercalate list) = list := by
  induction list with
  | nil => exact absurd rfl inhabited
  | cons part rest inductionHypothesis =>
      obtain ⟨first, further⟩ := List.forall_mem_cons.mp noSlash
      cases rest with
      | nil =>
          rw [List.intercalate_singleton]
          exact parts_of_noSlash first
      | cons second more =>
          rw [List.intercalate_cons_cons, List.append_assoc]
          have isRest := inductionHypothesis (List.cons_ne_nil _ _) further
          have isParts : parts (['/'] ++ ['/'].intercalate (second :: more)) =
              [] :: second :: more := by
            rw [List.singleton_append, parts, isRest]
          rw [parts_append first isParts, List.append_nil]

theorem parts_ofParts {list : List (List Char)} (inhabited : list ≠ [])
    (noSlash : ∀ part ∈ list, '/' ∉ part) : parts (ofParts list).toList = list := by
  rw [ofParts, String.toList_ofList, parts_intercalate inhabited noSlash]

theorem dropWhile_isIdle_of_isName {names : List (List Char)}
    (named : ∀ name ∈ names, IsName name) : names.dropWhile isIdle = names := by
  cases names with
  | nil => rfl
  | cons name rest =>
      obtain ⟨first, _⟩ := List.forall_mem_cons.mp named
      rw [List.dropWhile_cons_of_neg]
      simp [first.busy]

theorem parentsFrom_dropWhile (head : List Char) (reversed : List (List Char)) :
    parentsFrom head (reversed.dropWhile isIdle) = parentsFrom head reversed := by
  induction reversed with
  | nil => rfl
  | cons part before inductionHypothesis =>
      by_cases idle : isIdle part
      · rw [List.dropWhile_cons_of_pos idle, inductionHypothesis, parentsFrom, if_pos idle]
      · rw [List.dropWhile_cons_of_neg idle]

/-- Leaving out the idle parts at the end changes none of the paths that contain a path. -/
theorem parents_ofReversed {head : List Char} {reversed : List (List Char)}
    (noSlash : ∀ part ∈ head :: reversed, '/' ∉ part) :
    parents (ofReversed head reversed) = parentsFrom head reversed := by
  have within := (List.dropWhile_sublist (l := reversed) (fun part => isIdle part)).cons_cons head
  rw [ofReversed, ← parentsFrom_dropWhile]
  cases isBusy : reversed.dropWhile isIdle with
  | nil =>
      by_cases isRoot : head = []
      · rw [isRoot]
        decide
      · have single := parts_of_noSlash (noSlash head List.mem_cons_self)
        simp [parents, single, parentsFrom, isRoot]
  | cons part before =>
      rw [isBusy] at within
      rw [parents, parts_ofParts (List.cons_ne_nil _ _)]
      · simp
      · intro other member
        have rearranged := (List.reverse_perm (part :: before)).cons head
        exact noSlash other (within.mem (rearranged.mem_iff.mp member))

theorem parents_of_parentsFrom {head : List Char} {reversed : List (List Char)} {parent : String}
    {containing : List String} (noSlash : ∀ part ∈ head :: reversed, '/' ∉ part)
    (isParents : parentsFrom head reversed = parent :: containing) :
    parents parent = containing := by
  induction reversed with
  | nil =>
      rw [parentsFrom] at isParents
      split at isParents
      · cases isParents
      · cases isParents
        decide
  | cons part before inductionHypothesis =>
      have further : ∀ part ∈ head :: before, '/' ∉ part := by
        intro part member
        exact noSlash part (List.cons_subset_cons head (List.subset_cons_self _ before) member)
      rw [parentsFrom] at isParents
      split at isParents
      · exact inductionHypothesis further isParents
      · cases isParents
        exact parents_ofReversed further

/-- The paths that contain a path are the nearest one and those that contain that. -/
theorem cons_parents_of_parent {path parent : String} (isParent : parent? path = some parent) :
    parent :: parents parent = parents path := by
  obtain ⟨containing, isParents⟩ := List.head?_eq_some_iff.mp isParent
  obtain ⟨head, tail, isParts⟩ := List.exists_cons_of_ne_nil (parts_ne_nil path.toList)
  have noSlash : ∀ part ∈ head :: tail.reverse, '/' ∉ part := by
    intro part member
    have inPath : part ∈ parts path.toList := by
      rw [isParts]
      simpa using member
    exact noSlash_of_mem_parts inPath
  rw [isParents]
  rw [parents, isParts] at isParents
  rw [parents_of_parentsFrom noSlash isParents]

end Path

namespace Disk

open Phrasebook.Path

/-- The text of a place has the names of the place as its parts. -/
theorem parts_placeText {place : Place} (named : ∀ name ∈ place, IsName name) :
    parts (placeText place).toList = [] :: if place.isEmpty then [[]] else place := by
  rw [placeText]
  split
  · rfl
  · refine parts_ofParts (List.cons_ne_nil _ _) ?_
    rw [List.forall_mem_cons]
    exact ⟨List.not_mem_nil, fun name member => (named name member).noSlash⟩

/-- The directories that contain a place are those of the place before its last name. -/
theorem parents_placeText_append {place : Place} {name : List Char}
    (named : ∀ part ∈ place ++ [name], IsName part) :
    parents (placeText (place ++ [name])) = placeText place :: parents (placeText place) := by
  obtain ⟨before, last⟩ := List.forall_mem_append.mp named
  have isBusy : isIdle name = false := (List.forall_mem_singleton.mp last).busy
  have reversed : place.reverse.dropWhile isIdle = place.reverse :=
    dropWhile_isIdle_of_isName fun part member => before part (List.mem_reverse.mp member)
  have isText : ofReversed [] place.reverse = placeText place := by
    rw [ofReversed, reversed, placeText]
    cases place using List.reverseRecOn with
    | nil => rfl
    | append_singleton start further => simp
  have isParents : parents (placeText place) = parentsFrom [] place.reverse := by
    rw [parents, parts_placeText before]
    cases place with
    | nil => rfl
    | cons first further => rfl
  rw [parents, parts_placeText named]
  simp [parentsFrom, isBusy, isText, isParents]

theorem parents_placeText_nil : parents (placeText []) = [] := by
  decide

theorem toList_placeText {place : Place} (inhabited : place ≠ []) :
    (placeText place).toList = ['/'].intercalate ([] :: place) := by
  rw [placeText, if_neg (by simpa using inhabited), ofParts, String.toList_ofList]

theorem toList_placeText_append (place : Place) (name : List Char) :
    (placeText (place ++ [name])).toList = ['/'].intercalate ([] :: place) ++ '/' :: name := by
  have joined := Lists.intercalate_append_singleton ['/'] (List.cons_ne_nil [] place) name
  rw [toList_placeText (by simp), ← List.cons_append, joined, List.append_assoc]
  rfl

theorem isAbsolute_placeText (place : Place) : isAbsolute (placeText place) = true := by
  cases place with
  | nil => decide
  | cons first rest =>
      rw [isAbsolute, toList_placeText (List.cons_ne_nil _ _), List.intercalate_cons_cons]
      rfl

/-- Only the text of the root ends in a slash. -/
theorem getLast_placeText {place : Place} (inhabited : place ≠ [])
    (named : ∀ part ∈ place, IsName part) : (placeText place).toList.getLast? ≠ some '/' := by
  cases place using List.reverseRecOn with
  | nil => exact absurd rfl inhabited
  | append_singleton start last =>
      have isLast : IsName last := named last (by simp)
      rw [toList_placeText_append, List.getLast?_append_of_ne_nil _ (List.cons_ne_nil _ _)]
      intro isSlash
      have ofLast : last.getLast? = some '/' := by
        rw [← isSlash]
        obtain ⟨first, rest, rfl⟩ := List.exists_cons_of_ne_nil isLast.ne_nil
        rw [List.getLast?_cons_cons]
      exact isLast.noSlash (List.mem_of_getLast? ofLast)

/-- A name behind the text of a place gives the text of the place with that name. -/
theorem join_placeText {place : Place} (named : ∀ part ∈ place, IsName part) {name : String}
    (isName : IsName name.toList) :
    join (placeText place) name = placeText (place ++ [name.toList]) := by
  apply String.ext
  rw [join, if_neg (by simp [isName.relative]), toList_placeText_append]
  by_cases isRoot : place = []
  · have endsInSlash : ((placeText []).isEmpty ||
        (placeText []).toList.getLast? == some '/') = true := by
      decide
    rw [isRoot, if_pos endsInSlash, String.toList_append]
    rfl
  · have inhabited : (placeText place).isEmpty = false := by
      rw [← Bool.not_eq_true, String.isEmpty_iff, ← String.toList_eq_nil_iff,
        toList_placeText isRoot]
      cases place with
      | nil => exact absurd rfl isRoot
      | cons first rest => simp [List.intercalate_cons_cons]
    have noSlash := getLast_placeText isRoot named
    rw [if_neg (by simp [inhabited, noSlash]), String.toList_append, String.toList_append,
      toList_placeText isRoot, List.append_assoc]
    rfl

end Disk

end Phrasebook

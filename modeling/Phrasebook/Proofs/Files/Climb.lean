/-
This file climbs from a path to the root. Each directory has the parts of the one below it except
for the last, where idle parts do not count.
-/

import Phrasebook.Proofs.Files.Disk

namespace Phrasebook

namespace Path

/-- The parts of a path that lead somewhere else. -/
def busyParts (path : String) : List (List Char) :=
  (parts path.toList).filter (!isIdle ·)

/-- Paths that differ in idle parts only. -/
structure Same (first second : String) : Prop where
  absolute : isAbsolute first = isAbsolute second
  busyParts : busyParts first = busyParts second

/-- The outer path has all parts of the inner one but the last. -/
structure IsAbove (outer inner : String) : Prop where
  absolute : isAbsolute outer = isAbsolute inner
  busyParts : ∃ last, busyParts inner = busyParts outer ++ [last]

/-- The directories from a path up to the root, each of them above the one before it. -/
inductive Climbs : String → List String → Prop
  | root {path : String} (absolute : isAbsolute path) (noPart : busyParts path = []) :
      Climbs path [path]
  | up {path parent : String} {directories : List String} (isParent : parent? path = some parent)
      (isAbove : IsAbove parent path) (further : Climbs parent directories) :
      Climbs path (path :: directories)

theorem parts_append_slash (first second : List Char) :
    parts (first ++ '/' :: second) = parts first ++ parts second := by
  induction first with
  | nil => rfl
  | cons character rest inductionHypothesis =>
      by_cases isSlash : character = '/'
      · subst isSlash
        rw [List.cons_append, parts, parts, inductionHypothesis, List.cons_append]
      · obtain ⟨part, more, isRest, isParts⟩ := parts_cons isSlash rest
        obtain ⟨_, _, isLonger, isWhole⟩ := parts_cons isSlash (rest ++ '/' :: second)
        rw [inductionHypothesis, isRest, List.cons_append] at isLonger
        cases isLonger
        rw [List.cons_append, isWhole, isParts, List.cons_append]

/-- One slash stands between a base and a relative path, be it of the base or a new one. -/
theorem exists_toList_join {base path : String} (relative : isAbsolute path = false)
    (inhabited : base ≠ "") :
    ∃ front, (join base path).toList = front ++ '/' :: path.toList ∧
      (base.toList = front ∨ base.toList = front ++ ['/']) := by
  have notEmpty : base.isEmpty = false := by
    simpa using inhabited
  rw [join, if_neg (by simp [relative]), notEmpty, Bool.false_or]
  split
  · rename_i endsInSlash
    obtain ⟨front, isBase⟩ := List.getLast?_eq_some_iff.mp (beq_iff_eq.mp endsInSlash)
    refine ⟨front, ?_, .inr isBase⟩
    rw [String.toList_append, isBase, List.append_assoc, List.singleton_append]
  · refine ⟨base.toList, ?_, .inl rfl⟩
    rw [String.toList_append, String.toList_append, List.append_assoc]
    rfl

theorem join_empty {path : String} (relative : isAbsolute path = false) : join "" path = path := by
  rw [join, if_neg (by simp [relative])]
  exact String.empty_append

/-- A relative path behind a base adds its parts. -/
theorem busyParts_join {path : String} (relative : isAbsolute path = false) (base : String) :
    busyParts (join base path) = busyParts base ++ busyParts path := by
  by_cases isEmpty : base = ""
  · rw [isEmpty, join_empty relative]
    rfl
  · obtain ⟨front, isJoined, isBase⟩ := exists_toList_join relative isEmpty
    have sameParts : busyParts base = (parts front).filter (!isIdle ·) := by
      rw [busyParts]
      rcases isBase with isBase | isBase
      · rw [isBase]
      · rw [isBase, parts_append_slash, List.filter_append]
        exact List.append_nil _
    rw [busyParts, isJoined, parts_append_slash, List.filter_append, sameParts]
    rfl

theorem isAbsolute_join {path : String} (relative : isAbsolute path = false) (base : String) :
    isAbsolute (join base path) = isAbsolute base := by
  by_cases isEmpty : base = ""
  · rw [isEmpty, join_empty relative, relative]
    rfl
  · obtain ⟨front, isJoined, isBase⟩ := exists_toList_join relative isEmpty
    have inhabited : base.toList ≠ [] := by
      simpa using isEmpty
    rw [isAbsolute, isAbsolute, isJoined]
    rcases isBase with isBase | isBase
    · rw [isBase] at inhabited ⊢
      rw [List.head?_append_of_ne_nil _ inhabited]
    · rw [isBase, List.head?_append, List.head?_append]
      rfl

/-- Leaving out idle parts at the end leaves the busy ones. -/
theorem filter_dropWhile_isIdle (reversed : List (List Char)) :
    (reversed.dropWhile isIdle).filter (!isIdle ·) = reversed.filter (!isIdle ·) := by
  induction reversed with
  | nil => rfl
  | cons part before inductionHypothesis =>
      by_cases idle : isIdle part
      · rw [List.dropWhile_cons_of_pos idle, inductionHypothesis, List.filter_cons_of_neg]
        simp [idle]
      · rw [List.dropWhile_cons_of_neg idle]

theorem isAbsolute_ofReversed (reversed : List (List Char)) :
    isAbsolute (ofReversed [] reversed) := by
  have isPlace : ofReversed [] reversed = Disk.placeText (reversed.dropWhile isIdle).reverse := by
    rw [ofReversed, Disk.placeText]
    cases reversed.dropWhile isIdle with
    | nil => rfl
    | cons last before => simp
  rw [isPlace]
  exact Disk.isAbsolute_placeText _

theorem busyParts_ofReversed {reversed : List (List Char)}
    (noSlash : ∀ part ∈ reversed, '/' ∉ part) :
    busyParts (ofReversed [] reversed) = (reversed.filter (!isIdle ·)).reverse := by
  rw [← filter_dropWhile_isIdle, ofReversed]
  have within := List.dropWhile_sublist (p := isIdle) (l := reversed)
  cases isBusy : reversed.dropWhile isIdle with
  | nil => decide
  | cons last before =>
      rw [isBusy] at within
      have noSlashes : ∀ part ∈ [] :: (last :: before).reverse, '/' ∉ part := by
        rw [List.forall_mem_cons]
        exact ⟨List.not_mem_nil, fun part member =>
          noSlash part (within.mem (List.mem_reverse.mp member))⟩
      rw [busyParts, parts_ofParts (List.cons_ne_nil _ _) noSlashes, ← List.filter_reverse]
      rfl

/-- Where parts lead somewhere, the nearest directory has all of them but the last. -/
theorem parentsFrom_nil_cases {reversed : List (List Char)}
    (noSlash : ∀ part ∈ reversed, '/' ∉ part) :
    (parentsFrom [] reversed = [] ∧ reversed.filter (!isIdle ·) = []) ∨
      ∃ parent containing last, parentsFrom [] reversed = parent :: containing ∧
        isAbsolute parent ∧ (reversed.filter (!isIdle ·)).reverse = busyParts parent ++ [last] := by
  induction reversed with
  | nil => exact .inl ⟨rfl, rfl⟩
  | cons part before inductionHypothesis =>
      obtain ⟨_, further⟩ := List.forall_mem_cons.mp noSlash
      rw [parentsFrom]
      by_cases idle : isIdle part
      · rw [if_pos idle, List.filter_cons_of_neg (by simp [idle])]
        exact inductionHypothesis further
      · rw [if_neg idle, List.filter_cons_of_pos (by simp [idle])]
        refine .inr ⟨_, _, part, rfl, isAbsolute_ofReversed before, ?_⟩
        rw [List.reverse_cons, busyParts_ofReversed further]

/-- An absolute path is the root, or it has a directory above it. -/
theorem root_or_isAbove {path : String} (absolute : isAbsolute path) :
    (parents path = [] ∧ busyParts path = []) ∨
      ∃ parent, parent? path = some parent ∧ IsAbove parent path := by
  obtain ⟨rest, isPath⟩ : ∃ rest, path.toList = '/' :: rest :=
    List.head?_eq_some_iff.mp (beq_iff_eq.mp absolute)
  have noSlash : ∀ part ∈ (parts rest).reverse, '/' ∉ part :=
    fun part member => noSlash_of_mem_parts (List.mem_reverse.mp member)
  have sameParts : busyParts path = ((parts rest).reverse.filter (!isIdle ·)).reverse := by
    rw [busyParts, isPath, parts, List.filter_reverse, List.reverse_reverse]
    rfl
  have isParents : parents path = parentsFrom [] (parts rest).reverse := by
    rw [parents, isPath, parts]
  rw [parent?, isParents, sameParts]
  rcases parentsFrom_nil_cases noSlash with ⟨isEmpty, noPart⟩ | found
  · exact .inl ⟨isEmpty, by rw [noPart]; rfl⟩
  · obtain ⟨parent, containing, last, isCons, isAbsolute, isParts⟩ := found
    refine .inr ⟨parent, by rw [isCons]; rfl, ?_, last, ?_⟩
    · rw [isAbsolute, absolute]
    · rw [sameParts, isParts]

/-- The climb from an absolute path ends at the root. -/
theorem climbs_parents {path : String} (absolute : isAbsolute path) :
    Climbs path (path :: parents path) := by
  induction isCount : (busyParts path).length using Nat.strongRecOn generalizing path with
  | ind count inductionHypothesis =>
      rcases root_or_isAbove absolute with ⟨noParent, noPart⟩ | ⟨parent, isParent, isAbove⟩
      · rw [noParent]
        exact .root absolute noPart
      · rw [← cons_parents_of_parent isParent]
        obtain ⟨last, isParts⟩ := isAbove.busyParts
        have shorter : (busyParts parent).length < count := by
          rw [← isCount, isParts, List.length_append, List.length_singleton]
          omega
        have further := inductionHypothesis _ shorter (isAbove.absolute.trans absolute) rfl
        exact .up isParent isAbove further

/-- No other climb starts there. -/
theorem Climbs.eq_parents {path : String} {directories : List String}
    (climbs : Climbs path directories) : directories = path :: parents path := by
  induction climbs with
  | root absolute noPart =>
      rcases root_or_isAbove absolute with ⟨noParent, _⟩ | ⟨parent, _, isAbove⟩
      · rw [noParent]
      · obtain ⟨last, isParts⟩ := isAbove.busyParts
        rw [noPart] at isParts
        simp at isParts
  | up isParent _ _ inductionHypothesis =>
      rw [inductionHypothesis, cons_parents_of_parent isParent]

theorem climbs_iff {path : String} (absolute : isAbsolute path) {directories : List String} :
    Climbs path directories ↔ directories = path :: parents path := by
  constructor
  · exact Climbs.eq_parents
  · rintro rfl
    exact climbs_parents absolute

theorem Climbs.isAbsolute_start {path : String} {directories : List String}
    (climbs : Climbs path directories) : isAbsolute path := by
  induction climbs with
  | root absolute _ => exact absolute
  | up _ isAbove _ inductionHypothesis => exact isAbove.absolute.symm.trans inductionHypothesis

theorem Climbs.absolute {path : String} {directories : List String}
    (climbs : Climbs path directories) : ∀ directory ∈ directories, isAbsolute directory := by
  induction climbs with
  | root absolute _ => exact List.forall_mem_singleton.mpr absolute
  | up isParent isAbove further inductionHypothesis =>
      exact List.forall_mem_cons.mpr
        ⟨(Climbs.up isParent isAbove further).isAbsolute_start, inductionHypothesis⟩

theorem busyParts_of_isName {name : String} (isName : IsName name.toList) :
    busyParts name = [name.toList] := by
  rw [busyParts, parts_of_noSlash isName.noSlash, List.filter_cons_of_pos (by simp [isName.busy])]
  rfl

/-- What has a name in an absolute directory lies directly in it. -/
theorem exists_parent_join {directory name : String} (absolute : isAbsolute directory)
    (isName : IsName name.toList) :
    ∃ parent, parent? (join directory name) = some parent ∧ Same parent directory := by
  have isParts : busyParts (join directory name) = busyParts directory ++ [name.toList] := by
    rw [busyParts_join isName.relative, busyParts_of_isName isName]
  have stillAbsolute := isAbsolute_join isName.relative directory
  rcases root_or_isAbove (stillAbsolute.trans absolute) with ⟨_, noPart⟩ | found
  · rw [isParts] at noPart
    simp at noPart
  · obtain ⟨parent, isParent, isAbove⟩ := found
    obtain ⟨last, isLonger⟩ := isAbove.busyParts
    rw [isParts] at isLonger
    exact ⟨parent, isParent, isAbove.absolute.trans stillAbsolute,
      (List.append_inj_left' isLonger rfl).symm⟩

/-- Relative paths lead to the same places from both. -/
theorem Same.join {first second : String} (same : Same first second) (path : String) :
    Same (join first path) (join second path) := by
  by_cases absolute : isAbsolute path
  · rw [Path.join, Path.join, if_pos absolute, if_pos absolute]
    exact ⟨rfl, rfl⟩
  · have relative := Bool.not_eq_true _ ▸ absolute
    refine ⟨?_, ?_⟩
    · rw [isAbsolute_join relative, isAbsolute_join relative, same.absolute]
    · rw [busyParts_join relative, busyParts_join relative, same.busyParts]

end Path

namespace Disk

open Phrasebook.Path

/-- Idle parts make no difference to where a path leads. -/
theorem foldl_enter_filter (place : Place) (parts : List (List Char)) :
    (parts.filter (!isIdle ·)).foldl enter place = parts.foldl enter place := by
  induction parts generalizing place with
  | nil => rfl
  | cons part rest inductionHypothesis =>
      by_cases idle : isIdle part
      · have stays : enter place part = place := by
          rw [enter, if_pos idle]
        rw [List.filter_cons_of_neg (by simp [idle]), List.foldl_cons, stays, inductionHypothesis]
      · rw [List.filter_cons_of_pos (by simp [idle]), List.foldl_cons, List.foldl_cons,
          inductionHypothesis]

theorem target_eq_of_same {first second : String} (same : Same first second) (disk : Disk) :
    disk.target first = disk.target second := by
  have sameOrigin : disk.origin first = disk.origin second := by
    rw [origin, origin, same.absolute]
  rw [target, target, ← foldl_enter_filter, ← foldl_enter_filter _ (parts second.toList),
    sameOrigin]
  exact congrArg (List.foldl enter _) same.busyParts

end Disk

end Phrasebook

/-
This file holds laws of lists: look-ups among pairs, lists read item by item, and lists without
repetitions.
-/

import Mathlib.Data.List.Forall2
import Mathlib.Data.List.Nodup

namespace Phrasebook.Lists

variable {A B C D : Type}

theorem isSome_lookup_iff [BEq A] [LawfulBEq A] (pairs : List (A × B)) (key : A) :
    (pairs.lookup key).isSome ↔ key ∈ pairs.map Prod.fst := by
  rw [List.lookup_isSome_iff, List.mem_map]
  constructor
  · intro found
    obtain ⟨pair, member, same⟩ := found
    exact ⟨pair, member, (eq_of_beq same).symm⟩
  · intro isKey
    obtain ⟨pair, member, same⟩ := isKey
    exact ⟨pair, member, beq_iff_eq.mpr same.symm⟩

theorem exists_lookup [BEq A] [LawfulBEq A] {pairs : List (A × B)} {key : A}
    (member : key ∈ pairs.map Prod.fst) : ∃ value, pairs.lookup key = some value :=
  Option.isSome_iff_exists.mp ((isSome_lookup_iff pairs key).mpr member)

/-- Where keys differ, a look-up finds every pair. -/
theorem lookup_of_nodup [BEq A] [LawfulBEq A] {pairs : List (A × B)} {key : A} {value : B}
    (distinct : (pairs.map Prod.fst).Nodup) (member : (key, value) ∈ pairs) :
    pairs.lookup key = some value := by
  obtain ⟨found, isFound⟩ := exists_lookup (List.mem_map.mpr ⟨_, member, rfl⟩)
  obtain ⟨before, after, split, _⟩ := List.lookup_eq_some_iff.mp isFound
  have isPair : (key, found) ∈ pairs := by
    rw [split]
    exact List.mem_append_right before List.mem_cons_self
  have same := List.inj_on_of_nodup_map distinct isPair member rfl
  cases same
  exact isFound

/-- Where keys differ, a key has one pair. -/
theorem filter_of_nodup [BEq A] [LawfulBEq A] {pairs : List (A × B)} {key : A} {value : B}
    (distinct : (pairs.map Prod.fst).Nodup) (member : (key, value) ∈ pairs) :
    pairs.filter (·.1 == key) = [(key, value)] := by
  induction pairs with
  | nil => exact absurd member List.not_mem_nil
  | cons pair rest inductionHypothesis =>
      obtain ⟨fresh, further⟩ := List.nodup_cons.mp distinct
      obtain same | later := List.mem_cons.mp member
      · subst same
        have none : rest.filter (·.1 == key) = [] := by
          rw [List.filter_eq_nil_iff]
          intro other isOther same
          rw [← eq_of_beq same] at fresh
          exact fresh (List.mem_map.mpr ⟨other, isOther, rfl⟩)
        rw [List.filter_cons, if_pos (beq_self_eq_true key), none]
      · have differs : ¬(pair.1 == key) = true := by
          intro same
          rw [eq_of_beq same] at fresh
          exact fresh (List.mem_map.mpr ⟨_, later, rfl⟩)
        rw [List.filter_cons, if_neg differs]
        exact inductionHypothesis further later

theorem lookup_map_value [BEq A] (change : B → C) (pairs : List (A × B)) (key : A) :
    (pairs.map fun (found, value) => (found, change value)).lookup key =
      (pairs.lookup key).map change := by
  induction pairs with
  | nil => rfl
  | cons pair rest inductionHypothesis =>
      rw [List.map_cons, List.lookup_cons, List.lookup_cons, inductionHypothesis]
      cases key == pair.1 <;> rfl

/-- Keys with a value each are a function on these keys. -/
theorem lookup_map_graph [BEq A] [LawfulBEq A] (value : A → B) {keys : List A} {key : A}
    (member : key ∈ keys) :
    (keys.map fun found => (found, value found)).lookup key = some (value key) := by
  induction keys with
  | nil => exact absurd member List.not_mem_nil
  | cons first rest inductionHypothesis =>
      rw [List.map_cons, List.lookup_cons]
      cases differs : key == first with
      | true => rw [eq_of_beq differs]
      | false =>
          have further := List.mem_of_ne_of_mem (beq_eq_false_iff_ne.mp differs) member
          exact inductionHypothesis further

/-- Items that agree pair by pair leave lists that agree. -/
theorem filterMap_of_forall₂ {relation : A → B → Prop} {left : A → Option C}
    {right : B → Option D} {change : C → D} {items : List A} {results : List B}
    (related : List.Forall₂ relation items results)
    (agree : ∀ item result, relation item result → right result = (left item).map change) :
    results.filterMap right = (items.filterMap left).map change := by
  induction related with
  | nil => rfl
  | @cons item result items results first rest inductionHypothesis =>
      rw [List.filterMap_cons, List.filterMap_cons, agree _ _ first, inductionHypothesis]
      cases left item <;> rfl

theorem flatMap_of_forall₂ {relation : A → B → Prop} {left : A → List C}
    {right : B → List C}
    {items : List A} {results : List B} (related : List.Forall₂ relation items results)
    (agree : ∀ item result, relation item result → right result = left item) :
    results.flatMap right = items.flatMap left := by
  induction related with
  | nil => rfl
  | cons first rest inductionHypothesis =>
      rw [List.flatMap_cons, List.flatMap_cons, agree _ _ first, inductionHypothesis]

/-- Relations pair by pair compose. -/
theorem forall₂_trans {first : A → B → Prop} {second : B → C → Prop} {third : A → C → Prop}
    (compose : ∀ item middle result, first item middle → second middle result →
      third item result)
    {items : List A} {middles : List B} {results : List C}
    (left : List.Forall₂ first items middles) (right : List.Forall₂ second middles results) :
    List.Forall₂ third items results := by
  induction left generalizing results with
  | nil =>
      cases right
      exact .nil
  | cons holds _ inductionHypothesis =>
      cases right with
      | cons further rest => exact .cons (compose _ _ _ holds further) (inductionHypothesis rest)

/-- A relation through a middle item holds between lists with a list of middle items. -/
theorem forall₂_exists_iff {first : A → B → Prop} {second : B → C → Prop} {items : List A}
    {results : List C} :
    List.Forall₂ (fun item result => ∃ middle, first item middle ∧ second middle result) items
        results ↔
      ∃ middles, List.Forall₂ first items middles ∧ List.Forall₂ second middles results := by
  constructor
  · intro related
    induction related with
    | nil => exact ⟨[], .nil, .nil⟩
    | cons holds _ inductionHypothesis =>
        obtain ⟨middle, isFirst, isSecond⟩ := holds
        obtain ⟨middles, areFirst, areSecond⟩ := inductionHypothesis
        exact ⟨middle :: middles, .cons isFirst areFirst, .cons isSecond areSecond⟩
  · intro both
    obtain ⟨middles, areFirst, areSecond⟩ := both
    exact forall₂_trans (fun _ middle _ isFirst isSecond => ⟨middle, isFirst, isSecond⟩) areFirst
      areSecond

theorem forall₂_imp_of_mem {first second : A → B → Prop} {items : List A} {results : List B}
    (related : List.Forall₂ first items results)
    (weaken : ∀ item ∈ items, ∀ result, first item result → second item result) :
    List.Forall₂ second items results := by
  have each := (List.forall₂_and_left (p := (· ∈ items)) items results).mpr
    ⟨fun _ member => member, related⟩
  apply each.imp
  intro item result both
  exact weaken item both.1 result both.2

theorem exists_of_mem_right {relation : A → B → Prop} {items : List A} {results : List B}
    (related : List.Forall₂ relation items results) {result : B} (member : result ∈ results) :
    ∃ item ∈ items, relation item result := by
  induction related with
  | nil => exact absurd member List.not_mem_nil
  | cons holds _ inductionHypothesis =>
      obtain same | further := List.mem_cons.mp member
      · subst same
        exact ⟨_, List.mem_cons_self, holds⟩
      · obtain ⟨item, isItem, relates⟩ := inductionHypothesis further
        exact ⟨item, List.mem_cons_of_mem _ isItem, relates⟩

theorem exists_of_mem_left {relation : A → B → Prop} {items : List A} {results : List B}
    (related : List.Forall₂ relation items results) {item : A} (member : item ∈ items) :
    ∃ result ∈ results, relation item result :=
  exists_of_mem_right related.flip member

/-- Items with a result each have a list of results. -/
theorem exists_forall₂ {relation : A → B → Prop} {items : List A}
    (each : ∀ item ∈ items, ∃ result, relation item result) :
    ∃ results, List.Forall₂ relation items results := by
  induction items with
  | nil => exact ⟨[], .nil⟩
  | cons item rest inductionHypothesis =>
      obtain ⟨⟨result, holds⟩, further⟩ := List.forall_mem_cons.mp each
      obtain ⟨results, related⟩ := inductionHypothesis further
      exact ⟨result :: results, .cons holds related⟩

/-- The result of a last item is the last result. -/
theorem exists_of_forall₂_append_singleton {relation : A → B → Prop} {items : List A} {item : A}
    {results : List B} (related : List.Forall₂ relation (items ++ [item]) results) :
    ∃ earlier last, results = earlier ++ [last] ∧ List.Forall₂ relation items earlier ∧
      relation item last := by
  induction items generalizing results with
  | nil =>
      obtain ⟨last, none, holds, rest, rfl⟩ := List.forall₂_cons_left_iff.mp related
      obtain rfl := List.forall₂_nil_left_iff.mp rest
      exact ⟨[], last, rfl, .nil, holds⟩
  | cons first further inductionHypothesis =>
      obtain ⟨result, others, holds, rest, rfl⟩ := List.forall₂_cons_left_iff.mp related
      obtain ⟨earlier, last, rfl, areEarlier, isLast⟩ := inductionHypothesis rest
      exact ⟨result :: earlier, last, rfl, .cons holds areEarlier, isLast⟩

/-- What holds between the items of a list holds between results that keep it. -/
theorem pairwise_of_forall₂ {relation : A → B → Prop} {before : A → A → Prop}
    {after : B → B → Prop} {items : List A} {results : List B}
    (related : List.Forall₂ relation items results)
    (keeps : ∀ {first second result other}, relation first result → relation second other →
      before first second → after result other)
    (pairwise : items.Pairwise before) : results.Pairwise after := by
  induction related with
  | nil => exact .nil
  | cons holds rest inductionHypothesis =>
      obtain ⟨first, further⟩ := List.pairwise_cons.mp pairwise
      refine List.pairwise_cons.mpr ⟨?_, inductionHypothesis further⟩
      intro result member
      obtain ⟨item, isItem, relates⟩ := exists_of_mem_right rest member
      exact keeps holds relates (first item isItem)

/-- The only item of a kind is the one that a search finds. -/
theorem find?_of_pairwise {found : A → Bool} {items : List A} {item : A}
    (alone : items.Pairwise fun first second => ¬(found first ∧ found second))
    (member : item ∈ items) (isFound : found item) : items.find? found = some item := by
  induction items with
  | nil => exact absurd member List.not_mem_nil
  | cons first rest inductionHypothesis =>
      obtain ⟨apart, further⟩ := List.pairwise_cons.mp alone
      obtain same | later := List.mem_cons.mp member
      · subst same
        exact List.find?_cons_of_pos isFound
      · have passed : ¬found first := fun holds => apart item later ⟨holds, isFound⟩
        rw [List.find?_cons_of_neg passed]
        exact inductionHypothesis further later

/-- The first item of a kind is of the kind, and no item before its first place is. -/
theorem find?_eq_some_iff_takeWhile [BEq A] [LawfulBEq A] {found : A → Bool} {items : List A}
    {item : A} :
    items.find? found = some item ↔
      item ∈ items ∧ found item ∧ ∀ earlier ∈ items.takeWhile (· != item), ¬found earlier := by
  induction items with
  | nil => simp
  | cons first rest inductionHypothesis =>
      rw [List.find?_cons, List.takeWhile_cons]
      by_cases same : first = item
      · subst same
        cases isFound : found first with
        | true => simp
        | false =>
            refine iff_of_false ?_ (by simp)
            intro later
            simpa [isFound] using List.find?_some later
      · rw [if_pos (bne_iff_ne.mpr same), List.forall_mem_cons, List.mem_cons,
          or_iff_right (Ne.symm same)]
        cases isFound : found first with
        | true => simpa using same
        | false => simpa using inductionHypothesis

/-- Where at most one item is of a kind, a search finds the same in every order. -/
theorem find?_perm {found : A → Bool} {first second : List A} (rearranged : first.Perm second)
    (alone : ∀ item ∈ second, ∀ other ∈ second, found item → found other → item = other) :
    first.find? found = second.find? found := by
  cases isFirst : first.find? found with
  | none =>
      symm
      rw [List.find?_eq_none] at isFirst ⊢
      exact fun item member => isFirst item (rearranged.mem_iff.mpr member)
  | some item =>
      have member := rearranged.mem_iff.mp (List.mem_of_find?_eq_some isFirst)
      have isFound := List.find?_some isFirst
      obtain ⟨other, isOther⟩ := Option.isSome_iff_exists.mp
        (List.find?_isSome.mpr ⟨item, member, isFound⟩)
      rw [isOther, alone item member other (List.mem_of_find?_eq_some isOther) isFound
        (List.find?_some isOther)]

/-- The wanted items of a list, each once, in the order in which they first occur there. -/
structure FirstOccurrences [BEq A] (wanted : A → Prop) (items once : List A) : Prop where
  mem_iff : ∀ item, item ∈ once ↔ item ∈ items ∧ wanted item
  ordered : once.Pairwise fun first second => items.idxOf first < items.idxOf second

theorem pairwise_eraseDups_filter [BEq A] [LawfulBEq A] (kept : A → Bool) (items : List A) :
    (items.filter kept).eraseDups.Pairwise
      fun first second => items.idxOf first < items.idxOf second := by
  induction items generalizing kept with
  | nil => simp
  | cons item rest inductionHypothesis =>
      -- behind the first item only others are left, whose places are one further
      have further (kept : A → Bool) (others : ∀ other, kept other → item ≠ other) :
          (rest.filter kept).eraseDups.Pairwise fun first second =>
            (item :: rest).idxOf first < (item :: rest).idxOf second := by
        refine (inductionHypothesis kept).imp_of_mem ?_
        intro first second isFirst isSecond before
        simp only [List.mem_eraseDups, List.mem_filter] at isFirst isSecond
        rw [List.idxOf_cons_ne _ (others first isFirst.2),
          List.idxOf_cons_ne _ (others second isSecond.2)]
        omega
      by_cases isKept : kept item
      · rw [List.filter_cons_of_pos isKept, List.eraseDups_cons, List.filter_filter,
          List.pairwise_cons]
        refine ⟨?_, further _ ?_⟩
        · intro other member
          simp only [List.mem_eraseDups, List.mem_filter] at member
          have differs : item ≠ other := by grind
          rw [List.idxOf_cons_self, List.idxOf_cons_ne _ differs]
          omega
        · intro other both
          grind
      · rw [List.filter_cons_of_neg isKept]
        refine further kept ?_
        rintro other isOther rfl
        exact isKept isOther

theorem nodup_eraseDups [BEq A] [LawfulBEq A] (items : List A) : items.eraseDups.Nodup := by
  have ordered := pairwise_eraseDups_filter (fun _ => true) items
  rw [List.filter_true] at ordered
  refine ordered.imp ?_
  rintro first second before rfl
  exact Nat.lt_irrefl _ before

theorem pairwise_idxOf_of_nodup [BEq A] [LawfulBEq A] {items : List A} (distinct : items.Nodup) :
    items.Pairwise fun first second => items.idxOf first < items.idxOf second := by
  rw [List.pairwise_iff_getElem]
  intro first second inFirst inSecond less
  rwa [distinct.idxOf_getElem, distinct.idxOf_getElem]

/-- Dropping the pairs of a key leaves the look-ups of other keys as they are. -/
theorem lookup_filter_of_ne [BEq A] [LawfulBEq A] {key found : A} (differs : found ≠ key)
    (pairs : List (A × B)) :
    (pairs.filter fun (other, _) => other != key).lookup found = pairs.lookup found := by
  induction pairs with
  | nil => rfl
  | cons pair rest inductionHypothesis =>
      obtain ⟨other, value⟩ := pair
      rw [List.lookup_cons]
      by_cases isKey : other = key
      · subst isKey
        rw [List.filter_cons_of_neg (by simp), inductionHypothesis, beq_false_of_ne differs]
      · rw [List.filter_cons_of_pos (by simpa using isKey), List.lookup_cons, inductionHypothesis]

theorem append_drop_takeWhile (keep : A → Bool) (items : List A) :
    items.takeWhile keep ++ items.drop (items.takeWhile keep).length = items := by
  have whole : items.takeWhile keep ++ items.dropWhile keep = items :=
    List.takeWhile_append_dropWhile
  have rest : (items.takeWhile keep ++ items.dropWhile keep).drop (items.takeWhile keep).length =
      items.dropWhile keep := List.drop_left
  rw [whole] at rest
  rw [rest, whole]

theorem takeWhile_append_of_ends {keep : A → Bool} {front rest : List A} (all : front.all keep)
    (ends : ∀ item ∈ rest.head?, keep item = false) : (front ++ rest).takeWhile keep = front := by
  rw [List.takeWhile_append_of_pos (List.all_eq_true.mp all)]
  cases rest with
  | nil => rw [List.takeWhile_nil, List.append_nil]
  | cons first others =>
      have stops : ¬keep first = true := by simp [ends first rfl]
      rw [List.takeWhile_cons_of_neg stops, List.append_nil]

/-- Behind the first list every list has the separator before it. -/
theorem intercalate_cons (separator first : List A) (rest : List (List A)) :
    separator.intercalate (first :: rest) = first ++ rest.flatMap (separator ++ ·) := by
  induction rest generalizing first with
  | nil => simp
  | cons second more inductionHypothesis =>
      rw [List.intercalate_cons_cons, inductionHypothesis, List.flatMap_cons, List.append_assoc,
        List.append_assoc]

theorem intercalate_append_singleton (separator : List A) {lists : List (List A)}
    (inhabited : lists ≠ []) (last : List A) :
    separator.intercalate (lists ++ [last]) = separator.intercalate lists ++ separator ++ last := by
  induction lists with
  | nil => exact absurd rfl inhabited
  | cons first rest inductionHypothesis =>
      cases rest with
      | nil => simp [List.intercalate_cons_cons]
      | cons second more =>
          have further := inductionHypothesis (List.cons_ne_nil _ _)
          rw [List.cons_append] at further
          rw [List.cons_append, List.cons_append, List.intercalate_cons_cons, further,
            List.intercalate_cons_cons]
          simp

theorem mem_intersperse {separator item : A} {items : List A}
    (member : item ∈ items.intersperse separator) : item = separator ∨ item ∈ items := by
  induction items with
  | nil => exact absurd member List.not_mem_nil
  | cons first rest inductionHypothesis =>
      cases rest with
      | nil => exact .inr member
      | cons second others =>
          rw [List.intersperse_cons_cons, List.mem_cons, List.mem_cons] at member
          obtain isFirst | isSeparator | further := member
          · rw [isFirst]
            exact .inr List.mem_cons_self
          · exact .inl isSeparator
          · exact (inductionHypothesis further).imp_right (List.mem_cons_of_mem first)

end Phrasebook.Lists

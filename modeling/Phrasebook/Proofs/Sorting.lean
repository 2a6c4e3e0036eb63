/-
This file holds laws of sorting by a comparison. Items that the comparison does not tell apart keep
their order.
-/

import Mathlib.Data.List.Basic

namespace Phrasebook.Sorting

variable {A : Type}

/-- The items in the order of a comparison. -/
def sort (order : A → A → Ordering) (items : List A) : List A :=
  items.mergeSort fun first second => (order first second).isLE

/-- The comparison does not tell the items apart. -/
def tied (order : A → A → Ordering) (item other : A) : Bool :=
  order item other == .eq

theorem tied_iff {order : A → A → Ordering} {item other : A} :
    tied order item other ↔ order item other = .eq :=
  beq_iff_eq

variable {order : A → A → Ordering}

theorem sort_perm (items : List A) : (sort order items).Perm items :=
  List.mergeSort_perm items _

variable [Std.TransCmp order]

theorem tied_self (item : A) : tied order item item :=
  tied_iff.mpr Std.ReflCmp.compare_self

theorem isLE_trans (first second third : A) (left : (order first second).isLE)
    (right : (order second third).isLE) : (order first third).isLE :=
  Std.TransCmp.isLE_trans left right

theorem isLE_total (first second : A) :
    ((order first second).isLE || (order second first).isLE) = true := by
  have swapped : order second first = (order first second).swap := Std.OrientedCmp.eq_swap
  rw [swapped]
  cases order first second <;> rfl

theorem pairwise_sort (items : List A) :
    (sort order items).Pairwise fun first second => (order first second).isLE :=
  List.pairwise_mergeSort isLE_trans isLE_total items

/-- Sorting keeps the order of items that are not told apart. -/
theorem filter_sort (item : A) (items : List A) :
    (sort order items).filter (tied order item) = items.filter (tied order item) := by
  have ordered : (items.filter (tied order item)).Pairwise fun first second =>
      (order first second).isLE := by
    apply List.pairwise_of_forall_mem_list
    intro first isFirst second isSecond
    have sameFirst := tied_iff.mp (List.mem_filter.mp isFirst).2
    have sameSecond := tied_iff.mp (List.mem_filter.mp isSecond).2
    rw [Std.TransCmp.congr_left (Std.OrientedCmp.eq_symm sameFirst), sameSecond]
    rfl
  have kept : (items.filter (tied order item)).Sublist (sort order items) :=
    List.sublist_mergeSort isLE_trans isLE_total ordered List.filter_sublist
  have within := kept.filter (tied order item)
  rw [List.filter_filter] at within
  simp only [Bool.and_self] at within
  exact (within.eq_of_length ((sort_perm items).filter _).length_eq.symm).symm

/-- A relation between the items that are not told apart still holds after sorting. -/
theorem pairwise_sort_of_tied {before : A → A → Prop} {items : List A}
    (related : items.Pairwise fun first second => order first second = .eq → before first second) :
    (sort order items).Pairwise fun first second =>
      order first second = .lt ∨ order first second = .eq ∧ before first second := by
  rw [List.pairwise_iff_forall_sublist]
  intro first second both
  have isLE := List.pairwise_iff_forall_sublist.mp (pairwise_sort items) both
  rcases Ordering.isLE_iff_eq_lt_or_eq_eq.mp isLE with less | same
  · exact .inl less
  · have kept := both.filter (tied order first)
    rw [List.filter_cons_of_pos (tied_self first), List.filter_cons_of_pos (tied_iff.mpr same),
      List.filter_nil, filter_sort] at kept
    have original := kept.trans List.filter_sublist
    exact .inr ⟨same, List.pairwise_iff_forall_sublist.mp related original same⟩

theorem mem_iff_of_filter_tied {first second : List A}
    (same : ∀ item, first.filter (tied order item) = second.filter (tied order item)) (item : A) :
    item ∈ first ↔ item ∈ second := by
  have kept (items : List A) : item ∈ items ↔ item ∈ items.filter (tied order item) := by
    rw [List.mem_filter, tied_self, and_iff_left rfl]
  rw [kept first, same item, ← kept second]

/-- A list in order is given by the items that are not told apart from each item. -/
theorem eq_of_pairwise {first second : List A}
    (isFirst : first.Pairwise fun item other => (order item other).isLE)
    (isSecond : second.Pairwise fun item other => (order item other).isLE)
    (same : ∀ item, first.filter (tied order item) = second.filter (tied order item)) :
    first = second := by
  have mem_iff := mem_iff_of_filter_tied same
  induction first generalizing second with
  | nil => simpa [eq_comm, List.eq_nil_iff_forall_not_mem] using mem_iff
  | cons head rest inductionHypothesis =>
      obtain ⟨headFirst, restOrdered⟩ := List.pairwise_cons.mp isFirst
      cases second with
      | nil => exact absurd ((mem_iff head).mp List.mem_cons_self) List.not_mem_nil
      | cons other further =>
          obtain ⟨otherFirst, furtherOrdered⟩ := List.pairwise_cons.mp isSecond
          -- each head comes before the other one, so they are not told apart
          have headLE : (order head other).isLE := by
            rcases List.mem_cons.mp ((mem_iff other).mpr List.mem_cons_self) with rfl | later
            · exact Std.ReflCmp.isLE_rfl
            · exact headFirst other later
          have otherLE : (order other head).isLE := by
            rcases List.mem_cons.mp ((mem_iff head).mp List.mem_cons_self) with rfl | later
            · exact Std.ReflCmp.isLE_rfl
            · exact otherFirst head later
          have isTied := tied_iff.mpr (Std.OrientedCmp.isLE_antisymm headLE otherLE)
          have heads := same head
          rw [List.filter_cons_of_pos (tied_self head), List.filter_cons_of_pos isTied] at heads
          obtain ⟨rfl, _⟩ := List.cons.inj heads
          have sameRest (item : A) :
              rest.filter (tied order item) = further.filter (tied order item) := by
            have whole := same item
            rw [List.filter_cons, List.filter_cons] at whole
            split at whole
            · exact (List.cons.inj whole).2
            · exact whole
          rw [inductionHypothesis restOrdered furtherOrdered sameRest
            (mem_iff_of_filter_tied sameRest)]

/-- Items that come before others come before them in the sorted list. -/
theorem sort_append {first second : List A}
    (before : ∀ item ∈ second, ∀ other ∈ first, order item other = .lt) :
    sort order (first ++ second) = sort order second ++ sort order first := by
  refine eq_of_pairwise (pairwise_sort (first ++ second)) ?_ ?_
  · rw [List.pairwise_append]
    refine ⟨pairwise_sort second, pairwise_sort first, ?_⟩
    intro item isSecond other isFirst
    rw [before item ((sort_perm second).mem_iff.mp isSecond) other
      ((sort_perm first).mem_iff.mp isFirst)]
    rfl
  · intro item
    rw [List.filter_append, filter_sort, filter_sort, filter_sort, List.filter_append]
    -- an item of the first list is told apart from every item of the second
    by_cases isSecond : ∃ other ∈ second, order item other = .eq
    · obtain ⟨other, member, same⟩ := isSecond
      have none : first.filter (tied order item) = [] := by
        rw [List.filter_eq_nil_iff]
        intro earlier isFirst isTied
        have less := before other member earlier isFirst
        rw [← Std.TransCmp.congr_left same, tied_iff.mp isTied] at less
        cases less
      rw [none, List.append_nil, List.nil_append]
    · have none : second.filter (tied order item) = [] := by
        rw [List.filter_eq_nil_iff]
        intro other member isTied
        exact isSecond ⟨other, member, tied_iff.mp isTied⟩
      rw [none, List.append_nil, List.nil_append]

end Phrasebook.Sorting

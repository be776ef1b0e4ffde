/-
Rows in the order of a key.

Sorting is stable, so rows with equal keys keep their order; the results below
do not depend on it.  The first rows in ascending order, as many as have a key
below a bound, are exactly the rows below the bound.
-/

import Mathlib.Data.List.Sort
import PyrateLimiter.Foundations.Bisect

namespace Foundations.OrderBy

open Foundations.Bisect

variable {α β : Type*} [LinearOrder β]

def orderBy (key : α → β) (rows : List α) : List α :=
  rows.insertionSort (fun left right => key left ≤ key right)

def orderByDesc (key : α → β) (rows : List α) : List α :=
  rows.insertionSort (fun left right => key right ≤ key left)

theorem orderBy_perm (key : α → β) (rows : List α) : (orderBy key rows).Perm rows :=
  List.perm_insertionSort _ rows

theorem orderBy_sorted (key : α → β) (rows : List α) : SortedBy key (orderBy key rows) := by
  have _total : Std.Total (fun left right : α => key left ≤ key right) :=
    ⟨fun left right => le_total (key left) (key right)⟩
  have _transitive : IsTrans α (fun left right : α => key left ≤ key right) :=
    ⟨fun _ _ _ first second => le_trans first second⟩
  exact List.pairwise_insertionSort _ rows

/-- Distinct keys leave one order only, so the order the rows came in is lost. -/
theorem orderBy_eq_of_perm {key : α → β} {first second : List α} (same : first.Perm second)
    (distinct : (first.map key).Nodup) : orderBy key first = orderBy key second := by
  have firstRows := orderBy_perm key first
  have secondRows := (orderBy_perm key second).trans same.symm
  refine List.Perm.eq_of_pairwise ?_ (orderBy_sorted key first) (orderBy_sorted key second)
    (firstRows.trans secondRows.symm)
  intro left right leftMember rightMember forward backward
  exact List.inj_on_of_nodup_map distinct (firstRows.mem_iff.mp leftMember)
    (secondRows.mem_iff.mp rightMember) (le_antisymm forward backward)

/-- In a sorted list the keys below a bound come first. -/
theorem take_countP_below {key : α → β} {rows : List α} (bound : β)
    (sorted : SortedBy key rows) :
    rows.take (rows.countP (fun row => key row < bound)) =
      rows.filter (fun row => key row < bound) := by
  induction rows with
  | nil => rfl
  | cons row rest ih =>
      obtain ⟨first, restSorted⟩ := List.pairwise_cons.mp sorted
      by_cases below : key row < bound
      · rw [List.countP_cons_of_pos (by simpa using below),
          List.filter_cons_of_pos (by simpa using below), List.take_succ_cons, ih restSorted]
      · have noLater : ∀ later, later ∈ row :: rest → ¬key later < bound := by
          intro later member
          rcases List.mem_cons.mp member with same | remaining
          · rw [same]
            exact below
          · exact not_lt.mpr (le_trans (not_lt.mp below) (first later remaining))
        have counted : (row :: rest).countP (fun row => key row < bound) = 0 := by
          rw [List.countP_eq_zero]
          intro later member
          simpa using noLater later member
        have filtered : (row :: rest).filter (fun row => key row < bound) = [] := by
          rw [List.filter_eq_nil_iff]
          intro later member
          simpa using noLater later member
        rw [counted, filtered, List.take_zero]

theorem take_orderBy_perm (key : α → β) (rows : List α) (bound : β) :
    ((orderBy key rows).take (rows.countP (fun row => key row < bound))).Perm
      (rows.filter (fun row => key row < bound)) := by
  have ordered := orderBy_perm key rows
  rw [← ordered.countP_eq, take_countP_below bound (orderBy_sorted key rows)]
  exact ordered.filter _

theorem orderByDesc_perm (key : α → β) (rows : List α) : (orderByDesc key rows).Perm rows :=
  List.perm_insertionSort _ rows

theorem orderByDesc_sorted (key : α → β) (rows : List α) :
    (orderByDesc key rows).Pairwise (fun left right => key right ≤ key left) := by
  have _total : Std.Total (fun left right : α => key right ≤ key left) :=
    ⟨fun left right => le_total (key right) (key left)⟩
  have _transitive : IsTrans α (fun left right : α => key right ≤ key left) :=
    ⟨fun _ _ _ first second => le_trans second first⟩
  exact List.pairwise_insertionSort _ rows

/-- The first row in descending order has the largest key. -/
theorem head_orderByDesc {key : α → β} {rows rest : List α} {first : α}
    (shape : orderByDesc key rows = first :: rest) :
    first ∈ rows ∧ ∀ row, row ∈ rows → key row ≤ key first := by
  have ordered := orderByDesc_sorted key rows
  have same := orderByDesc_perm key rows
  rw [shape] at ordered same
  refine ⟨same.mem_iff.mp List.mem_cons_self, ?_⟩
  intro row member
  rcases List.mem_cons.mp (same.mem_iff.mpr member) with atHead | later
  · rw [atHead]
  · exact (List.pairwise_cons.mp ordered).1 row later

/-- In descending order the keys from a bound on come first. -/
theorem lt_countP_iff {key : α → β} {rows : List α} (bound : β)
    (sorted : rows.Pairwise (fun left right => key right ≤ key left)) {depth : Nat}
    (inside : depth < rows.length) :
    depth < rows.countP (fun row => bound ≤ key row) ↔ bound ≤ key rows[depth] := by
  induction rows generalizing depth with
  | nil => exact absurd inside (Nat.not_lt_zero depth)
  | cons row rest ih =>
      obtain ⟨first, restSorted⟩ := List.pairwise_cons.mp sorted
      by_cases reached : bound ≤ key row
      · rw [List.countP_cons_of_pos (by simpa using reached)]
        cases depth with
        | zero => exact ⟨fun _counted => reached, fun _reached => Nat.succ_pos _⟩
        | succ depth =>
            rw [List.getElem_cons_succ, ← ih restSorted (Nat.lt_of_succ_lt_succ inside)]
            exact Nat.succ_lt_succ_iff
      · have noLater : ∀ later, later ∈ row :: rest → ¬bound ≤ key later := by
          intro later member
          rcases List.mem_cons.mp member with same | remaining
          · rw [same]
            exact reached
          · exact fun onward => reached (le_trans onward (first later remaining))
        have counted : (row :: rest).countP (fun row => bound ≤ key row) = 0 := by
          rw [List.countP_eq_zero]
          intro later member
          simpa using noLater later member
        rw [counted]
        exact ⟨fun impossible => absurd impossible (Nat.not_lt_zero depth),
          fun onward => absurd onward (noLater _ (List.getElem_mem inside))⟩

/-- Descending order reverses keys that stand in ascending order. -/
theorem map_orderByDesc {key : α → β} {rows : List α}
    (sorted : (rows.map key).Pairwise (· ≤ ·)) :
    (orderByDesc key rows).map key = (rows.map key).reverse := by
  have descending : ((orderByDesc key rows).map key).Pairwise (fun left right => right ≤ left) :=
    List.pairwise_map.mpr (orderByDesc_sorted key rows)
  have reversed : (rows.map key).reverse.Pairwise (fun left right => right ≤ left) :=
    List.pairwise_reverse.mpr sorted
  exact List.Perm.eq_of_pairwise (fun _left _right _ _ first second => le_antisymm second first)
    descending reversed
    (((orderByDesc_perm key rows).map key).trans (List.reverse_perm _).symm)

end Foundations.OrderBy

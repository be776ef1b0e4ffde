/-
Leftmost insertion points by binary search.

The search is the usual halving loop over positions and is meaningful on any
list; on a list sorted by the key it returns the number of items whose key is
below the bound, so that everything before the returned position is below the
bound and everything from it on is at or above it.
-/

import Mathlib.Data.List.Basic
import Mathlib.Order.Lattice

namespace Foundations.Bisect

variable {α β : Type*} [LinearOrder β]

/-- The halving loop on the positions `low ≤ · < high`. -/
def search (key : α → β) (items : List α) (bound : β) : Nat → Nat → Nat → Nat
  | 0, low, _ => low
  | fuel + 1, low, high =>
      if low < high then
        let middle := (low + high) / 2
        match items[middle]? with
        | some item =>
            if key item < bound then search key items bound fuel (middle + 1) high
            else search key items bound fuel low middle
        | none => low
      else low

/-- The interval halves on every turn, so the length of the list is enough fuel. -/
def bisectLeft (key : α → β) (items : List α) (bound : β) : Nat :=
  search key items bound items.length 0 items.length

def Splits (key : α → β) (items : List α) (bound : β) (position : Nat) : Prop :=
  (∀ index (inside : index < items.length), index < position → key items[index] < bound) ∧
    ∀ index (inside : index < items.length), position ≤ index → bound ≤ key items[index]

def SortedBy (key : α → β) (items : List α) : Prop :=
  items.Pairwise (fun left right => key left ≤ key right)

theorem SortedBy.le_of_le {key : α → β} {items : List α} (sorted : SortedBy key items)
    {left right : Nat} (before : left ≤ right)
    (leftInside : left < items.length) (rightInside : right < items.length) :
    key items[left] ≤ key items[right] := by
  rcases Nat.lt_or_eq_of_le before with earlier | same
  · exact List.pairwise_iff_getElem.mp sorted left right leftInside rightInside earlier
  · subst left
    exact le_refl _

/-- The loop invariant: keys left of `low` are below the bound and keys from
`high` on are not. -/
private theorem search_splits {key : α → β} {items : List α} {bound : β}
    (sorted : SortedBy key items) (fuel low high : Nat)
    (ordered : low ≤ high) (within : high ≤ items.length) (enough : high - low ≤ fuel)
    (below : ∀ index (inside : index < items.length), index < low → key items[index] < bound)
    (above : ∀ index (inside : index < items.length), high ≤ index → bound ≤ key items[index]) :
    search key items bound fuel low high ≤ items.length ∧
      Splits key items bound (search key items bound fuel low high) := by
  induction fuel generalizing low high with
  | zero =>
      have same : low = high := by omega
      subst high
      exact ⟨within, below, above⟩
  | succ fuel ih =>
      unfold search
      by_cases active : low < high
      · rw [if_pos active]
        have middleInside : (low + high) / 2 < items.length := by omega
        simp only [List.getElem?_eq_getElem middleInside]
        split
        · rename_i smaller
          apply ih _ _ (by omega) within (by omega) _ above
          intro index inside left
          have reached := sorted.le_of_le (Nat.le_of_lt_succ left) inside middleInside
          exact lt_of_le_of_lt reached smaller
        · rename_i larger
          apply ih _ _ (by omega) (by omega) (by omega) below
          intro index inside right
          exact le_trans (not_lt.mp larger) (sorted.le_of_le right middleInside inside)
      · rw [if_neg active]
        have same : low = high := by omega
        subst high
        exact ⟨within, below, above⟩

theorem bisectLeft_splits {key : α → β} {items : List α} (bound : β)
    (sorted : SortedBy key items) :
    bisectLeft key items bound ≤ items.length ∧
      Splits key items bound (bisectLeft key items bound) := by
  apply search_splits sorted
  · exact Nat.zero_le _
  · exact Nat.le_refl _
  · omega
  · intro index _inside impossible
    exact absurd impossible (Nat.not_lt_zero _)
  · intro index inside beyond
    exact absurd inside (Nat.not_lt.mpr beyond)

theorem drop_bisectLeft {key : α → β} {items : List α} (bound : β)
    (sorted : SortedBy key items) :
    items.drop (bisectLeft key items bound) =
      items.filter (fun item => bound ≤ key item) := by
  obtain ⟨_, below, above⟩ := bisectLeft_splits bound sorted
  generalize bisectLeft key items bound = position at below above
  have early : (items.take position).filter (fun item => bound ≤ key item) = [] := by
    apply List.filter_eq_nil_iff.mpr
    intro item member
    obtain ⟨index, inside, rfl⟩ := List.mem_iff_getElem.mp member
    rw [List.length_take] at inside
    rw [List.getElem_take]
    simpa using below index (by omega) (by omega)
  have late : (items.drop position).filter (fun item => bound ≤ key item) =
      items.drop position := by
    apply List.filter_eq_self.mpr
    intro item member
    obtain ⟨index, inside, rfl⟩ := List.mem_iff_getElem.mp member
    rw [List.length_drop] at inside
    rw [List.getElem_drop]
    simpa using above (position + index) (by omega) (by omega)
  calc
    items.drop position = [] ++ items.drop position := rfl
    _ = (items.take position).filter (fun item => bound ≤ key item) ++
          (items.drop position).filter (fun item => bound ≤ key item) := by
        rw [early, late]
    _ = (items.take position ++ items.drop position).filter
          (fun item => bound ≤ key item) := by
        rw [List.filter_append]
    _ = items.filter (fun item => bound ≤ key item) := by
        rw [List.take_append_drop]

theorem length_sub_bisectLeft {key : α → β} {items : List α} (bound : β)
    (sorted : SortedBy key items) :
    items.length - bisectLeft key items bound =
      items.countP (fun item => bound ≤ key item) := by
  rw [List.countP_eq_length_filter, ← drop_bisectLeft bound sorted, List.length_drop]

theorem search_le_high {key : α → β} {items : List α} {bound : β} (fuel : Nat) {low high : Nat}
    (ordered : low ≤ high) : search key items bound fuel low high ≤ high := by
  induction fuel generalizing low high with
  | zero => exact ordered
  | succ fuel ih =>
      simp only [search]
      split
      · rename_i apart
        split
        · split
          · exact ih (by omega)
          · exact Nat.le_trans (ih (by omega)) (by omega)
        · exact ordered
      · exact ordered

theorem bisectLeft_le_length (key : α → β) (items : List α) (bound : β) :
    bisectLeft key items bound ≤ items.length :=
  search_le_high items.length (Nat.zero_le _)

end Foundations.Bisect

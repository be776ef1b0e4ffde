/-
Sorted sets: distinct members with a score each, as key-value stores offer them.

Only scores decide what a range of the set holds, so ranges are counted on the
list of scores.  Adding a member that is there already moves its score, and the
rank order is by score first and member second.
-/

import Mathlib.Data.List.Sort
import PyrateLimiter.Foundations.WindowLog

namespace Foundations.SortedSets

open Foundations.WindowLog

@[ext] structure SortedSet (Member Score : Type*) where
  entries : List (Member × Score)
  distinct : (entries.map Prod.fst).Nodup

namespace SortedSet

variable {Member Score : Type*}

def empty : SortedSet Member Score :=
  { entries := []
    distinct := List.nodup_nil }

def scores (set : SortedSet Member Score) : List Score := set.entries.map Prod.snd

def card (set : SortedSet Member Score) : Nat := set.entries.length

def Contains (set : SortedSet Member Score) (member : Member) : Prop :=
  member ∈ set.entries.map Prod.fst

section Updates

variable [DecidableEq Member]

instance (set : SortedSet Member Score) (member : Member) : Decidable (set.Contains member) :=
  inferInstanceAs (Decidable (member ∈ set.entries.map Prod.fst))

/-- `ZADD` of one member. -/
def add (set : SortedSet Member Score) (member : Member) (score : Score) :
    SortedSet Member Score :=
  { entries := set.entries.filter (fun entry => entry.1 ≠ member) ++ [(member, score)]
    distinct := by
      rw [List.map_append]
      refine List.nodup_append.mpr ⟨?_, List.nodup_singleton member, ?_⟩
      · exact set.distinct.sublist (List.filter_sublist.map Prod.fst)
      · intro old present new single same
        obtain ⟨entry, kept, rfl⟩ := List.mem_map.mp present
        have different := of_decide_eq_true (List.mem_filter.mp kept).2
        rw [List.mem_singleton.mp single] at same
        exact different same }

/-- `ZADD` of several members, in the order given. -/
def addAll (set : SortedSet Member Score) (entries : List (Member × Score)) :
    SortedSet Member Score :=
  entries.foldl (fun set entry => set.add entry.1 entry.2) set

/-- Adding distinct members moves those that are there already behind the rest. -/
theorem entries_addAll {entries : List (Member × Score)}
    (distinct : (entries.map Prod.fst).Nodup) (set : SortedSet Member Score) :
    (set.addAll entries).entries =
      set.entries.filter (fun old => old.1 ∉ entries.map Prod.fst) ++ entries := by
  induction entries generalizing set with
  | nil =>
      rw [List.append_nil]
      symm
      apply List.filter_eq_self.mpr
      intro old _present
      exact decide_eq_true (List.not_mem_nil)
  | cons entry rest ih =>
      obtain ⟨apart, restDistinct⟩ := List.nodup_cons.mp distinct
      change ((set.add entry.1 entry.2).addAll rest).entries = _
      have stays : [(entry.1, entry.2)].filter (fun old => old.1 ∉ rest.map Prod.fst) = [entry] :=
        List.filter_eq_self.mpr (fun old member => by
          rw [List.mem_singleton.mp member]
          exact decide_eq_true apart)
      rw [ih restDistinct, add, List.filter_append, stays, List.filter_filter, List.append_assoc,
        List.singleton_append]
      congr 1
      apply List.filter_congr
      intro old _present
      rw [Bool.eq_iff_iff]
      simp only [List.map_cons, List.mem_cons, not_or, Bool.and_eq_true, decide_eq_true_eq]
      exact and_comm

theorem entries_addAll_of_fresh {set : SortedSet Member Score}
    {entries : List (Member × Score)} (distinct : (entries.map Prod.fst).Nodup)
    (fresh : ∀ entry, entry ∈ entries → ¬set.Contains entry.1) :
    (set.addAll entries).entries = set.entries ++ entries := by
  rw [entries_addAll distinct, List.filter_eq_self.mpr]
  intro old present
  apply decide_eq_true
  intro named
  obtain ⟨entry, member, same⟩ := List.mem_map.mp named
  exact fresh entry member (List.mem_map.mpr ⟨old, present, same.symm⟩)

theorem scores_addAll {set : SortedSet Member Score} {entries : List (Member × Score)}
    {score : Score} (member : score ∈ (set.addAll entries).scores) :
    score ∈ set.scores ∨ score ∈ entries.map Prod.snd := by
  induction entries generalizing set with
  | nil => exact Or.inl member
  | cons entry rest ih =>
      rcases ih member with before | later
      · obtain ⟨kept, present, rfl⟩ := List.mem_map.mp before
        rcases List.mem_append.mp present with old | new
        · exact Or.inl (List.mem_map_of_mem (List.mem_filter.mp old).1)
        · rw [List.mem_singleton.mp new]
          exact Or.inr List.mem_cons_self
      · exact Or.inr (List.mem_cons_of_mem _ later)

theorem addAll_flatten (set : SortedSet Member Score)
    (batches : List (List (Member × Score))) :
    batches.foldl addAll set = set.addAll batches.flatten := by
  induction batches generalizing set with
  | nil => rfl
  | cons batch rest ih =>
      rw [List.foldl_cons, ih, List.flatten_cons, addAll, addAll, addAll, List.foldl_append]

end Updates

section Ranges

variable [LinearOrder Score]

/-- `ZCOUNT` with plain bounds, which are inclusive. -/
def count (set : SortedSet Member Score) (lower upper : Score) : Nat :=
  countBetween set.scores lower upper

/-- `ZREMRANGEBYSCORE` with plain bounds: the members removed and the rest. -/
def removeRange (set : SortedSet Member Score) (lower upper : Score) :
    Nat × SortedSet Member Score :=
  let kept := set.entries.filter
    (fun entry => ¬(lower ≤ entry.2 ∧ entry.2 ≤ upper))
  (set.entries.length - kept.length,
    { entries := kept
      distinct := set.distinct.sublist (List.filter_sublist.map Prod.fst) })

theorem count_removeRange {set : SortedSet Member Score} {lower upper first last : Score}
    (apart : ∀ score, score ∈ set.scores → lower ≤ score → score ≤ upper →
      ¬(first ≤ score ∧ score ≤ last)) :
    (set.removeRange lower upper).2.count first last = set.count first last := by
  unfold count scores countBetween removeRange
  rw [List.countP_map, List.countP_map, List.countP_filter]
  apply List.countP_congr
  intro entry member
  have outside := apart entry.2 (List.mem_map.mpr ⟨entry, member, rfl⟩)
  simp only [Function.comp_apply, Bool.and_eq_true, decide_eq_true_eq, not_and]
  exact ⟨fun both => both.1, fun inside => ⟨inside, fun above below =>
    outside above below inside⟩⟩

theorem removeRange_add [DecidableEq Member] (set : SortedSet Member Score) (member : Member)
    {lower upper score : Score} (outside : ¬(lower ≤ score ∧ score ≤ upper)) :
    ((set.add member score).removeRange lower upper).2 =
      (set.removeRange lower upper).2.add member score := by
  have single : [(member, score)].filter
      (fun entry => ¬(lower ≤ entry.2 ∧ entry.2 ≤ upper)) = [(member, score)] := by
    apply List.filter_eq_self.mpr
    intro entry added
    rw [List.mem_singleton.mp added]
    exact decide_eq_true outside
  apply SortedSet.ext
  simp only [removeRange, add, List.filter_append, single]
  rw [List.filter_filter, List.filter_filter]
  congr 1
  apply List.filter_congr
  intro entry _present
  exact Bool.and_comm _ _

theorem removeRange_addAll [DecidableEq Member] (set : SortedSet Member Score)
    {entries : List (Member × Score)} {lower upper : Score}
    (outside : ∀ entry, entry ∈ entries → ¬(lower ≤ entry.2 ∧ entry.2 ≤ upper)) :
    ((set.addAll entries).removeRange lower upper).2 =
      (set.removeRange lower upper).2.addAll entries := by
  induction entries generalizing set with
  | nil => rfl
  | cons entry rest ih =>
      change (((set.add entry.1 entry.2).addAll rest).removeRange lower upper).2 = _
      rw [ih _ (fun later member => outside later (List.mem_cons_of_mem entry member)),
        removeRange_add set entry.1 (outside entry List.mem_cons_self)]
      rfl

variable [LinearOrder Member]

def ranked (set : SortedSet Member Score) : List (Member × Score) :=
  set.entries.insertionSort
    (fun left right => left.2 < right.2 ∨ left.2 = right.2 ∧ left.1 ≤ right.1)

/-- `ZRANGE` of the one rank `index` places before the largest. -/
def fromLargest (set : SortedSet Member Score) (index : Nat) : Option (Member × Score) :=
  if index < set.card then set.ranked[set.card - 1 - index]? else none

theorem scores_ranked {set : SortedSet Member Score} (sorted : set.scores.Pairwise (· ≤ ·)) :
    set.ranked.map Prod.snd = set.scores := by
  have _total : Std.Total (fun left right : Member × Score =>
      left.2 < right.2 ∨ left.2 = right.2 ∧ left.1 ≤ right.1) := by
    refine ⟨fun left right => ?_⟩
    rcases lt_trichotomy left.2 right.2 with below | same | above
    · exact Or.inl (Or.inl below)
    · rcases le_total left.1 right.1 with before | after
      · exact Or.inl (Or.inr ⟨same, before⟩)
      · exact Or.inr (Or.inr ⟨same.symm, after⟩)
    · exact Or.inr (Or.inl above)
  have _transitive : IsTrans (Member × Score) (fun left right =>
      left.2 < right.2 ∨ left.2 = right.2 ∧ left.1 ≤ right.1) := by
    refine ⟨?_⟩
    rintro first second third (below | ⟨same, before⟩) (later | ⟨equal, after⟩)
    · exact Or.inl (lt_trans below later)
    · exact Or.inl (equal ▸ below)
    · exact Or.inl (same ▸ later)
    · exact Or.inr ⟨same.trans equal, le_trans before after⟩
  have ascending : (set.ranked.map Prod.snd).Pairwise (· ≤ ·) := by
    apply List.pairwise_map.mpr
    apply List.Pairwise.imp _ (List.pairwise_insertionSort _ set.entries)
    rintro left right (below | ⟨same, _before⟩)
    · exact le_of_lt below
    · exact le_of_eq same
  exact List.Perm.eq_of_pairwise (fun _left _right _ _ first second => le_antisymm first second)
    ascending sorted ((List.perm_insertionSort _ set.entries).map Prod.snd)

/-- Where scores are sorted, counting ranks back from the largest counts scores back. -/
theorem score_fromLargest {set : SortedSet Member Score} (sorted : set.scores.Pairwise (· ≤ ·))
    (index : Nat) : (set.fromLargest index).map Prod.snd = set.scores.reverse[index]? := by
  have size : set.scores.length = set.card := List.length_map _
  unfold fromLargest
  split
  · rename_i inside
    rw [List.getElem?_reverse (by rw [size]; exact inside), ← List.getElem?_map,
      scores_ranked sorted, size]
  · rename_i outside
    rw [List.getElem?_eq_none (by rw [List.length_reverse, size]; exact not_lt.mp outside)]
    rfl

end Ranges

end SortedSet

end Foundations.SortedSets

/-
Sliding windows over a log of time stamps.

A log records one stamp per consumed unit.  A window bounds the number of units
in every closed interval of its span.  Nothing here depends on the order of the
log, so late stamps are covered: room is measured by the units at or after the
start of the window that ends at the new stamp, whatever their position, and
that count dominates every window the new stamp can fall into.
-/

import Mathlib.Algebra.Order.Group.Defs
import Mathlib.Data.List.Count

namespace Foundations.WindowLog

/-- At most `capacity` units in any closed interval of length `span`. -/
structure Window (T : Type*) where
  capacity : Int
  span : T

section Counting

variable {T : Type*} [LinearOrder T]

def countSince (log : List T) (start : T) : Nat :=
  log.countP (fun stamp => start ≤ stamp)

def countBetween (log : List T) (start finish : T) : Nat :=
  log.countP (fun stamp => start ≤ stamp ∧ stamp ≤ finish)

theorem countBetween_le_countSince (log : List T) (start finish : T) :
    countBetween log start finish ≤ countSince log start := by
  apply List.countP_mono_left
  intro stamp _member inside
  simp only [decide_eq_true_eq] at inside ⊢
  exact inside.1

theorem countSince_antitone (log : List T) {early late : T} (ordered : early ≤ late) :
    countSince log late ≤ countSince log early := by
  apply List.countP_mono_left
  intro stamp _member inside
  simp only [decide_eq_true_eq] at inside ⊢
  exact le_trans ordered inside

theorem countSince_append (first second : List T) (start : T) :
    countSince (first ++ second) start = countSince first start + countSince second start :=
  List.countP_append

theorem countBetween_append (first second : List T) (start finish : T) :
    countBetween (first ++ second) start finish =
      countBetween first start finish + countBetween second start finish :=
  List.countP_append

theorem countSince_eq_zero {log : List T} {start : T}
    (older : ∀ stamp, stamp ∈ log → stamp < start) : countSince log start = 0 := by
  apply List.countP_eq_zero.mpr
  intro stamp member
  simpa using older stamp member

/-- Stamps outside every window from a start on can go. -/
theorem countSince_filter {log : List T} {start : T} {kept : T → Bool}
    (late : ∀ stamp, stamp ∈ log → start ≤ stamp → kept stamp = true) :
    countSince (log.filter kept) start = countSince log start := by
  unfold countSince
  rw [List.countP_filter]
  apply List.countP_congr
  intro stamp member
  simp only [Bool.and_eq_true, decide_eq_true_eq]
  exact ⟨fun both => both.1, fun reached => ⟨reached, late stamp member reached⟩⟩

theorem countSince_replicate_of_le {start stamp : T} (units : Nat) (reached : start ≤ stamp) :
    countSince (List.replicate units stamp) start = units := by
  unfold countSince
  rw [List.countP_replicate, if_pos (decide_eq_true reached)]

theorem countBetween_replicate_of_mem {start finish stamp : T} (units : Nat)
    (inside : start ≤ stamp ∧ stamp ≤ finish) :
    countBetween (List.replicate units stamp) start finish = units := by
  unfold countBetween
  rw [List.countP_replicate, if_pos (decide_eq_true inside)]

theorem countBetween_replicate_of_not_mem {start finish stamp : T} (units : Nat)
    (outside : ¬(start ≤ stamp ∧ stamp ≤ finish)) :
    countBetween (List.replicate units stamp) start finish = 0 := by
  unfold countBetween
  rw [List.countP_replicate, if_neg (by simpa using outside)]

theorem countBetween_eq_countSince {log : List T} {start finish : T}
    (bounded : ∀ stamp, stamp ∈ log → stamp ≤ finish) :
    countBetween log start finish = countSince log start := by
  apply List.countP_congr
  intro stamp member
  simp only [decide_eq_true_eq]
  exact ⟨fun inside => inside.1, fun inside => ⟨inside, bounded stamp member⟩⟩

/-- No stamp of a sorted log is later than the last one. -/
theorem le_of_getLast?_le {log : List T} (sorted : log.Pairwise (· ≤ ·)) {stamp : T}
    (bounded : ∀ last, last ∈ log.getLast? → last ≤ stamp) :
    ∀ old, old ∈ log → old ≤ stamp := by
  intro old member
  have nonempty : log ≠ [] := List.ne_nil_of_mem member
  have lastLe := bounded (log.getLast nonempty) (List.getLast?_eq_some_getLast nonempty)
  rw [← List.dropLast_concat_getLast nonempty] at member sorted
  rcases List.mem_append.mp member with earlier | final
  · have ordered := (List.pairwise_append.mp sorted).2.2 old earlier _ (List.mem_singleton.mpr rfl)
    exact le_trans ordered lastLe
  · rw [List.mem_singleton.mp final]
    exact lastLe

theorem newest_append_replicate {log : List T} {stamp : T}
    (newest : ∀ old, old ∈ log → old ≤ stamp) (units : Nat) :
    ∀ old, old ∈ log ++ List.replicate units stamp → old ≤ stamp := by
  intro old member
  rcases List.mem_append.mp member with present | added
  · exact newest old present
  · exact le_of_eq (List.eq_of_mem_replicate added)

theorem sorted_append_replicate {log : List T} (sorted : log.Pairwise (· ≤ ·)) {stamp : T}
    (newest : ∀ old, old ∈ log → old ≤ stamp) (units : Nat) :
    (log ++ List.replicate units stamp).Pairwise (· ≤ ·) := by
  refine List.pairwise_append.mpr ⟨sorted, ?_, ?_⟩
  · exact List.pairwise_replicate.mpr (Or.inr le_rfl)
  · intro old present unit added
    rw [List.eq_of_mem_replicate added]
    exact newest old present

/-- In a sorted log the entry `depth` places before the newest is inside the
window exactly when the window holds more than `depth` units. -/
theorem lt_countSince_iff {log : List T} (sorted : log.Pairwise (· ≤ ·)) (start : T)
    {depth : Nat} (inside : log.length - 1 - depth < log.length) (shallow : depth < log.length) :
    depth < countSince log start ↔ start ≤ log[log.length - 1 - depth] := by
  let position := log.length - 1 - depth
  have lateLength : (log.drop position).length = depth + 1 := by
    rw [List.length_drop]
    omega
  have ordered := List.pairwise_iff_getElem.mp sorted
  have counted : countSince log start =
      countSince (log.take position) start + countSince (log.drop position) start := by
    rw [← countSince_append, List.take_append_drop]
  constructor
  · intro deep
    by_contra newer
    have late : countSince (log.drop position) start ≤ depth := by
      have headAt : log.drop position = log[position] :: log.drop (position + 1) :=
        List.drop_eq_getElem_cons inside
      have rest : countSince (log.drop (position + 1)) start ≤ depth := by
        refine le_trans List.countP_le_length ?_
        rw [List.length_drop]
        omega
      rw [headAt]
      unfold countSince at rest ⊢
      rw [List.countP_cons_of_neg (by simpa using newer)]
      exact rest
    have early : countSince (log.take position) start = 0 := by
      apply countSince_eq_zero
      intro stamp member
      obtain ⟨index, within, rfl⟩ := List.mem_iff_getElem.mp member
      rw [List.length_take] at within
      rw [List.getElem_take]
      exact lt_of_le_of_lt (ordered index position (by omega) inside (by omega))
        (not_le.mp newer)
    omega
  · intro newer
    have late : countSince (log.drop position) start = depth + 1 := by
      rw [← lateLength]
      apply List.countP_eq_length.mpr
      intro stamp member
      obtain ⟨index, within, rfl⟩ := List.mem_iff_getElem.mp member
      rw [List.length_drop] at within
      rw [List.getElem_drop, decide_eq_true_eq]
      rcases Nat.eq_zero_or_pos index with atHead | later
      · subst index
        exact newer
      · exact le_trans newer (ordered position (position + index) inside (by omega) (by omega))
    omega

end Counting

section Windows

variable {T : Type*} [AddCommGroup T] [LinearOrder T]

/-- No window of the list is ever over its capacity. -/
def Within (windows : List (Window T)) (log : List T) : Prop :=
  ∀ window, window ∈ windows → ∀ finish : T,
    (countBetween log (finish - window.span) finish : Int) ≤ window.capacity

/-- Every window that ends at `stamp` or later has room for `weight` more units. -/
def Room (windows : List (Window T)) (log : List T) (stamp : T) (weight : Int) : Prop :=
  ∀ window, window ∈ windows →
    (countSince log (stamp - window.span) : Int) + weight ≤ window.capacity

instance (windows : List (Window T)) (log : List T) (stamp : T) (weight : Int) :
    Decidable (Room windows log stamp weight) :=
  inferInstanceAs (Decidable (∀ window, window ∈ windows →
    (countSince log (stamp - window.span) : Int) + weight ≤ window.capacity))

theorem Within.nil {windows : List (Window T)}
    (nonneg : ∀ window, window ∈ windows → 0 ≤ window.capacity) :
    Within windows ([] : List T) := by
  intro window member _finish
  exact nonneg window member

theorem Within.sublist {windows : List (Window T)} {kept log : List T}
    (within : Within windows log) (part : kept.Sublist log) : Within windows kept := by
  intro window member finish
  have fewer : countBetween kept (finish - window.span) finish ≤
      countBetween log (finish - window.span) finish := part.countP_le
  have bound := within window member finish
  omega

/-- At a stamp that no recorded one is later than, nothing more always fits. -/
theorem Within.room_zero {windows : List (Window T)} {log : List T} {stamp : T}
    (within : Within windows log) (newest : ∀ old, old ∈ log → old ≤ stamp) :
    Room windows log stamp 0 := by
  intro window member
  have bound := within window member stamp
  rw [countBetween_eq_countSince newest] at bound
  omega

/-- The general step: the new units stay within the capacity of every window
that contains their stamp. -/
theorem Within.append_replicate {windows : List (Window T)} {log : List T} {stamp : T}
    {units : Nat} (within : Within windows log)
    (fits : ∀ window, window ∈ windows → ∀ finish : T,
      finish - window.span ≤ stamp → stamp ≤ finish →
        (countBetween log (finish - window.span) finish : Int) + units ≤ window.capacity) :
    Within windows (log ++ List.replicate units stamp) := by
  intro window member finish
  rw [countBetween_append]
  by_cases inside : finish - window.span ≤ stamp ∧ stamp ≤ finish
  · rw [countBetween_replicate_of_mem units inside]
    have bound := fits window member finish inside.1 inside.2
    omega
  · rw [countBetween_replicate_of_not_mem units inside]
    have bound := within window member finish
    omega

theorem Room.lighter {windows : List (Window T)} {log : List T} {stamp : T} {weight lighter : Int}
    (room : Room windows log stamp weight) (light : lighter ≤ weight) :
    Room windows log stamp lighter := by
  intro window member
  have bound := room window member
  omega

theorem room_append_iff_of_expired {windows : List (Window T)} {forgotten kept : List T}
    {stamp : T} {weight : Int}
    (expired : ∀ window, window ∈ windows → ∀ old, old ∈ forgotten →
      old < stamp - window.span) :
    Room windows (forgotten ++ kept) stamp weight ↔ Room windows kept stamp weight := by
  have same : ∀ window, window ∈ windows →
      countSince (forgotten ++ kept) (stamp - window.span) =
        countSince kept (stamp - window.span) := by
    intro window member
    rw [countSince_append, countSince_eq_zero (expired window member), Nat.zero_add]
  constructor
  · intro room window member
    rw [← same window member]
    exact room window member
  · intro room window member
    rw [same window member]
    exact room window member

variable [IsOrderedAddMonoid T]

/-- Recording where there is room keeps every window within its capacity, also
when the stamp is older than recorded ones. -/
theorem Within.record {windows : List (Window T)} {log : List T} {stamp : T} {weight : Int}
    (within : Within windows log) (room : Room windows log stamp weight) (units : Nat)
    (cost : (units : Int) ≤ weight) :
    Within windows (log ++ List.replicate units stamp) := by
  apply within.append_replicate
  intro window member finish _started reached
  have closed := countBetween_le_countSince log (finish - window.span) finish
  have earlier := countSince_antitone log (sub_le_sub_right reached window.span)
  have bound := room window member
  omega

/-- Recording is safe where there is room for the units of both spans around the
stamp, the one before it and the one after it. -/
theorem Within.record_around {windows : List (Window T)} {log : List T} {stamp : T}
    {weight : Int} (within : Within windows log)
    (room : ∀ window, window ∈ windows →
      (countBetween log (stamp - window.span) (stamp + window.span) : Int) + weight ≤
        window.capacity)
    (units : Nat) (cost : (units : Int) ≤ weight) :
    Within windows (log ++ List.replicate units stamp) := by
  apply within.append_replicate
  intro window member finish started reached
  have fewer : countBetween log (finish - window.span) finish ≤
      countBetween log (stamp - window.span) (stamp + window.span) := by
    apply List.countP_mono_left
    intro recorded _present inside
    simp only [decide_eq_true_eq] at inside ⊢
    exact ⟨le_trans (sub_le_sub_right reached window.span) inside.1,
      le_trans inside.2 (sub_le_iff_le_add.mp started)⟩
  have bound := room window member
  omega

/-- Units recorded at the stamp take their share of the room at the stamp. -/
theorem room_append_replicate_iff {windows : List (Window T)}
    (nonneg : ∀ window, window ∈ windows → 0 ≤ window.span) (log : List T) (stamp : T)
    (units : Nat) (weight : Int) :
    Room windows (log ++ List.replicate units stamp) stamp weight ↔
      Room windows log stamp (units + weight) := by
  have counted : ∀ window, window ∈ windows →
      countSince (log ++ List.replicate units stamp) (stamp - window.span) =
        countSince log (stamp - window.span) + units := by
    intro window member
    rw [countSince_append,
      countSince_replicate_of_le units (sub_le_self stamp (nonneg window member))]
  constructor
  · intro room window member
    have bound := room window member
    rw [counted window member] at bound
    omega
  · intro room window member
    have bound := room window member
    rw [counted window member]
    omega

theorem Room.later {windows : List (Window T)} {log : List T} {stamp later : T} {weight : Int}
    (room : Room windows log stamp weight) (ordered : stamp ≤ later) :
    Room windows log later weight := by
  intro window member
  have fewer := countSince_antitone log (sub_le_sub_right ordered window.span)
  have bound := room window member
  omega

end Windows

end Foundations.WindowLog

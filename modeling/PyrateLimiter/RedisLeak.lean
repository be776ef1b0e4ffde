/-
What leaking a Redis bucket takes away from later puts.

The window of a put is closed below, and so is the range that leaking removes
above.  Both end at the leak bound when the put comes at the time of the leak,
so a member exactly at the bound is removed although the put still counts it.
Every other removed member is below every later window.
-/

import Mathlib.Data.List.Find
import PyrateLimiter.RedisClients

namespace PyrateLimiter

open Foundations.SortedSets

namespace RedisBucket

def putResults (bucket : RedisBucket) (set : RedisSet) :
    List ClientPut → Option (List (Bool × Option Rate))
  | [] => some []
  | request :: rest => do
      let (acquired, bucket, set) ← bucket.put set request.item request.id
      let later ← putResults bucket set rest
      some ((acquired, bucket.failingRate) :: later)

/-- Leaking changes no later put, and removes nothing that one would count. -/
structure LeakHarmless (bucket : RedisBucket) (set : RedisSet) (now : Int) : Prop where
  unchanged : ∀ requests : List ClientPut,
    requests.Pairwise (fun left right => left.item.timestamp ≤ right.item.timestamp) →
      (∀ request, request ∈ requests → now ≤ request.item.timestamp) →
        bucket.putResults (bucket.leak set now).2 requests = bucket.putResults set requests
  uncounted : ∀ entry, entry ∈ set.entries → entry ∉ (bucket.leak set now).2.entries →
    ∀ stamp, now ≤ stamp → ∀ rate, rate ∈ bucket.rates →
      ¬(stamp - rate.interval ≤ entry.2 ∧ entry.2 ≤ stamp)

/-- No member stands exactly at the upper end of the removed range. -/
def BoundFree (rates : RateList) (set : RedisSet) (now : Int) : Prop :=
  0 ≤ leakBound rates now → leakBound rates now ∉ set.scores

theorem leakBound_lt (rates : RateList) {now stamp : Int} (reached : now ≤ stamp) :
    leakBound rates now < stamp := by
  have positive := rates.last.interval_pos
  simp only [leakBound]
  omega

theorem removed_before_window {rates : RateList} {set : RedisSet} {now stamp score : Int}
    (free : BoundFree rates set now) (member : score ∈ set.scores) (removed : 0 ≤ score)
    (below : score ≤ leakBound rates now) (reached : now ≤ stamp) {rate : Rate}
    (rateMember : rate ∈ rates) : score < stamp - rate.interval := by
  have widest := rates.interval_le_last rate rateMember
  have different : score ≠ leakBound rates now := by
    intro same
    rw [same] at member removed
    exact free removed member
  simp only [leakBound] at below different
  omega

theorem lacksSpace_leak {rates : RateList} {set : RedisSet} {now : Int} {item : RateItem}
    (free : BoundFree rates set now) (reached : now ≤ item.timestamp) {rate : Rate}
    (member : rate ∈ rates) :
    lacksSpace (set.removeRange 0 (leakBound rates now)).2 item rate =
      lacksSpace set item rate := by
  unfold lacksSpace
  rw [SortedSet.count_removeRange]
  intro score present removed below inside
  have before := removed_before_window free present removed below reached member
  omega

theorem boundFree_addAll {rates : RateList} {set : RedisSet} {now : Int} {item : RateItem}
    (free : BoundFree rates set now) (reached : now ≤ item.timestamp) (id : String) :
    BoundFree rates (set.addAll (newMembers item id)) now := by
  intro nonneg member
  rcases SortedSet.scores_addAll member with old | new
  · exact free nonneg old
  · rw [newMembers_scores] at new
    have later := leakBound_lt rates reached
    rw [List.eq_of_mem_replicate new] at later
    exact Int.lt_irrefl _ later

theorem checkAndInsert_leak {rates : RateList} {set : RedisSet} {now : Int} {item : RateItem}
    (free : BoundFree rates set now) (reached : now ≤ item.timestamp) (id : String) :
    ∃ failingRate after, checkAndInsert rates set item id = some (failingRate, after) ∧
      checkAndInsert rates (set.removeRange 0 (leakBound rates now)).2 item id =
        some (failingRate, (after.removeRange 0 (leakBound rates now)).2) ∧
      BoundFree rates after now := by
  have same : rates.toList.find? (lacksSpace (set.removeRange 0 (leakBound rates now)).2 item) =
      rates.toList.find? (lacksSpace set item) :=
    List.find?_congr (fun _rate member => lacksSpace_leak free reached member)
  rw [checkAndInsert_eq, checkAndInsert_eq, same]
  cases rates.toList.find? (lacksSpace set item) with
  | some rate => exact ⟨some rate, set, rfl, rfl, free⟩
  | none =>
      refine ⟨none, set.addAll (newMembers item id), rfl, ?_, boundFree_addAll free reached id⟩
      rw [SortedSet.removeRange_addAll]
      intro entry member inside
      have later := leakBound_lt rates reached
      have stamped : entry.2 ∈ (newMembers item id).map Prod.snd := List.mem_map_of_mem member
      rw [newMembers_scores] at stamped
      rw [List.eq_of_mem_replicate stamped] at inside
      omega

theorem putResults_leak {bucket : RedisBucket} {set : RedisSet} {now : Int}
    (free : BoundFree bucket.rates set now) {requests : List ClientPut}
    (reached : ∀ request, request ∈ requests → now ≤ request.item.timestamp) :
    bucket.putResults (bucket.leak set now).2 requests = bucket.putResults set requests := by
  induction requests generalizing bucket set with
  | nil => rfl
  | cons request rest ih =>
      obtain ⟨failingRate, after, plain, leaked, afterFree⟩ :=
        checkAndInsert_leak free (reached request List.mem_cons_self) request.id
      have later := @ih { bucket with failingRate := failingRate } after afterFree
        (fun other member => reached other (List.mem_cons_of_mem request member))
      unfold leak at later ⊢
      simp only [putResults, put, plain, leaked, Option.bind_eq_bind, Option.bind_some] at later ⊢
      rw [later]

/-- A leak forgets a member that a put at the time of the leak counts. -/
theorem not_uncounted_of_bound {bucket : RedisBucket} {set : RedisSet} {now : Int}
    (nonneg : 0 ≤ leakBound bucket.rates now) (member : leakBound bucket.rates now ∈ set.scores)
    (harmless : LeakHarmless bucket set now) : False := by
  obtain ⟨entry, present, atBound⟩ := List.mem_map.mp member
  have removed : entry ∉ (bucket.leak set now).2.entries := by
    intro kept
    have outside := of_decide_eq_true (List.mem_filter.mp kept).2
    rw [atBound] at outside
    exact outside ⟨nonneg, Int.le_refl _⟩
  apply harmless.uncounted entry present removed now (Int.le_refl _) bucket.rates.last
    bucket.rates.last_mem
  have before := leakBound_lt bucket.rates (Int.le_refl now)
  rw [atBound]
  exact ⟨Int.le_refl _, Int.le_of_lt before⟩

end RedisBucket

/-- Leaking a Redis bucket changes nothing for later puts exactly when no member
has the leak bound itself as its score. -/
theorem redis_leak_harmless_iff (bucket : RedisBucket) (set : RedisSet) (now : Int) :
    bucket.LeakHarmless set now ↔ RedisBucket.BoundFree bucket.rates set now := by
  constructor
  · intro harmless nonneg member
    exact RedisBucket.not_uncounted_of_bound nonneg member harmless
  · intro free
    refine ⟨fun requests _ordered reached => RedisBucket.putResults_leak free reached, ?_⟩
    intro entry present removed stamp reached rate rateMember inside
    have within : 0 ≤ entry.2 ∧ entry.2 ≤ leakBound bucket.rates now := by
      apply Classical.byContradiction
      intro outside
      exact removed (List.mem_filter.mpr ⟨present, decide_eq_true outside⟩)
    have before := RedisBucket.removed_before_window free
      (List.mem_map_of_mem present) within.1 within.2 reached rateMember
    omega

/-- The member at 0 that the leak at 100 removes is inside the window of a put at
100, and without the leak that put is refused. -/
theorem redis_leak_removes_counted :
    let bucket : RedisBucket := { rates := oneRequestIn100, failingRate := none }
    let set : RedisSet := SortedSet.empty.add "first:a:1" 0
    bucket.putResults set [⟨⟨"second", 100, 1⟩, "b"⟩] = some [(false, some oneRequestIn100.first)] ∧
      bucket.putResults (bucket.leak set 100).2 [⟨⟨"second", 100, 1⟩, "b"⟩] =
        some [(true, none)] ∧
      ¬bucket.LeakHarmless set 100 := by
  refine ⟨by decide, by decide, ?_⟩
  intro harmless
  exact RedisBucket.not_uncounted_of_bound (by decide) (by decide) harmless

end PyrateLimiter

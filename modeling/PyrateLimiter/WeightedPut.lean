/-
What the weight of an item means to the in-memory bucket.

The put is written out by hand, with a length shortcut and a binary search, and is
compared here with the shared algorithm on the counts of the stored items.  A put
of weight W is then compared with W puts of one unit each, which look at a list
that grows from put to put.
-/

import PyrateLimiter.BlockingRetry

namespace PyrateLimiter

open Foundations.WindowLog

/-- The stored items in the window of a rate that ends at an item. -/
def windowCount (items : List RateItem) (item : RateItem) (rate : Rate) : Int :=
  (items.countP (fun stored => item.timestamp - rate.interval ≤ stored.timestamp) : Nat)

/-- With its shortcut and its search a put decides as the shared algorithm does on the
counts of the stored items, and records all units or none. -/
theorem inMemory_put_follows_admit (bucket : InMemoryBucket) (sorted : bucket.Sorted)
    (item : RateItem) (positive : 1 ≤ item.weight) :
    ∃ decision,
      admitDecision bucket.rates.toList
          (bucket.rates.toList.map (windowCount bucket.items item)) item.weight =
        .ok decision ∧
      (bucket.put item).1 = decision.allowed ∧
      (bucket.put item).2.failingRate = decision.failingRate ∧
      (bucket.put item).2.items =
        if decision.allowed then bucket.items ++ List.replicate item.weight.toNat item
        else bucket.items := by
  have counted : windowCount bucket.items item = fun rate =>
      (countSince bucket.stamps (item.timestamp - rate.interval) : Int) := by
    funext rate
    rw [InMemoryBucket.countSince_stamps]
    rfl
  rw [counted]
  refine ⟨_, bucket.rates.admit_counts bucket.stamps item.timestamp item.weight, ?_⟩
  rw [InMemoryBucket.put_eq sorted item positive]
  cases bucket.rates.refusing bucket.stamps item.timestamp item.weight with
  | some rate => exact ⟨rfl, rfl, rfl⟩
  | none =>
      refine ⟨rfl, rfl, ?_⟩
      simp only [InMemoryBucket.unitsOf_eq_replicate positive]
      rfl

def storedAhead : InMemoryBucket :=
  { rates := twoIn100ThreeIn1000
    items := [⟨"a", 0, 1⟩, ⟨"b", 150, 1⟩]
    failingRate := none }

theorem inMemory_put_follows_admit_older :
    ∃ decision,
      admitDecision storedAhead.rates.toList
          (storedAhead.rates.toList.map (windowCount storedAhead.items ⟨"late", 40, 1⟩)) 1 =
        .ok decision ∧
      (storedAhead.put ⟨"late", 40, 1⟩).1 = decision.allowed ∧
      (storedAhead.put ⟨"late", 40, 1⟩).2.failingRate = decision.failingRate ∧
      (storedAhead.put ⟨"late", 40, 1⟩).2.items =
        if decision.allowed then storedAhead.items ++ List.replicate (1 : Int).toNat ⟨"late", 40, 1⟩
        else storedAhead.items :=
  inMemory_put_follows_admit storedAhead (by decide) ⟨"late", 40, 1⟩ (by decide)

/-! ### A weight is as many units -/

namespace InMemoryBucket

def putVerdicts (bucket : InMemoryBucket) : List RateItem → List Bool
  | [] => []
  | item :: rest => (bucket.put item).1 :: (bucket.put item).2.putVerdicts rest

theorem span_nonneg (rates : RateList) : ∀ window, window ∈ rates.windows → 0 ≤ window.span := by
  rw [RateList.forall_windows]
  intro rate _member
  exact Int.le_of_lt rate.interval_pos

theorem stamps_of_unit_admitted {bucket : InMemoryBucket} {unit : RateItem}
    (single : unit.weight = 1) (admitted : (bucket.put unit).1 = true) :
    (bucket.put unit).2.stamps = bucket.stamps ++ List.replicate 1 unit.timestamp := by
  unfold stamps
  rw [put_admitted (by omega) admitted, List.map_append, List.map_replicate, single]
  rfl

variable {stamp : Int} {units : List RateItem}

/-- Where there is room for the units together, each of them is admitted in its turn. -/
theorem putAll_of_room {bucket : InMemoryBucket} (sorted : bucket.Sorted)
    (newest : ∀ old, old ∈ bucket.stamps → old ≤ stamp)
    (alike : ∀ unit, unit ∈ units → unit.timestamp = stamp ∧ unit.weight = 1)
    (room : Room bucket.rates.windows bucket.stamps stamp units.length) :
    (∀ verdict, verdict ∈ bucket.putVerdicts units → verdict = true) ∧
      (bucket.putAll units).stamps = bucket.stamps ++ List.replicate units.length stamp := by
  induction units generalizing bucket with
  | nil => exact ⟨fun _verdict impossible => absurd impossible List.not_mem_nil,
      (List.append_nil _).symm⟩
  | cons unit rest ih =>
      obtain ⟨same, single⟩ := alike unit List.mem_cons_self
      have admitted : (bucket.put unit).1 = true := by
        rw [put_admits_iff sorted unit (by omega), same, single]
        exact room.lighter (by simp)
      have grown := stamps_of_unit_admitted single admitted
      rw [same] at grown
      have later : Room (bucket.put unit).2.rates.windows (bucket.put unit).2.stamps stamp
          rest.length := by
        rw [put_rates, grown, room_append_replicate_iff (span_nonneg bucket.rates)]
        refine room.lighter (le_of_eq ?_)
        rw [List.length_cons]
        omega
      have laterNewest : ∀ old, old ∈ (bucket.put unit).2.stamps → old ≤ stamp := by
        rw [grown]
        exact newest_append_replicate newest 1
      obtain ⟨allTrue, all⟩ := ih
        (sorted.put (by omega) (Or.inr (by rw [same]; exact newest))) laterNewest
        (fun other member => alike other (List.mem_cons_of_mem unit member)) later
      refine ⟨?_, ?_⟩
      · intro verdict member
        rcases List.mem_cons.mp member with first | remaining
        · rw [first]
          exact admitted
        · exact allTrue verdict remaining
      · change ((bucket.put unit).2.putAll rest).stamps = _
        rw [all, grown, List.append_assoc, List.replicate_append_replicate, List.length_cons,
          Nat.add_comm]

theorem room_of_putVerdicts {bucket : InMemoryBucket} (sorted : bucket.Sorted)
    (newest : ∀ old, old ∈ bucket.stamps → old ≤ stamp)
    (alike : ∀ unit, unit ∈ units → unit.timestamp = stamp ∧ unit.weight = 1)
    (nonempty : units ≠ [])
    (allTrue : ∀ verdict, verdict ∈ bucket.putVerdicts units → verdict = true) :
    Room bucket.rates.windows bucket.stamps stamp units.length := by
  induction units generalizing bucket with
  | nil => exact absurd rfl nonempty
  | cons unit rest ih =>
      obtain ⟨same, single⟩ := alike unit List.mem_cons_self
      have admitted : (bucket.put unit).1 = true := allTrue _ List.mem_cons_self
      have grown := stamps_of_unit_admitted single admitted
      rw [same] at grown
      cases rest with
      | nil =>
          rw [put_admits_iff sorted unit (by omega), same, single] at admitted
          exact admitted
      | cons next others =>
          have laterNewest : ∀ old, old ∈ (bucket.put unit).2.stamps → old ≤ stamp := by
            rw [grown]
            exact newest_append_replicate newest 1
          have later := ih
            (sorted.put (by omega) (Or.inr (by rw [same]; exact newest))) laterNewest
            (fun other member => alike other (List.mem_cons_of_mem unit member))
            (List.cons_ne_nil next others)
            (fun verdict member => allTrue verdict (List.mem_cons_of_mem _ member))
          rw [put_rates, grown, room_append_replicate_iff (span_nonneg bucket.rates)] at later
          refine later.lighter (le_of_eq ?_)
          simp only [List.length_cons]
          omega

end InMemoryBucket

/-- At a stamp that none of the stored ones is later than, a put of weight W is admitted
exactly if W puts of one unit each are, and then they leave the same stamps.  A refused
put records none of its units. -/
theorem weight_is_units (bucket : InMemoryBucket) (sorted : bucket.Sorted) (item : RateItem)
    (positive : 1 ≤ item.weight)
    (newest : ∀ last, last ∈ bucket.stamps.getLast? → last ≤ item.timestamp)
    (units : List RateItem) (asMany : (units.length : Int) = item.weight)
    (alike : ∀ unit, unit ∈ units → unit.timestamp = item.timestamp ∧ unit.weight = 1) :
    ((bucket.put item).1 = true ↔
        ∀ verdict, verdict ∈ bucket.putVerdicts units → verdict = true) ∧
      ((bucket.put item).1 = true →
        (bucket.put item).2.stamps = (bucket.putAll units).stamps) ∧
      ((bucket.put item).1 = false → (bucket.put item).2.items = bucket.items) := by
  have all : ∀ old, old ∈ bucket.stamps → old ≤ item.timestamp :=
    le_of_getLast?_le sorted newest
  have room_iff := InMemoryBucket.put_admits_iff sorted item positive
  rw [← asMany] at room_iff
  refine ⟨⟨?_, ?_⟩, ?_, ?_⟩
  · intro admitted
    exact (InMemoryBucket.putAll_of_room sorted all alike (room_iff.mp admitted)).1
  · intro allTrue
    refine room_iff.mpr (InMemoryBucket.room_of_putVerdicts sorted all alike ?_ allTrue)
    intro empty
    rw [empty] at asMany
    exact absurd asMany (by simp; omega)
  · intro admitted
    have stamped := (InMemoryBucket.putAll_of_room sorted all alike (room_iff.mp admitted)).2
    rw [stamped, InMemoryBucket.stamps, InMemoryBucket.put_admitted (by omega) admitted,
      List.map_append, List.map_replicate, ← asMany]
    rfl
  · intro refused
    obtain ⟨rate, outcome⟩ := InMemoryBucket.put_refused refused
    rw [outcome]

theorem weight_is_units_two :
    ((storedAhead.put ⟨"pair", 200, 2⟩).1 = true ↔
        ∀ verdict, verdict ∈ storedAhead.putVerdicts [⟨"x", 200, 1⟩, ⟨"y", 200, 1⟩] →
          verdict = true) ∧
      ((storedAhead.put ⟨"pair", 200, 2⟩).1 = true →
        (storedAhead.put ⟨"pair", 200, 2⟩).2.stamps =
          (storedAhead.putAll [⟨"x", 200, 1⟩, ⟨"y", 200, 1⟩]).stamps) ∧
      ((storedAhead.put ⟨"pair", 200, 2⟩).1 = false →
        (storedAhead.put ⟨"pair", 200, 2⟩).2.items = storedAhead.items) :=
  weight_is_units storedAhead (by decide) ⟨"pair", 200, 2⟩ (by decide) (by decide)
    [⟨"x", 200, 1⟩, ⟨"y", 200, 1⟩] (by decide) (by decide)

end PyrateLimiter

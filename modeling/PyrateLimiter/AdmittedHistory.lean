/-
The admitted history of an in-memory bucket.

A bucket forgets what it leaks, so the promise of a rate limiter is stated on a
history the code does not keep: the items admitted since the last flush.  The
relation `Traces` ties that history to the stored list for as long as only
stamps from a given set are still to come; it is what one operation preserves,
and both the runs of a single caller and the interleavings of threads are
verified by choosing the set of stamps to come.
-/

import Mathlib.Data.List.Flatten
import PyrateLimiter.InMemoryBucket

namespace PyrateLimiter

open Foundations.WindowLog

/-! ### Weights and units -/

/-- One stamp for each unit of weight. -/
def units (history : List RateItem) : List Int :=
  history.flatMap (fun item => List.replicate item.weight.toNat item.timestamp)

def totalWeight (history : List RateItem) : Int := (history.map RateItem.weight).sum

def weightSince (history : List RateItem) (start : Int) : Int :=
  totalWeight (history.filter (fun item => start ≤ item.timestamp))

def weightBetween (history : List RateItem) (start finish : Int) : Int :=
  totalWeight (history.filter
    (fun item => start ≤ item.timestamp ∧ item.timestamp ≤ finish))

theorem totalWeight_append (first second : List RateItem) :
    totalWeight (first ++ second) = totalWeight first + totalWeight second := by
  unfold totalWeight
  rw [List.map_append, List.sum_append]

theorem units_append (first second : List RateItem) :
    units (first ++ second) = units first ++ units second :=
  List.flatMap_append

theorem units_singleton (item : RateItem) :
    units [item] = List.replicate item.weight.toNat item.timestamp := by
  simp only [units, List.flatMap_cons, List.flatMap_nil, List.append_nil]

private theorem totalWeight_filter (history : List RateItem) (selected : Int → Bool)
    (weighty : ∀ item, item ∈ history → 1 ≤ item.weight) :
    totalWeight (history.filter (fun item => selected item.timestamp)) =
      ((units history).countP selected : Int) := by
  induction history with
  | nil => rfl
  | cons item rest ih =>
      have weight := weighty item List.mem_cons_self
      have tail := ih (fun other member => weighty other (List.mem_cons_of_mem item member))
      have split : units (item :: rest) =
          List.replicate item.weight.toNat item.timestamp ++ units rest := rfl
      rw [split, List.countP_append, List.countP_replicate, List.filter_cons]
      simp only [totalWeight] at tail ⊢
      cases selected item.timestamp with
      | true =>
          simp only [if_true, List.map_cons, List.sum_cons]
          omega
      | false =>
          simp only [Bool.false_eq_true, if_false]
          omega

theorem weightSince_eq {history : List RateItem}
    (weighty : ∀ item, item ∈ history → 1 ≤ item.weight) (start : Int) :
    weightSince history start = (countSince (units history) start : Int) :=
  totalWeight_filter history (fun stamp => start ≤ stamp) weighty

theorem weightBetween_eq {history : List RateItem}
    (weighty : ∀ item, item ∈ history → 1 ≤ item.weight) (start finish : Int) :
    weightBetween history start finish = (countBetween (units history) start finish : Int) :=
  totalWeight_filter history (fun stamp => start ≤ stamp ∧ stamp ≤ finish) weighty

theorem weightBetween_le_of_sublist {part history : List RateItem}
    (sublist : part.Sublist history)
    (weighty : ∀ item, item ∈ history → 1 ≤ item.weight) (start finish : Int) :
    weightBetween part start finish ≤ weightBetween history start finish := by
  have partWeighty : ∀ item, item ∈ part → 1 ≤ item.weight :=
    fun item member => weighty item (sublist.subset member)
  rw [weightBetween_eq partWeighty, weightBetween_eq weighty]
  have fewer : (units part).Sublist (units history) := sublist.flatMap _
  exact_mod_cast fewer.countP_le

/-! ### The history a bucket stands for -/

/-- `admitted` is a history the bucket's list stands for, as far as puts stamped
in `future` can tell: the forgotten units are outside every window of theirs. -/
structure Traces (bucket : InMemoryBucket) (admitted : List RateItem) (future : Int → Prop) :
    Prop where
  weighty : ∀ item, item ∈ admitted → 1 ≤ item.weight
  sorted : (units admitted).Pairwise (· ≤ ·)
  forgets : ∃ forgotten, units admitted = forgotten ++ bucket.stamps ∧
    ∀ stamp, future stamp → ∀ old, old ∈ forgotten → old < leakBound bucket.rates stamp
  ahead : ∀ stamp, future stamp → ∀ old, old ∈ units admitted → old ≤ stamp
  within : Within bucket.rates.windows (units admitted)

namespace Traces

variable {bucket : InMemoryBucket} {admitted : List RateItem} {future : Int → Prop}

theorem empty (rates : RateList) : Traces (InMemoryBucket.empty rates) [] future where
  weighty := fun _item impossible => by cases impossible
  sorted := .nil
  forgets := ⟨[], rfl, fun _stamp _coming _old impossible => by cases impossible⟩
  ahead := fun _stamp _coming _old impossible => by cases impossible
  within := rates.within_nil

theorem bucket_sorted (traces : Traces bucket admitted future) : bucket.Sorted := by
  obtain ⟨forgotten, split, _⟩ := traces.forgets
  have sorted := traces.sorted
  rw [split] at sorted
  exact (List.pairwise_append.mp sorted).2.1

theorem narrow {fewer : Int → Prop} (traces : Traces bucket admitted future)
    (subset : ∀ stamp, fewer stamp → future stamp) : Traces bucket admitted fewer where
  weighty := traces.weighty
  sorted := traces.sorted
  forgets := by
    obtain ⟨forgotten, split, expired⟩ := traces.forgets
    exact ⟨forgotten, split, fun stamp coming => expired stamp (subset stamp coming)⟩
  ahead := fun stamp coming => traces.ahead stamp (subset stamp coming)
  within := traces.within

theorem room_iff (traces : Traces bucket admitted future) {stamp : Int} (coming : future stamp)
    (weight : Int) :
    Room bucket.rates.windows bucket.stamps stamp weight ↔
      Room bucket.rates.windows (units admitted) stamp weight := by
  obtain ⟨forgotten, split, expired⟩ := traces.forgets
  rw [split]
  symm
  apply room_append_iff_of_expired
  rw [RateList.forall_windows]
  intro rate member old present
  have outside := expired stamp coming old present
  have widest := bucket.rates.interval_le_last rate member
  simp only [leakBound] at outside
  simp only [Rate.window]
  omega

/-- A put stamped in `future` keeps the relation, with the item added to the
history exactly when it is admitted. -/
theorem put {item : RateItem} {later : Int → Prop} (traces : Traces bucket admitted future)
    (positive : 1 ≤ item.weight) (coming : future item.timestamp)
    (onward : ∀ stamp, later stamp → future stamp ∧ item.timestamp ≤ stamp) :
    Traces (bucket.put item).2
      (if (bucket.put item).1 then admitted ++ [item] else admitted) later := by
  have narrowed : Traces bucket admitted later :=
    traces.narrow (fun stamp next => (onward stamp next).1)
  rcases InMemoryBucket.put_cases traces.bucket_sorted item positive with
    ⟨room, outcome⟩ | ⟨rate, _refused, outcome⟩
  · rw [outcome]
    simp only [if_true]
    have grown : units (admitted ++ [item]) =
        units admitted ++ List.replicate item.weight.toNat item.timestamp := by
      rw [units_append, units_singleton]
    refine ⟨?_, ?_, ?_, ?_, ?_⟩
    · intro other member
      rcases List.mem_append.mp member with before | new
      · exact traces.weighty other before
      · rw [List.mem_singleton.mp new]
        exact positive
    · rw [grown]
      exact sorted_append_replicate traces.sorted (traces.ahead item.timestamp coming)
        item.weight.toNat
    · obtain ⟨forgotten, split, expired⟩ := narrowed.forgets
      refine ⟨forgotten, ?_, expired⟩
      rw [grown, split, InMemoryBucket.stamps, InMemoryBucket.stamps, List.map_append,
        InMemoryBucket.stamps_unitsOf item positive, List.append_assoc]
    · intro stamp next old member
      rw [grown] at member
      rcases List.mem_append.mp member with before | new
      · exact narrowed.ahead stamp next old before
      · rw [List.eq_of_mem_replicate new]
        exact (onward stamp next).2
    · rw [grown]
      exact traces.within.record ((traces.room_iff coming item.weight).mp room)
        item.weight.toNat (by omega)
  · rw [outcome]
    exact
      { weighty := narrowed.weighty
        sorted := narrowed.sorted
        forgets := narrowed.forgets
        ahead := narrowed.ahead
        within := narrowed.within }

/-- Leaking keeps the relation if what it removes is outside the widest window
of every stamp to come. -/
theorem leak (traces : Traces bucket admitted future) {now : Int}
    (harmless : ∀ stamp, future stamp → ∀ old, old ∈ bucket.stamps →
      old < leakBound bucket.rates now → old < leakBound bucket.rates stamp) :
    Traces (bucket.leak now).2 admitted future := by
  obtain ⟨removed, split, below⟩ := InMemoryBucket.leak_splits traces.bucket_sorted now
  obtain ⟨forgotten, history, expired⟩ := traces.forgets
  exact
    { weighty := traces.weighty
      sorted := traces.sorted
      forgets := by
        refine ⟨forgotten ++ removed, ?_, ?_⟩
        · rw [history, split, List.append_assoc]
        · intro stamp coming old member
          rw [InMemoryBucket.leak_rates]
          rcases List.mem_append.mp member with before | now
          · exact expired stamp coming old before
          · have present : old ∈ bucket.stamps := by
              rw [split]
              exact List.mem_append_left _ now
            exact harmless stamp coming old present (below old now)
      ahead := traces.ahead
      within := by
        rw [InMemoryBucket.leak_rates]
        exact traces.within }

theorem leak_of_le (traces : Traces bucket admitted future) {now : Int}
    (current : ∀ stamp, future stamp → now ≤ stamp) :
    Traces (bucket.leak now).2 admitted future := by
  apply traces.leak
  intro stamp coming old _present expired
  have reached := current stamp coming
  simp only [leakBound] at expired ⊢
  omega

theorem flush (bucket : InMemoryBucket) : Traces bucket.flush [] future where
  weighty := fun _item impossible => by cases impossible
  sorted := .nil
  forgets := ⟨[], rfl, fun _stamp _coming _old impossible => by cases impossible⟩
  ahead := fun _stamp _coming _old impossible => by cases impossible
  within := bucket.rates.within_nil

theorem weightBetween_le (traces : Traces bucket admitted future) (rate : Rate)
    (member : rate ∈ bucket.rates) (finish : Int) :
    weightBetween admitted (finish - rate.interval) finish ≤ rate.limit := by
  rw [weightBetween_eq traces.weighty]
  exact RateList.forall_windows.mp traces.within rate member finish

theorem put_admits_iff {item : RateItem} (traces : Traces bucket admitted future)
    (positive : 1 ≤ item.weight) (coming : future item.timestamp) :
    (bucket.put item).1 = true ↔
      ∀ rate, rate ∈ bucket.rates →
        weightSince admitted (item.timestamp - rate.interval) + item.weight ≤ rate.limit := by
  rw [InMemoryBucket.put_admits_iff traces.bucket_sorted item positive,
    traces.room_iff coming item.weight]
  unfold Room
  rw [RateList.forall_windows]
  constructor
  · intro room rate member
    rw [weightSince_eq traces.weighty]
    exact room rate member
  · intro room rate member
    have fits := room rate member
    rw [weightSince_eq traces.weighty] at fits
    exact fits

end Traces

/-! ### Runs of a single caller -/

inductive BucketCall where
  | put (item : RateItem)
  | leak (currentTimestamp : Int)
  | flush
  deriving DecidableEq, Repr

/-- A bucket together with the items admitted since its last flush. -/
structure Observed where
  bucket : InMemoryBucket
  admitted : List RateItem

def Observed.call (observed : Observed) : BucketCall → Observed
  | .put item =>
      { bucket := (observed.bucket.put item).2
        admitted :=
          if (observed.bucket.put item).1 then observed.admitted ++ [item]
          else observed.admitted }
  | .leak currentTimestamp =>
      { observed with bucket := (observed.bucket.leak currentTimestamp).2 }
  | .flush =>
      { bucket := observed.bucket.flush
        admitted := [] }

def Observed.run (observed : Observed) (calls : List BucketCall) : Observed :=
  calls.foldl Observed.call observed

def Observed.start (rates : RateList) : Observed :=
  { bucket := InMemoryBucket.empty rates
    admitted := [] }

/-- Put timestamps do not decrease, and no put precedes an earlier leak. -/
def BucketCall.Precedes : BucketCall → BucketCall → Prop
  | .put earlier, .put later => earlier.timestamp ≤ later.timestamp
  | .leak currentTimestamp, .put later => currentTimestamp ≤ later.timestamp
  | _, _ => True

/-- The runs a rate limiter is used in: stamped by a clock that does not go
back, with weights of at least one. -/
structure Orderly (calls : List BucketCall) : Prop where
  ordered : calls.Pairwise BucketCall.Precedes
  weighty : ∀ item, BucketCall.put item ∈ calls → 1 ≤ item.weight

def putStamps (calls : List BucketCall) (stamp : Int) : Prop :=
  ∃ item, BucketCall.put item ∈ calls ∧ item.timestamp = stamp

theorem Orderly.tail {call : BucketCall} {rest : List BucketCall}
    (orderly : Orderly (call :: rest)) : Orderly rest where
  ordered := (List.pairwise_cons.mp orderly.ordered).2
  weighty := fun item member => orderly.weighty item (List.mem_cons_of_mem call member)

@[simp] theorem Observed.call_rates (observed : Observed) (call : BucketCall) :
    (observed.call call).bucket.rates = observed.bucket.rates := by
  cases call with
  | put item => exact InMemoryBucket.put_rates _ _
  | leak currentTimestamp => exact InMemoryBucket.leak_rates _ _
  | flush => rfl

theorem Traces.call {observed : Observed} {call : BucketCall} {rest : List BucketCall}
    (orderly : Orderly (call :: rest))
    (traces : Traces observed.bucket observed.admitted (putStamps (call :: rest))) :
    Traces (observed.call call).bucket (observed.call call).admitted (putStamps rest) := by
  have following := (List.pairwise_cons.mp orderly.ordered).1
  have remaining : ∀ stamp, putStamps rest stamp → putStamps (call :: rest) stamp := by
    rintro stamp ⟨item, member, same⟩
    exact ⟨item, List.mem_cons_of_mem call member, same⟩
  cases call with
  | put item =>
      apply traces.put (orderly.weighty item List.mem_cons_self)
      · exact ⟨item, List.mem_cons_self, rfl⟩
      · rintro stamp ⟨later, member, same⟩
        refine ⟨remaining stamp ⟨later, member, same⟩, ?_⟩
        rw [← same]
        exact following (.put later) member
  | leak currentTimestamp =>
      apply (traces.narrow remaining).leak_of_le
      rintro stamp ⟨later, member, same⟩
      rw [← same]
      exact following (.put later) member
  | flush => exact Traces.flush observed.bucket

/-- Every prefix of an orderly run keeps the history traced for what follows. -/
theorem Traces.run {observed : Observed} {done rest : List BucketCall}
    (orderly : Orderly (done ++ rest))
    (traces : Traces observed.bucket observed.admitted (putStamps (done ++ rest))) :
    Traces (observed.run done).bucket (observed.run done).admitted (putStamps rest) := by
  induction done generalizing observed with
  | nil => exact traces
  | cons call tail ih => exact ih orderly.tail (traces.call orderly)

theorem Observed.run_rates (observed : Observed) (calls : List BucketCall) :
    (observed.run calls).bucket.rates = observed.bucket.rates := by
  induction calls generalizing observed with
  | nil => rfl
  | cons call rest ih =>
      change ((observed.call call).run rest).bucket.rates = observed.bucket.rates
      rw [ih, Observed.call_rates]

/-- In an orderly run every put is decided by the whole admitted history, leaked
or not, and so no window of any rate ever holds more than its limit. -/
theorem orderly_run_enforces_rates (rates : RateList) (calls : List BucketCall)
    (orderly : Orderly calls) :
    (∀ done item rest, calls = done ++ BucketCall.put item :: rest →
      ((((Observed.start rates).run done).bucket.put item).1 = true ↔
        ∀ rate, rate ∈ rates →
          weightSince ((Observed.start rates).run done).admitted
            (item.timestamp - rate.interval) + item.weight ≤ rate.limit)) ∧
      ∀ done rest, calls = done ++ rest → ∀ rate, rate ∈ rates → ∀ finish,
        weightBetween ((Observed.start rates).run done).admitted
          (finish - rate.interval) finish ≤ rate.limit := by
  have start : Traces (Observed.start rates).bucket (Observed.start rates).admitted
      (putStamps calls) := Traces.empty rates
  constructor
  · intro done item rest split
    rw [split] at orderly start
    have traces := Traces.run orderly start
    have verdict := traces.put_admits_iff
      (orderly.weighty item (List.mem_append_right _ List.mem_cons_self))
      ⟨item, List.mem_cons_self, rfl⟩
    rw [Observed.run_rates] at verdict
    exact verdict
  · intro done rest split rate member finish
    rw [split] at orderly start
    have traces := Traces.run orderly start
    apply traces.weightBetween_le
    rw [Observed.run_rates]
    exact member

theorem orderly_run_enforces_rates_leaked :
    Orderly [.put ⟨"first", 0, 1⟩, .leak 101, .put ⟨"second", 101, 1⟩] ∧
      ∀ rate, rate ∈ oneRequestIn100 → ∀ finish,
        weightBetween ((Observed.start oneRequestIn100).run
          [.put ⟨"first", 0, 1⟩, .leak 101, .put ⟨"second", 101, 1⟩]).admitted
            (finish - rate.interval) finish ≤ rate.limit := by
  have orderly : Orderly [.put ⟨"first", 0, 1⟩, .leak 101, .put ⟨"second", 101, 1⟩] :=
    { ordered := by simp [BucketCall.Precedes]
      weighty := by simp }
  exact ⟨orderly, (orderly_run_enforces_rates oneRequestIn100 _ orderly).2 _ []
    (List.append_nil _).symm⟩

end PyrateLimiter

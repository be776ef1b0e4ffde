/-
What the bucket of a limiter is for: a history of admitted items that nothing forgets.

Every bucket of the library keeps a log of time stamps, and forgets stamps as it leaks.
The history keeps the admitted items themselves and decides by all of them; its wait is
the shortest delay after which the refusing rate has room.  A backend whose log counts
what the history counts, in every window of a put that comes after the leaks, is
simulated by it.  The margin of a backend is how much later than a leak such a put has to be.
-/

import Mathlib.Data.List.Find
import Mathlib.Order.Lattice.Nat
import PyrateLimiter.AdmittedHistory
import PyrateLimiter.BucketSimulation

namespace PyrateLimiter

open Foundations.WindowLog

/-! ### The shortest delay -/

/-- After how many milliseconds the window of a rate has room for an item. -/
noncomputable def shortestDelay (log : List Int) (rate : Rate) (item : RateItem) : Int :=
  (sInf {delay : Nat |
    (countSince log (item.timestamp + delay - rate.interval) : Int) + item.weight ≤ rate.limit} :
      Nat)

theorem shortestDelay_eq {log : List Int} {rate : Rate} {item : RateItem} {milliseconds : Int}
    (full : rate.limit < (countSince log (item.timestamp - rate.interval) : Int) + item.weight)
    (least : ∀ delay, 0 ≤ delay →
      ((countSince log (item.timestamp + delay - rate.interval) : Int) + item.weight ≤
        rate.limit ↔ milliseconds ≤ delay)) : shortestDelay log rate item = milliseconds := by
  have positive : 0 < milliseconds := by
    apply Int.not_le.mp
    intro ready
    have room := (least 0 (Int.le_refl 0)).mpr ready
    rw [Int.add_zero] at room
    omega
  have members : {delay : Nat |
      (countSince log (item.timestamp + delay - rate.interval) : Int) + item.weight ≤
        rate.limit} = Set.Ici milliseconds.toNat := by
    ext delay
    rw [Set.mem_ofPred_eq, Set.mem_Ici, least delay (Int.natCast_nonneg delay)]
    omega
  unfold shortestDelay
  rw [members, csInf_Ici]
  omega

/-! ### The history -/

/-- The items admitted since the last flush, and when leaks ran since then. -/
structure HistoryBucket where
  rates : RateList
  admitted : List RateItem
  failingRate : Option Rate
  leakedAt : List Int

namespace HistoryBucket

def empty (rates : RateList) : HistoryBucket :=
  { rates := rates
    admitted := []
    failingRate := none
    leakedAt := [] }

def put (history : HistoryBucket) (item : RateItem) : Bool × HistoryBucket :=
  match history.rates.refusing (units history.admitted) item.timestamp item.weight with
  | some rate => (false, { history with failingRate := some rate })
  | none => (true, { history with failingRate := none, admitted := history.admitted ++ [item] })

noncomputable def waiting (history : HistoryBucket) (item : RateItem) : Except PyError Int :=
  match history.failingRate with
  | none => .ok 0
  | some rate =>
      if rate.limit < item.weight then .ok (-1)
      else .ok (shortestDelay (units history.admitted) rate item)

noncomputable def ops : BucketOps HistoryBucket :=
  { failingRate := failingRate
    put := put
    waiting := waiting }

def leak (history : HistoryBucket) (now : Int) : HistoryBucket :=
  { history with leakedAt := history.leakedAt ++ [now] }

def flush (history : HistoryBucket) : HistoryBucket := empty history.rates

/-- The clock stands at or after every admitted item, and far enough after every leak. -/
structure Ready (margin : Int) (history : HistoryBucket) (stamp : Int) : Prop where
  newest : ∀ old, old ∈ units history.admitted → old ≤ stamp
  leaked : ∀ now, now ∈ history.leakedAt → now + margin ≤ stamp

theorem Ready.later {margin : Int} {history : HistoryBucket} {stamp late : Int}
    (ready : history.Ready margin stamp) (ordered : stamp ≤ late) : history.Ready margin late where
  newest := fun old member => Int.le_trans (ready.newest old member) ordered
  leaked := fun now member => Int.le_trans (ready.leaked now member) ordered

theorem put_refused {history : HistoryBucket} {item : RateItem} {rate : Rate}
    (refusing : history.rates.refusing (units history.admitted) item.timestamp item.weight =
      some rate) : history.put item = (false, { history with failingRate := some rate }) := by
  unfold put
  rw [refusing]

theorem put_admitted {history : HistoryBucket} {item : RateItem}
    (spacious : history.rates.refusing (units history.admitted) item.timestamp item.weight =
      none) :
    history.put item =
      (true, { history with failingRate := none, admitted := history.admitted ++ [item] }) := by
  unfold put
  rw [spacious]

theorem put_admits_iff (history : HistoryBucket) (item : RateItem) :
    (history.put item).1 = true ↔
      Room history.rates.windows (units history.admitted) item.timestamp item.weight := by
  rw [← RateList.refusing_eq_none_iff]
  unfold put
  cases history.rates.refusing (units history.admitted) item.timestamp item.weight <;> simp

@[simp] theorem put_leakedAt (history : HistoryBucket) (item : RateItem) :
    (history.put item).2.leakedAt = history.leakedAt := by
  unfold put
  split <;> rfl

@[simp] theorem put_rates (history : HistoryBucket) (item : RateItem) :
    (history.put item).2.rates = history.rates := by
  unfold put
  split <;> rfl

theorem admitted_put (history : HistoryBucket) (item : RateItem) :
    (history.put item).2.admitted =
      if (history.put item).1 then history.admitted ++ [item] else history.admitted := by
  unfold put
  split <;> rfl

theorem units_put (history : HistoryBucket) (item : RateItem) :
    units (history.put item).2.admitted =
      units history.admitted ++
        if (history.put item).1 then List.replicate item.weight.toNat item.timestamp else [] := by
  cases refusing : history.rates.refusing (units history.admitted) item.timestamp
      item.weight with
  | some rate =>
      rw [put_refused refusing]
      exact (List.append_nil _).symm
  | none =>
      rw [put_admitted refusing]
      exact (units_append _ _).trans (congrArg _ (units_singleton item))

theorem Ready.put {margin : Int} {history : HistoryBucket} {item : RateItem}
    (ready : history.Ready margin item.timestamp) :
    (history.put item).2.Ready margin item.timestamp where
  newest := by
    rw [units_put]
    intro old member
    rcases List.mem_append.mp member with present | added
    · exact ready.newest old present
    · split at added
      · exact Int.le_of_eq (List.eq_of_mem_replicate added)
      · cases added
  leaked := by
    rw [put_leakedAt]
    exact ready.leaked

/-- Whatever the stamps of its items, no window of the history is ever over its limit. -/
theorem put_within {history : HistoryBucket}
    (within : Within history.rates.windows (units history.admitted)) {item : RateItem}
    (positive : 1 ≤ item.weight) :
    Within (history.put item).2.rates.windows (units (history.put item).2.admitted) := by
  rw [put_rates, units_put]
  cases refusing : history.rates.refusing (units history.admitted) item.timestamp
      item.weight with
  | some rate =>
      rw [put_refused refusing]
      rw [show (if (false, { history with failingRate := some rate }).1 = true then
        List.replicate item.weight.toNat item.timestamp else []) = [] from rfl, List.append_nil]
      exact within
  | none =>
      rw [put_admitted refusing]
      exact within.record (RateList.refusing_eq_none_iff.mp refusing) item.weight.toNat (by omega)

end HistoryBucket

/-! ### Backends -/

/-- A bucket behind a limiter, with what the leaker and its user do to it. -/
structure Backend (Store : Type) where
  ops : BucketOps Store
  leak : Store → Int → Store
  flush : Store → Store

/-- The backend keeps a log of stamps, decides puts by the counts of the log and answers the
wait that the log calls for.  Its leaks take away only stamps before the leak bound at most
the margin later. -/
structure Backend.Logs {Store : Type} (backend : Backend Store) (rates : RateList) (margin : Int)
    (log : Store → List Int) (sound : Store → Prop) : Prop where
  refused : ∀ {store : Store} {item : RateItem} {rate : Rate}, sound store →
    (log store).Pairwise (· ≤ ·) → (∀ old, old ∈ log store → old ≤ item.timestamp) →
      1 ≤ item.weight → rates.refusing (log store) item.timestamp item.weight = some rate →
        (backend.ops.put store item).1 = false ∧
          backend.ops.failingRate (backend.ops.put store item).2 = some rate ∧
          log (backend.ops.put store item).2 = log store ∧ sound (backend.ops.put store item).2
  admitted : ∀ {store : Store} {item : RateItem}, sound store →
    (log store).Pairwise (· ≤ ·) → (∀ old, old ∈ log store → old ≤ item.timestamp) →
      1 ≤ item.weight → rates.refusing (log store) item.timestamp item.weight = none →
        (backend.ops.put store item).1 = true ∧
          log (backend.ops.put store item).2 =
            log store ++ List.replicate item.weight.toNat item.timestamp ∧
          sound (backend.ops.put store item).2
  heavy : ∀ {store : Store} {item : RateItem} {rate : Rate},
    backend.ops.failingRate store = some rate → 1 ≤ item.weight → rate.limit < item.weight →
      backend.ops.waiting store item = .ok (-1)
  waits : ∀ {store : Store} {item : RateItem} {rate : Rate}, sound store →
    (log store).Pairwise (· ≤ ·) → backend.ops.failingRate store = some rate →
      1 ≤ item.weight → item.weight ≤ rate.limit →
        ∃ milliseconds, backend.ops.waiting store item = .ok milliseconds ∧
          ∀ delay, 0 ≤ delay →
            ((countSince (log store) (item.timestamp + delay - rate.interval) : Int) +
              item.weight ≤ rate.limit ↔ milliseconds ≤ delay)
  leaks : ∀ {store : Store} (now : Int), sound store → (log store).Pairwise (· ≤ ·) →
    sound (backend.leak store now) ∧ (log (backend.leak store now)).Sublist (log store) ∧
      ∀ start, leakBound rates (now + margin) ≤ start →
        countSince (log (backend.leak store now)) start = countSince (log store) start
  leakNames : ∀ {store : Store} (now : Int), sound store → (log store).Pairwise (· ≤ ·) →
    backend.ops.failingRate (backend.leak store now) = backend.ops.failingRate store
  flushes : ∀ {store : Store}, sound store →
    sound (backend.flush store) ∧ log (backend.flush store) = []

theorem Backend.Logs.widen {Store : Type} {backend : Backend Store} {rates : RateList}
    {margin wider : Int} {log : Store → List Int} {sound : Store → Prop}
    (logs : backend.Logs rates margin log sound) (wide : margin ≤ wider) :
    backend.Logs rates wider log sound :=
  { logs with
    leaks := by
      intro store now soundStore sorted
      obtain ⟨soundAfter, part, counted⟩ := logs.leaks now soundStore sorted
      refine ⟨soundAfter, part, fun start reached => counted start ?_⟩
      unfold leakBound at reached ⊢
      omega }

section Remembers

variable {Store : Type} {backend : Backend Store} {rates : RateList} {margin : Int}
  {log : Store → List Int} {sound : Store → Prop}

/-- The log is what is left of the history, and counts as much in the windows to come. -/
structure Remembers (rates : RateList) (margin : Int) (log : Store → List Int)
    (sound : Store → Prop) (store : Store) (history : HistoryBucket) : Prop where
  sound : sound store
  rates_eq : history.rates = rates
  sorted : (units history.admitted).Pairwise (· ≤ ·)
  part : (log store).Sublist (units history.admitted)
  counts : ∀ stamp, (∀ now, now ∈ history.leakedAt → now + margin ≤ stamp) →
    ∀ rate, rate ∈ rates →
      countSince (log store) (stamp - rate.interval) =
        countSince (units history.admitted) (stamp - rate.interval)

namespace Remembers

variable {store : Store} {history : HistoryBucket}

theorem log_sorted (remembers : Remembers rates margin log sound store history) :
    (log store).Pairwise (· ≤ ·) :=
  remembers.sorted.sublist remembers.part

theorem newest (remembers : Remembers rates margin log sound store history) {stamp : Int}
    (ready : history.Ready margin stamp) : ∀ old, old ∈ log store → old ≤ stamp :=
  fun old member => ready.newest old (remembers.part.subset member)

theorem refusing_eq (remembers : Remembers rates margin log sound store history) {stamp : Int}
    (ready : history.Ready margin stamp) (weight : Int) :
    history.rates.refusing (units history.admitted) stamp weight =
      rates.refusing (log store) stamp weight := by
  rw [remembers.rates_eq]
  unfold RateList.refusing
  apply List.find?_congr
  intro rate member
  unfold Rate.overfull
  rw [remembers.counts stamp ready.leaked rate member]

theorem of_empty (empty : log store = []) (soundStore : sound store) :
    Remembers rates margin log sound store (.empty rates) where
  sound := soundStore
  rates_eq := rfl
  sorted := .nil
  part := by
    rw [empty]
    exact List.Sublist.refl _
  counts := fun _stamp _leaked _rate _member => by
    rw [empty]
    rfl

theorem renamed {other : HistoryBucket}
    (remembers : Remembers rates margin log sound store history) (sameRates : other.rates = rates)
    (sameAdmitted : other.admitted = history.admitted)
    (sameLeaks : other.leakedAt = history.leakedAt) :
    Remembers rates margin log sound store other where
  sound := remembers.sound
  rates_eq := sameRates
  sorted := by rw [sameAdmitted]; exact remembers.sorted
  part := by rw [sameAdmitted]; exact remembers.part
  counts := by rw [sameAdmitted, sameLeaks]; exact remembers.counts

/-- One put: the same verdict, and if it is a refusal by the same rate. -/
theorem put (logs : backend.Logs rates margin log sound)
    (remembers : Remembers rates margin log sound store history) {item : RateItem}
    (ready : history.Ready margin item.timestamp) (positive : 1 ≤ item.weight) :
    (backend.ops.put store item).1 = (history.put item).1 ∧
      Remembers rates margin log sound (backend.ops.put store item).2 (history.put item).2 ∧
      ((history.put item).1 = false → ∃ rate, rate ∈ rates ∧
        backend.ops.failingRate (backend.ops.put store item).2 = some rate ∧
        (history.put item).2.failingRate = some rate ∧
        rate.limit < (countSince (units (history.put item).2.admitted)
          (item.timestamp - rate.interval) : Int) + item.weight) := by
  have sorted := remembers.log_sorted
  have newest := remembers.newest ready
  have decided := remembers.refusing_eq ready item.weight
  cases refusing : rates.refusing (log store) item.timestamp item.weight with
  | some rate =>
      rw [refusing] at decided
      obtain ⟨verdict, failing, same, soundAfter⟩ :=
        logs.refused remembers.sound sorted newest positive refusing
      have full := (RateList.refusing_spec decided).1
      have member := RateList.refusing_mem decided
      rw [remembers.rates_eq] at member
      rw [HistoryBucket.put_refused decided]
      refine ⟨verdict, ?_, fun _refused => ⟨rate, member, failing, rfl, full⟩⟩
      exact
        { sound := soundAfter
          rates_eq := remembers.rates_eq
          sorted := remembers.sorted
          part := by
            rw [same]
            exact remembers.part
          counts := by
            rw [same]
            exact remembers.counts }
  | none =>
      rw [refusing] at decided
      obtain ⟨verdict, grown, soundAfter⟩ :=
        logs.admitted remembers.sound sorted newest positive refusing
      have grownHistory : units (history.admitted ++ [item]) =
          units history.admitted ++ List.replicate item.weight.toNat item.timestamp := by
        rw [units_append, units_singleton]
      rw [HistoryBucket.put_admitted decided]
      refine ⟨verdict, ?_, fun impossible => by cases impossible⟩
      exact
        { sound := soundAfter
          rates_eq := remembers.rates_eq
          sorted := by
            rw [grownHistory]
            exact sorted_append_replicate remembers.sorted ready.newest item.weight.toNat
          part := by
            rw [grown, grownHistory]
            exact remembers.part.append (List.Sublist.refl _)
          counts := by
            intro stamp leaked rate member
            rw [grown, grownHistory, countSince_append, countSince_append,
              remembers.counts stamp leaked rate member] }

theorem leak (logs : backend.Logs rates margin log sound)
    (remembers : Remembers rates margin log sound store history) (now : Int) :
    Remembers rates margin log sound (backend.leak store now) (history.leak now) := by
  obtain ⟨soundAfter, part, counted⟩ := logs.leaks now remembers.sound remembers.log_sorted
  exact
    { sound := soundAfter
      rates_eq := remembers.rates_eq
      sorted := remembers.sorted
      part := part.trans remembers.part
      counts := by
        intro stamp leaked rate member
        have reached : now + margin ≤ stamp :=
          leaked now (List.mem_append_right _ (List.mem_singleton.mpr rfl))
        have widest := rates.interval_le_last rate member
        have bound : leakBound rates (now + margin) ≤ stamp - rate.interval := by
          unfold leakBound
          omega
        rw [counted _ bound]
        exact remembers.counts stamp
          (fun earlier present => leaked earlier (List.mem_append_left _ present)) rate member }

theorem flush (logs : backend.Logs rates margin log sound)
    (remembers : Remembers rates margin log sound store history) :
    Remembers rates margin log sound (backend.flush store) history.flush := by
  obtain ⟨soundAfter, empty⟩ := logs.flushes remembers.sound
  unfold HistoryBucket.flush
  rw [remembers.rates_eq]
  exact of_empty empty soundAfter

/-- The wait for a rate that is full for an item stamped after the leaks. -/
theorem waiting (logs : backend.Logs rates margin log sound)
    (remembers : Remembers rates margin log sound store history) {item : RateItem} {rate : Rate}
    (member : rate ∈ rates) (failing : backend.ops.failingRate store = some rate)
    (failingHistory : history.failingRate = some rate)
    (full : rate.limit < (countSince (units history.admitted) (item.timestamp - rate.interval) :
      Int) + item.weight)
    (leaked : ∀ now, now ∈ history.leakedAt → now + margin ≤ item.timestamp)
    (positive : 1 ≤ item.weight) : backend.ops.waiting store item = history.waiting item := by
  unfold HistoryBucket.waiting
  rw [failingHistory]
  by_cases heavy : rate.limit < item.weight
  · simp only [if_pos heavy]
    exact logs.heavy failing positive heavy
  · simp only [if_neg heavy]
    obtain ⟨milliseconds, answered, least⟩ :=
      logs.waits remembers.sound remembers.log_sorted failing positive (Int.not_lt.mp heavy)
    rw [answered, shortestDelay_eq full]
    intro delay nonneg
    rw [← least delay nonneg, remembers.counts (item.timestamp + delay)
      (fun now present => Int.le_trans (leaked now present) (by omega)) rate member]

end Remembers

/-- A limiter cannot tell a backend from the history of what the backend has admitted. -/
theorem Backend.Logs.simulates (logs : backend.Logs rates margin log sound) :
    Simulates backend.ops HistoryBucket.ops (HistoryBucket.Ready margin)
      (Remembers rates margin log sound) where
  later := HistoryBucket.Ready.later
  stays := HistoryBucket.Ready.put
  acquired := fun remembers ready positive => (remembers.put logs ready positive).1
  put := fun remembers ready positive => (remembers.put logs ready positive).2.1
  named := by
    intro store history item remembers ready positive refused
    obtain ⟨_same, _after, named⟩ := remembers.put logs ready positive
    obtain ⟨rate, _member, failing, failingHistory, _full⟩ := named refused
    change _ = ((history.put item).2.failingRate).isSome
    rw [failing, failingHistory]
  waiting := by
    intro store history item remembers ready positive refused
    obtain ⟨_same, after, named⟩ := remembers.put logs ready positive
    obtain ⟨rate, member, failing, failingHistory, full⟩ := named refused
    exact after.waiting logs member failing failingHistory full ready.put.leaked positive

end Remembers

end PyrateLimiter

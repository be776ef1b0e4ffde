/-
Termination and punctuality of the blocking loop on an undisturbed bucket.

The measure is not in the code: every refusal is by a rate with a longer
interval than the one before, because the planned sleep is exactly what the
refusing rate asks for and waiting never takes room away from a shorter one.
So the rates with a longer interval than the refusing one bound the sleeps that
are still to come.
-/

import Mathlib.Tactic.Ring
import PyrateLimiter.Limiter

namespace PyrateLimiter

open Foundations.WindowLog

/-! ### Reading a trace -/

section Traces

variable {Bucket : Type}

def sleeps (events : List (Event Bucket)) : List ℚ :=
  events.filterMap (fun event =>
    match event with
    | .slept seconds => some seconds
    | .put _ _ _ => none)

/-- The failing rate each refused put left behind. -/
def refusals (ops : BucketOps Bucket) (events : List (Event Bucket)) : List (Option Rate) :=
  events.filterMap (fun event =>
    match event with
    | .put _ false bucket => some (ops.failingRate bucket)
    | _ => none)

def admittedItems (events : List (Event Bucket)) : List RateItem :=
  events.filterMap (fun event =>
    match event with
    | .put item true _ => some item
    | _ => none)

end Traces

namespace InMemoryBucket

/-! ### What an undisturbed wait reaches -/

def recorded (bucket : InMemoryBucket) (item : RateItem) : InMemoryBucket :=
  { bucket with failingRate := none, items := bucket.items ++ unitsOf item }

/-- The rates a refusal by `rate` can still be followed by. -/
def longerRates (rates : RateList) (rate : Rate) : Nat :=
  rates.toList.countP (fun other => rate.interval < other.interval)

theorem longerRates_lt {rates : RateList} {rate : Rate} (member : rate ∈ rates) :
    longerRates rates rate < rates.toList.length := by
  apply lt_of_le_of_ne List.countP_le_length
  intro all
  have itself := List.countP_eq_length.mp all rate member
  simp only [decide_eq_true_eq] at itself
  exact absurd itself (Int.lt_irrefl _)

theorem longerRates_decreases {rates : RateList} {rate later : Rate} (member : later ∈ rates)
    (longer : rate.interval < later.interval) :
    longerRates rates later < longerRates rates rate := by
  have part : ∀ other : Rate, decide (later.interval < other.interval) = true →
      decide (rate.interval < other.interval) = true := by
    intro other further
    simp only [decide_eq_true_eq] at further ⊢
    omega
  apply lt_of_le_of_ne (List.countP_mono_left (fun other _present => part other))
  intro same
  -- Both counts are lengths of filtered lists; `later` is in only one of them.
  have filtered : rates.toList.filter (fun other => later.interval < other.interval) =
      rates.toList.filter (fun other => rate.interval < other.interval) := by
    apply List.Sublist.eq_of_length
    · exact List.monotone_filter_right rates.toList part
    · rw [← List.countP_eq_length_filter, ← List.countP_eq_length_filter]
      exact same
  have present : later ∈ rates.toList.filter
      (fun other => rate.interval < other.interval) :=
    List.mem_filter.mpr ⟨member, decide_eq_true longer⟩
  rw [← filtered] at present
  exact absurd (of_decide_eq_true (List.mem_filter.mp present).2) (Int.lt_irrefl _)

/-- After the planned sleep the refusing rate and all shorter ones have room. -/
theorem refusal_after_wait {bucket : InMemoryBucket} (sorted : bucket.Sorted)
    {item : RateItem} {rate : Rate} (failing : bucket.failingRate = some rate)
    (refused : bucket.rates.refusing bucket.stamps item.timestamp item.weight = some rate)
    (positive : 1 ≤ item.weight) (fits : item.weight ≤ rate.limit) :
    ∃ milliseconds, bucket.waiting item = .ok milliseconds ∧ 1 ≤ milliseconds ∧
      (∀ stamp, item.timestamp ≤ stamp → stamp < item.timestamp + milliseconds →
        ¬Room bucket.rates.windows bucket.stamps stamp item.weight) ∧
      ∀ delay, milliseconds ≤ delay → ∀ later,
        bucket.rates.refusing bucket.stamps (item.timestamp + delay) item.weight = some later →
          rate.interval < later.interval := by
  obtain ⟨full, shorterFit⟩ := RateList.refusing_spec refused
  have rateMember := RateList.refusing_mem refused
  obtain ⟨milliseconds, answered, exact⟩ := waiting_spec sorted item failing positive fits
  have atOnce := exact 0 (Int.le_refl 0)
  rw [Int.add_zero] at atOnce
  refine ⟨milliseconds, answered, by omega, ?_, ?_⟩
  · intro stamp reached early room
    have inWindow := RateList.forall_windows.mp room rate rateMember
    have waited := (exact (stamp - item.timestamp) (by omega)).mp (by
      have same : item.timestamp + (stamp - item.timestamp) = stamp := by omega
      rw [same]
      exact inWindow)
    omega
  · intro delay enough later refusedLater
    obtain ⟨fullLater, _⟩ := RateList.refusing_spec refusedLater
    have laterMember := RateList.refusing_mem refusedLater
    apply Int.not_le.mp
    intro notLonger
    rcases Int.lt_or_eq_of_le notLonger with shorter | same
    · have before := shorterFit later laterMember shorter
      have fewer := countSince_antitone bucket.stamps
        (show item.timestamp - later.interval ≤ item.timestamp + delay - later.interval by omega)
      omega
    · -- Intervals are strictly increasing, so this is the refusing rate itself.
      have sameRate := RateList.eq_of_interval_eq laterMember rateMember same
      rw [sameRate] at fullLater
      have room := (exact delay (by omega)).mpr enough
      omega

/-! ### The loop -/

/-- How a blocking acquire ends: the refusals it meets are by ever longer rates,
and the item is recorded, with no buffer at the first admissible millisecond. -/
structure EndsAdmitted (bufferMs : Nat) (world final : World InMemoryBucket) (item : RateItem)
    (events : List (Event InMemoryBucket)) (failing : List Rate) (stamp : Int) : Prop where
  events_eq : final.events = world.events ++ events
  bucket_eq : final.bucket = world.bucket.recorded { item with timestamp := stamp }
  reached : item.timestamp ≤ stamp
  room : Room world.bucket.rates.windows world.bucket.stamps stamp item.weight
  failing_eq : refusals ops events = failing.map some
  admitted_eq : admittedItems events = [{ item with timestamp := stamp }]
  slept_eq : final.monotonic = world.monotonic + ((stamp - item.timestamp : Int) : ℚ) / 1000
  longer : failing.Pairwise (fun left right => left.interval < right.interval)
  least : bufferMs = 0 → ∀ earlier, item.timestamp ≤ earlier → earlier < stamp →
    ¬Room world.bucket.rates.windows world.bucket.stamps earlier item.weight

/-- The loop after a refusal by `rate`: every further refusal is by a rate with a
longer interval, and one sleep precedes each put. -/
theorem blockingRetrySync_ends (bufferMs turns : Nat) (world : World InMemoryBucket)
    (item : RateItem) {rate : Rate} {waitMs : Int} (sorted : world.bucket.Sorted)
    (failing : world.bucket.failingRate = some rate)
    (refused : world.bucket.rates.refusing world.bucket.stamps item.timestamp item.weight =
      some rate)
    (positive : 1 ≤ item.weight) (fits : item.weight ≤ world.bucket.rates.first.limit)
    (answered : world.bucket.waiting item = .ok waitMs)
    (enough : longerRates world.bucket.rates rate < turns) :
    ∃ (final : World InMemoryBucket) (events : List (Event InMemoryBucket))
        (further : List Rate) (stamp : Int),
      blockingRetrySync ops bufferMs none turns world item waitMs =
        some (final, .returned true) ∧
      EndsAdmitted bufferMs world final item events further stamp ∧
      (∀ later, later ∈ further → rate.interval < later.interval) ∧
      (sleeps events).length = further.length + 1 ∧
      further.length ≤ longerRates world.bucket.rates rate := by
  induction turns generalizing world item rate waitMs with
  | zero => exact absurd enough (Nat.not_lt_zero _)
  | succ turns ih =>
      have rateMember := RateList.refusing_mem refused
      have rateFits := Int.le_trans fits (world.bucket.rates.first_limit_le rate rateMember)
      obtain ⟨milliseconds, again, waits, early, onward⟩ :=
        refusal_after_wait sorted failing refused positive rateFits
      rw [answered] at again
      cases again
      let sleepMs := waitMs + (bufferMs : Int)
      let retried := item.delay sleepMs
      have moved : retried.timestamp = item.timestamp + (waitMs + (bufferMs : Int)) := rfl
      -- With a buffer of zero, no millisecond before the retry was admissible.
      have least : bufferMs = 0 → ∀ earlier, item.timestamp ≤ earlier →
          earlier < retried.timestamp →
            ¬Room world.bucket.rates.windows world.bucket.stamps earlier item.weight := by
        intro unbuffered earlier reached before
        apply early earlier reached
        rw [unbuffered] at moved
        omega
      rcases put_cases sorted retried positive with
        ⟨room, outcome⟩ | ⟨later, refusedLater, outcome⟩
      · refine ⟨world.retried sleepMs item true (world.bucket.recorded retried),
          [.slept ((sleepMs : ℚ) / 1000), .put retried true (world.bucket.recorded retried)],
          [], retried.timestamp,
          blockingRetrySync_of_admitted turns (by omega) outcome, ?_, ?_, rfl, Nat.zero_le _⟩
        · exact
            { events_eq := rfl
              bucket_eq := rfl
              reached := by omega
              room := room
              failing_eq := rfl
              admitted_eq := rfl
              slept_eq := by
                rw [moved, add_sub_cancel_left]
                rfl
              longer := .nil
              least := least }
        · intro later impossible
          cases impossible
      · have laterMember : later ∈ world.bucket.rates := RateList.refusing_mem refusedLater
        have longer : rate.interval < later.interval :=
          onward sleepMs (by omega) later refusedLater
        have shrinks := longerRates_decreases laterMember longer
        let refusedBucket := { world.bucket with failingRate := some later }
        let next := world.retried sleepMs item false refusedBucket
        have nextSorted : next.bucket.Sorted := sorted
        have nextFailing : next.bucket.failingRate = some later := rfl
        have laterFits : retried.weight ≤ later.limit :=
          Int.le_trans fits (world.bucket.rates.first_limit_le later laterMember)
        obtain ⟨nextWait, nextAnswered, _⟩ :=
          waiting_spec nextSorted retried nextFailing positive laterFits
        have turnsLeft : longerRates world.bucket.rates later < turns := by omega
        obtain ⟨final, events, further, stamp, run, ends, ever, slept, few⟩ :=
          ih next retried nextSorted nextFailing refusedLater positive fits
            nextAnswered turnsLeft
        have fewer : further.length ≤ longerRates world.bucket.rates later := few
        have onwards := ends.reached
        refine ⟨final,
          .slept ((sleepMs : ℚ) / 1000) :: .put retried false refusedBucket :: events,
          later :: further, stamp, ?_, ?_, ?_, ?_, ?_⟩
        · rw [blockingRetrySync_of_refused turns (by omega) outcome nextAnswered]
          exact run
        · exact
            { events_eq := by
                rw [ends.events_eq]
                simp only [next, World.retried, List.append_assoc, List.cons_append,
                  List.nil_append, retried]
              bucket_eq := ends.bucket_eq
              reached := by omega
              room := ends.room
              failing_eq := congrArg (List.cons (some later)) ends.failing_eq
              admitted_eq := ends.admitted_eq
              slept_eq := by
                have elapsed : next.monotonic =
                    world.monotonic + ((waitMs + (bufferMs : Int) : Int) : ℚ) / 1000 := rfl
                rw [ends.slept_eq, elapsed, moved]
                push_cast
                ring
              longer := List.pairwise_cons.mpr ⟨ever, ends.longer⟩
              least := by
                intro unbuffered earlier reached before
                by_cases passed : earlier < retried.timestamp
                · exact least unbuffered earlier reached passed
                · exact ends.least unbuffered earlier (by omega) before }
        · intro other member
          rcases List.mem_cons.mp member with same | remaining
          · rw [same]
            exact longer
          · exact Int.lt_trans longer (ever other remaining)
        · simp only [sleeps, List.filterMap_cons, List.length_cons] at slept ⊢
          omega
        · rw [List.length_cons]
          omega

/-- One acquire on an undisturbed sorted bucket, from its first put on. -/
theorem acquireItem_ends (bufferMs turns : Nat) (world : World InMemoryBucket) (item : RateItem)
    (sorted : world.bucket.Sorted) (positive : 1 ≤ item.weight)
    (fits : item.weight ≤ world.bucket.rates.first.limit)
    (enough : world.bucket.rates.toList.length ≤ turns) :
    ∃ (final : World InMemoryBucket) (events : List (Event InMemoryBucket))
        (failing : List Rate) (stamp : Int),
      acquireItem ops bufferMs turns world item true false none =
        some (final, .finished (.returned true)) ∧
      EndsAdmitted bufferMs world final item events failing stamp ∧
      (sleeps events).length = failing.length ∧
      failing.length ≤ world.bucket.rates.toList.length := by
  unfold acquireItem World.put
  rcases put_cases sorted item positive with ⟨room, outcome⟩ | ⟨rate, refused, outcome⟩
  · have admitted : ops.put world.bucket item = (true, world.bucket.recorded item) := outcome
    simp only [admitted, if_true]
    refine ⟨_, [.put item true (world.bucket.recorded item)], [], item.timestamp, rfl, ?_, rfl,
      Nat.zero_le _⟩
    exact
      { events_eq := rfl
        bucket_eq := rfl
        reached := Int.le_refl _
        room := room
        failing_eq := rfl
        admitted_eq := rfl
        slept_eq := by
          rw [Int.sub_self, Int.cast_zero, zero_div, add_zero]
        longer := .nil
        least := by
          intro _unbuffered earlier reached before
          omega }
  · let refusedBucket := { world.bucket with failingRate := some rate }
    have denied : ops.put world.bucket item = (false, refusedBucket) := outcome
    have rateMember := RateList.refusing_mem refused
    have rateFits := Int.le_trans fits (world.bucket.rates.first_limit_le rate rateMember)
    have failing : refusedBucket.failingRate = some rate := rfl
    have refusedSorted : refusedBucket.Sorted := sorted
    obtain ⟨waitMs, answered, _⟩ := waiting_spec refusedSorted item failing positive rateFits
    have asked : ops.waiting refusedBucket item = .ok waitMs := answered
    let next : World InMemoryBucket :=
      { world with
        bucket := refusedBucket
        events := world.events ++ [.put item false refusedBucket] }
    have part := longerRates_lt rateMember
    obtain ⟨final, events, further, stamp, run, ends, ever, slept, few⟩ :=
      blockingRetrySync_ends bufferMs turns next item refusedSorted failing refused positive fits
        answered (Nat.lt_of_lt_of_le part enough)
    have fewer : further.length ≤ longerRates world.bucket.rates rate := few
    simp only [denied, asked, Bool.false_eq_true, if_false, Bool.not_true]
    refine ⟨final, .put item false refusedBucket :: events, rate :: further, stamp, ?_, ?_,
      slept, ?_⟩
    · rw [run]
      rfl
    · exact
        { events_eq := by
            rw [ends.events_eq, List.append_assoc]
            rfl
          bucket_eq := ends.bucket_eq
          reached := ends.reached
          room := ends.room
          failing_eq := congrArg (List.cons (some rate)) ends.failing_eq
          admitted_eq := ends.admitted_eq
          slept_eq := ends.slept_eq
          longer := List.pairwise_cons.mpr ⟨ever, ends.longer⟩
          least := ends.least }
    · rw [List.length_cons]
      omega

/-! ### Buckets filled by puts in clock order -/

def putAll (bucket : InMemoryBucket) (items : List RateItem) : InMemoryBucket :=
  items.foldl (fun bucket item => (bucket.put item).2) bucket

theorem putAll_sorted {bucket : InMemoryBucket} {items : List RateItem}
    (sorted : bucket.Sorted)
    (ahead : ∀ item, item ∈ items → ∀ stamp, stamp ∈ bucket.stamps → stamp ≤ item.timestamp)
    (ordered : items.Pairwise (fun left right => left.timestamp ≤ right.timestamp)) :
    (bucket.putAll items).Sorted := by
  induction items generalizing bucket with
  | nil => exact sorted
  | cons item rest ih =>
      obtain ⟨following, restOrdered⟩ := List.pairwise_cons.mp ordered
      obtain ⟨added, shape, own⟩ := bucket.put_stamps item
      change ((bucket.put item).2.putAll rest).Sorted
      apply ih _ _ restOrdered
      · unfold Sorted
        rw [shape]
        refine List.pairwise_append.mpr ⟨sorted, ?_, ?_⟩
        · apply List.pairwise_of_forall_mem_list
          intro left leftMember right rightMember
          rw [own left leftMember, own right rightMember]
        · intro old present new member
          rw [own new member]
          exact ahead item List.mem_cons_self old present
      · intro later member stamp present
        rw [shape] at present
        rcases List.mem_append.mp present with before | new
        · exact ahead later (List.mem_cons_of_mem item member) stamp before
        · rw [own stamp new]
          exact following later member

theorem putAll_rates (bucket : InMemoryBucket) (items : List RateItem) :
    (bucket.putAll items).rates = bucket.rates := by
  induction items generalizing bucket with
  | nil => rfl
  | cons item rest ih =>
      change ((bucket.put item).2.putAll rest).rates = bucket.rates
      rw [ih, put_rates]

end InMemoryBucket

/-- A blocking acquire without a timeout, on a bucket filled in clock order that
nobody else touches, ends with `True` after at most one sleep for each rate.  The
failing rates of its refused puts have ever longer intervals, and without a
buffer it is admitted at the first timestamp at which a put would be. -/
theorem blocking_acquire_ends (rates : RateList) (earlier : List RateItem)
    (ordered : earlier.Pairwise (fun left right => left.timestamp ≤ right.timestamp))
    (item : RateItem) (positive : 1 ≤ item.weight) (fits : item.weight ≤ rates.first.limit)
    (bufferMs turns : Nat) (enough : rates.toList.length ≤ turns) (monotonic : ℚ) :
    ∃ (final : World InMemoryBucket) (failing : List Rate) (stamp : Int),
      acquireItem InMemoryBucket.ops bufferMs turns
          (World.start ((InMemoryBucket.empty rates).putAll earlier) monotonic)
          item true false none =
        some (final, .finished (.returned true)) ∧
      (sleeps final.events).length ≤ rates.toList.length ∧
      refusals InMemoryBucket.ops final.events = failing.map some ∧
      failing.Pairwise (fun left right => left.interval < right.interval) ∧
      final.bucket =
        ((InMemoryBucket.empty rates).putAll earlier).recorded { item with timestamp := stamp } ∧
      (bufferMs = 0 →
        IsLeast { later | item.timestamp ≤ later ∧
          (((InMemoryBucket.empty rates).putAll earlier).put
            { item with timestamp := later }).1 = true } stamp) := by
  have sorted : ((InMemoryBucket.empty rates).putAll earlier).Sorted := by
    apply InMemoryBucket.putAll_sorted _ _ ordered
    · exact .nil
    · intro _item _member stamp impossible
      cases impossible
  have sameRates : ((InMemoryBucket.empty rates).putAll earlier).rates = rates :=
    InMemoryBucket.putAll_rates _ _
  obtain ⟨final, events, failing, stamp, run, ends, slept, few⟩ :=
    InMemoryBucket.acquireItem_ends bufferMs turns
      (World.start ((InMemoryBucket.empty rates).putAll earlier) monotonic) item
      sorted positive (by rw [World.start, sameRates]; exact fits)
      (by rw [World.start, sameRates]; exact enough)
  have trace : final.events = events := ends.events_eq
  refine ⟨final, failing, stamp, run, ?_, ?_, ends.longer, ends.bucket_eq, ?_⟩
  · rw [World.start, sameRates] at few
    rw [trace, slept]
    exact few
  · rw [trace]
    exact ends.failing_eq
  · intro unbuffered
    constructor
    · refine ⟨ends.reached, ?_⟩
      exact (InMemoryBucket.put_admits_iff sorted { item with timestamp := stamp }
        positive).mpr ends.room
    · rintro earlierStamp ⟨reached, admitted⟩
      apply Int.not_lt.mp
      intro before
      exact ends.least unbuffered earlierStamp reached before
        ((InMemoryBucket.put_admits_iff sorted { item with timestamp := earlierStamp }
          positive).mp admitted)

theorem blocking_acquire_ends_twoRates :
    ∃ (final : World InMemoryBucket) (failing : List Rate) (stamp : Int),
      acquireItem InMemoryBucket.ops 0 2
          (World.start ((InMemoryBucket.empty twoIn100ThreeIn1000).putAll
            [⟨"a", 0, 1⟩, ⟨"b", 40, 1⟩]) 0)
          ⟨"c", 50, 2⟩ true false none =
        some (final, .finished (.returned true)) ∧
      (sleeps final.events).length ≤ 2 ∧
      refusals InMemoryBucket.ops final.events = failing.map some ∧
      failing.Pairwise (fun left right => left.interval < right.interval) ∧
      final.bucket =
        ((InMemoryBucket.empty twoIn100ThreeIn1000).putAll
          [⟨"a", 0, 1⟩, ⟨"b", 40, 1⟩]).recorded ⟨"c", stamp, 2⟩ ∧
      (0 = 0 →
        IsLeast { later | 50 ≤ later ∧
          (((InMemoryBucket.empty twoIn100ThreeIn1000).putAll
            [⟨"a", 0, 1⟩, ⟨"b", 40, 1⟩]).put ⟨"c", later, 2⟩).1 = true } stamp) :=
  blocking_acquire_ends twoIn100ThreeIn1000 [⟨"a", 0, 1⟩, ⟨"b", 40, 1⟩] (by decide)
    ⟨"c", 50, 2⟩ (by decide) (by decide) 0 2 (by decide) 0

end PyrateLimiter

/-
What a limiter does alike over all four backends.

The backends have the same rates.  In clock order they are interchangeable, they keep the
windows of the items admitted through the limiter, and a blocking call without a timeout
that nobody disturbs ends on each of them as it does in memory.  Postgres takes part where
the limits fit its column, in a session in UTC that is granted the table lock at every put,
and Redis with ids that differ.
-/

import PyrateLimiter.Sessions

namespace PyrateLimiter

open Foundations.TransitionSystem
open Foundations.WindowLog

/-! ### The backends -/

/-- Ids as Redis draws them. -/
structure DrawnIds where
  ids : Nat → String
  distinct : Function.Injective ids
  plain : ∀ n, ':' ∉ (ids n).toList

/-- The backends over a list of rates.  Redis draws an id for each put, and the limits have to
fit the column that Postgres keeps a weight in. -/
inductive BackendKind (rates : RateList) where
  | inMemory
  | sqlite
  | redis (drawn : DrawnIds)
  | postgres (narrow : ∀ rate, rate ∈ rates → isSmallint rate.limit = true)

namespace BackendKind

variable {rates : RateList}

def Store : BackendKind rates → Type
  | .inMemory => InMemoryBucket
  | .sqlite => SqliteBucket
  | .redis _ => RedisStore
  | .postgres _ => PostgresStore

def backend : (kind : BackendKind rates) → Backend kind.Store
  | .inMemory => InMemoryBucket.backend
  | .sqlite => SqliteBucket.backend
  | .redis _ => RedisStore.backend
  | .postgres _ => PostgresStore.backend

def fresh : (kind : BackendKind rates) → kind.Store
  | .inMemory => InMemoryBucket.empty rates
  | .sqlite => SqliteBucket.empty rates
  | .redis drawn =>
      { bucket := { rates := rates, failingRate := none }
        set := Foundations.SortedSets.SortedSet.empty
        ids := drawn.ids
        drawn := 0 }
  | .postgres narrow =>
      { bucket := { rates := rates, table := [], failingRate := none }
        narrow := narrow }

/-- How many milliseconds a put has to be later than a leak. -/
def margin : BackendKind rates → Int
  | .redis _ => 1
  | _ => 0

theorem margin_nonneg (kind : BackendKind rates) : 0 ≤ kind.margin := by
  cases kind with
  | redis drawn => exact Int.one_nonneg
  | _ => exact Int.le_refl 0

theorem logs (kind : BackendKind rates) :
    ∃ log sound, kind.backend.Logs rates kind.margin log sound ∧
      log kind.fresh = [] ∧ sound kind.fresh := by
  cases kind with
  | inMemory => exact ⟨_, _, InMemoryBucket.logs rates, rfl, rfl⟩
  | sqlite => exact ⟨_, _, SqliteBucket.logs rates, rfl, rfl, List.nodup_nil⟩
  | redis drawn =>
      refine ⟨_, _, RedisStore.logs rates, rfl, rfl, drawn.distinct, drawn.plain, ?_⟩
      intro _n _later _item _entry _member named
      cases named
  | postgres narrow =>
      refine ⟨_, _, PostgresStore.logs rates, rfl, rfl, ?_⟩
      intro row impossible
      cases impossible

end BackendKind

/-! ### Interchangeable backends -/

theorem Session.InClockOrder.same {First Second : Type} {session : Session First}
    {other : Session Second} {margin : Int} {call : SessionCall}
    (ordered : session.InClockOrder margin call) (admitted : other.admitted = session.admitted)
    (leakedAt : other.leakedAt = session.leakedAt) : other.InClockOrder margin call := by
  cases call with
  | acquire entry monotonic now name weight blocking timeout =>
      exact ⟨by rw [admitted]; exact ordered.newest, by rw [leakedAt]; exact ordered.leaked⟩
  | leak now => trivial
  | flush => trivial

section Together

variable {First Second : Type} {first : Backend First} {second : Backend Second} {rates : RateList}
  {margin : Int} {log : First → List Int} {sound : First → Prop} {otherLog : Second → List Int}
  {otherSound : Second → Prop}

/-- Both sessions follow one history. -/
def Session.Together (rates : RateList) (margin : Int) (log : First → List Int)
    (sound : First → Prop) (otherLog : Second → List Int) (otherSound : Second → Prop)
    (session : Session First) (other : Session Second) : Prop :=
  ∃ history, session.Follows rates margin log sound history ∧
    other.Follows rates margin otherLog otherSound history

theorem Session.Together.step (logs : first.Logs rates margin log sound)
    (otherLogs : second.Logs rates margin otherLog otherSound) {kind : BucketKind}
    {bufferMs turns : Nat} {session next : Session First} {other : Session Second}
    {call : SessionCall}
    (together : session.Together rates margin log sound otherLog otherSound other)
    (ordered : session.InClockOrder margin call)
    (taken : session.step kind first bufferMs turns call = some next) :
    ∃ following, other.step kind second bufferMs turns call = some following ∧
      next.Together rates margin log sound otherLog otherSound following := by
  obtain ⟨history, follows, otherFollows⟩ := together
  obtain ⟨middle, followed, after⟩ := follows.to_history logs ordered taken
  have same : other.InClockOrder margin call :=
    ordered.same (otherFollows.admitted.trans follows.admitted.symm)
      (otherFollows.leakedAt.trans follows.leakedAt.symm)
  obtain ⟨following, onward, otherAfter⟩ := otherFollows.of_history otherLogs same followed
  exact ⟨following, onward, middle, after, otherAfter⟩

end Together

/-- Ids that count. -/
def countedIds : DrawnIds :=
  { ids := fun n => "id" ++ toString n
    distinct := RedisBucket.memberName_injective "id"
    plain := by
      intro n member
      rw [String.toList_append] at member
      rcases List.mem_append.mp member with front | digits
      · exact absurd front (by decide)
      · exact RedisBucket.colon_not_mem_toString n digits }

def twoRatesRedis : BackendKind twoIn100ThreeIn1000 := .redis countedIds

def twoRatesPostgres : BackendKind twoIn100ThreeIn1000 := .postgres (by decide)

/-- Two units, a refusal, a leak that takes nothing, two units that have to wait, and a leak
that takes the first two. -/
def leakedCalls : List SessionCall :=
  [.acquire .tryAcquire 0 0 "a" 2 true (-1), .acquire .tryAcquireAsync 0 50 "b" 1 false (-1),
    .leak 101, .acquire .tryAcquire 0 102 "c" 2 true (-1), .leak 1051,
    .acquire .tryAcquire 1 1052 "d" 1 true 0]

/-- A run in clock order leaves the backend with a history that it follows. -/
theorem BackendKind.follows {rates : RateList} (backend : BackendKind rates) {kind : BucketKind}
    {bufferMs turns : Nat} {calls : List SessionCall} {reached : Session backend.Store}
    (ordered : StepsMeet (Session.step kind backend.backend bufferMs turns)
      (Session.InClockOrder backend.margin) (Session.start backend.fresh) calls)
    (run : exec (Session.step kind backend.backend bufferMs turns)
      (Session.start backend.fresh) calls = some reached) :
    ∃ log sound history, backend.backend.Logs rates backend.margin log sound ∧
      reached.Follows rates backend.margin log sound history := by
  obtain ⟨log, sound, logs, empty, soundFresh⟩ := backend.logs
  have begun : (Session.start backend.fresh).Follows rates backend.margin log sound
      (Session.start (.empty rates)) := Session.Follows.start empty soundFresh
  obtain ⟨history, _ran, follows⟩ := exec_simulated
    (fun _session _call _next _history follows ordered taken =>
      follows.to_history logs ordered taken) begun ordered run
  exact ⟨log, sound, history, logs, follows⟩

/-- Through the limiter, every backend keeps the windows of the items admitted since the
last flush, leaked or not, and admits whatever those windows have room for. -/
theorem backends_keep_windows {rates : RateList} (backend : BackendKind rates) (kind : BucketKind)
    (bufferMs turns : Nat) (calls : List SessionCall) {reached : Session backend.Store}
    (ordered : StepsMeet (Session.step kind backend.backend bufferMs turns)
      (Session.InClockOrder backend.margin) (Session.start backend.fresh) calls)
    (run : exec (Session.step kind backend.backend bufferMs turns)
      (Session.start backend.fresh) calls = some reached) :
    (∀ rate, rate ∈ rates → ∀ finish,
      weightBetween reached.admitted (finish - rate.interval) finish ≤ rate.limit) ∧
    ∀ item, reached.Ready backend.margin item.timestamp → 1 ≤ item.weight →
      ((backend.backend.ops.put reached.bucket item).1 = true ↔
        ∀ rate, rate ∈ rates →
          weightSince reached.admitted (item.timestamp - rate.interval) + item.weight ≤
            rate.limit) := by
  obtain ⟨log, sound, history, logs, follows⟩ := backend.follows ordered run
  have weighty : ∀ item, item ∈ reached.admitted → 1 ≤ item.weight := by
    rw [follows.admitted]
    exact follows.weighty
  constructor
  · intro rate member finish
    rw [weightBetween_eq weighty, follows.admitted]
    exact RateList.forall_windows.mp follows.within rate member finish
  · intro item ready positive
    obtain ⟨same, _after, _named⟩ :=
      follows.bucket.put logs (follows.ready ready) positive
    rw [same, HistoryBucket.put_admits_iff, follows.bucket.rates_eq]
    unfold Room
    rw [RateList.forall_windows]
    simp only [follows.admitted, weightSince_eq follows.weighty]
    exact Iff.rfl

/-- The two units of the leaked item are still in the widest window. -/
theorem backends_keep_windows_leaked :
    ∃ reached, exec (Session.step .sync twoRatesPostgres.backend 50 3)
        (Session.start twoRatesPostgres.fresh) leakedCalls = some reached ∧
      (∀ rate, rate ∈ twoIn100ThreeIn1000 → ∀ finish,
        weightBetween reached.admitted (finish - rate.interval) finish ≤ rate.limit) ∧
      ∀ item, reached.Ready 0 item.timestamp → 1 ≤ item.weight →
        ((PostgresStore.backend.ops.put reached.bucket item).1 = true ↔
          ∀ rate, rate ∈ twoIn100ThreeIn1000 →
            weightSince reached.admitted (item.timestamp - rate.interval) + item.weight ≤
              rate.limit) := by
  have runs : (exec (Session.step .sync twoRatesPostgres.backend 50 3)
      (Session.start twoRatesPostgres.fresh) leakedCalls).isSome = true := by
    decide +kernel
  obtain ⟨reached, run⟩ := Option.isSome_iff_exists.mp runs
  exact ⟨reached, run, backends_keep_windows twoRatesPostgres .sync 50 3 leakedCalls
    (by decide +kernel) run⟩

/-! ### An undisturbed blocking call -/

section Coroutines

variable {Bucket : Type} {ops : BucketOps Bucket} {bufferMs turns : Nat}
  {world final : World Bucket} {item : RateItem} {verdict : Verdict}

/-- Without a deadline a coroutine that asks for each wait itself goes as the loop that
has been handed the first. -/
theorem delayCoroutine_of_handleAsync {delay : Int}
    (answered : ops.waiting world.bucket item = .ok delay)
    (ended : handleAsync ops bufferMs none turns world item delay = some (final, verdict)) :
    delayCoroutine ops bufferMs none (turns + 1) item world = some (final, verdict) := by
  induction turns generalizing world item delay with
  | zero => cases ended
  | succ turns ih =>
      unfold delayCoroutine
      unfold handleAsync at ended
      simp only [Option.not_mem_none, false_and, exists_false, if_false, answered] at ended ⊢
      cases planned : delayToSleepMs bufferMs delay with
      | none =>
          rw [planned] at ended
          exact ended
      | some sleepMs =>
          rw [planned] at ended
          simp only [planDelayStep, Bool.false_eq_true, if_false] at ended ⊢
          generalize world.sleep ((sleepMs : ℚ) / 1000) = slept at ended ⊢
          split at ended
          · rename_i admitted
            rw [if_pos admitted]
            exact ended
          · rename_i refused
            rw [if_neg refused]
            split at ended
            · rename_i raised again
              unfold delayCoroutine
              simp only [Option.not_mem_none, false_and, exists_false, if_false, again]
              exact ended
            · rename_i nextDelay again
              exact ih again ended

/-- Awaited, a blocking acquire over a bucket of either kind ends as the blocking loop. -/
theorem waitAfterAsyncPut_of_acquireItem (names : ∀ bucket item, (ops.put bucket item).1 = false →
      (ops.failingRate (ops.put bucket item).2).isSome = true)
    (ended : acquireItem ops bufferMs turns world item true false none =
      some (final, .finished verdict)) :
    waitAfterAsyncPut ops bufferMs none (turns + 1) item true world = some (final, verdict) := by
  unfold acquireItem at ended
  unfold waitAfterAsyncPut awaitResult putCoroutine
  rw [show world.put ops item = ((world.put ops item).1, (world.put ops item).2) from rfl]
    at ended ⊢
  simp only [Option.not_mem_none, false_and, exists_false, if_false, Option.bind_eq_bind,
    Option.bind_some, Bool.not_true, Bool.false_eq_true] at ended ⊢
  cases admitted : (world.put ops item).1 with
  | true =>
      rw [admitted] at ended
      cases ended
      rfl
  | false =>
      have named := names world.bucket item admitted
      obtain ⟨rate, failing⟩ := Option.isSome_iff_exists.mp named
      simp only [admitted, Bool.false_eq_true, if_false, World.put_bucket] at ended
      simp only [World.put_bucket, failing]
      split at ended
      · rename_i raised answered
        cases ended
        unfold delayCoroutine
        simp only [Option.not_mem_none, false_and, exists_false, if_false, World.put_bucket,
          answered]
      · rename_i waitMs answered
        obtain ⟨⟨reached, result⟩, looped, same⟩ := Option.map_eq_some_iff.mp ended
        cases same
        rw [← handleAsync_eq_blockingRetrySync] at looped
        exact delayCoroutine_of_handleAsync answered looped

end Coroutines

theorem admittedItems_trace {Bucket : Type} (world : World Bucket) :
    admittedItems world.trace = admittedItems world.events := by
  unfold admittedItems World.trace
  rw [List.filterMap_map]
  congr 1
  funext event
  rcases event with ⟨item, _ | _, bucket⟩ | seconds <;> rfl

theorem sleeps_trace {Bucket : Type} (world : World Bucket) :
    sleeps world.trace = sleeps world.events := by
  unfold sleeps World.trace
  rw [List.filterMap_map]
  congr 1
  funext event
  cases event <;> rfl

namespace InMemoryBucket

/-- The item is recorded, after at most one sleep for each rate and with no buffer at the
first admissible millisecond. -/
structure Undisturbed (bucket : InMemoryBucket) (bufferMs : Nat) (now : Int) (name : String)
    (weight : Int) (final : World InMemoryBucket) (stamp : Int) : Prop where
  admitted : admittedItems final.trace = [wrapItem stamp name weight]
  slept : (sleeps final.trace).length ≤ bucket.rates.toList.length
  reached : now ≤ stamp
  room : Room bucket.rates.windows bucket.stamps stamp weight
  least : bufferMs = 0 → ∀ earlier, now ≤ earlier → earlier < stamp →
    ¬Room bucket.rates.windows bucket.stamps earlier weight

theorem acquireItem_undisturbed (bufferMs turns : Nat) {bucket : InMemoryBucket}
    (sorted : bucket.Sorted) (monotonic : ℚ) (now : Int) (name : String) {weight : Int}
    (positive : 1 ≤ weight) (fits : weight ≤ bucket.rates.first.limit)
    (enough : bucket.rates.toList.length ≤ turns) :
    ∃ (final : World InMemoryBucket) (stamp : Int),
      acquireItem ops bufferMs turns (World.start bucket monotonic) (wrapItem now name weight)
        true false none = some (final, .finished (.returned true)) ∧
      bucket.Undisturbed bufferMs now name weight final stamp := by
  obtain ⟨final, events, failing, stamp, run, ends, slept, few⟩ :=
    acquireItem_ends bufferMs turns (World.start bucket monotonic) (wrapItem now name weight)
      sorted positive fits enough
  have trace : final.events = events := ends.events_eq
  refine ⟨final, stamp, run, ?_, ?_, ends.reached, ends.room, ends.least⟩
  · rw [admittedItems_trace, trace]
    exact ends.admitted_eq
  · rw [sleeps_trace, trace, slept]
    exact few

/-- An undisturbed blocking call through either entry point, over the list in memory or a
wrapper that makes coroutines of its answers. -/
theorem acquire_ends (kind : BucketKind) (entry : EntryPoint) (bufferMs : Nat) {turns : Nat}
    {bucket : InMemoryBucket} (sorted : bucket.Sorted) (monotonic : ℚ) (now : Int) (name : String)
    {weight : Int} (positive : 1 ≤ weight) (fits : weight ≤ bucket.rates.first.limit)
    (enough : bucket.rates.toList.length < turns) :
    ∃ (final : World InMemoryBucket) (stamp : Int),
      entry.acquire kind ops bufferMs turns (World.start bucket monotonic) now name weight true
          (-1) = some (final, .returned true) ∧
      bucket.Undisturbed bufferMs now name weight final stamp := by
  obtain ⟨turns, rfl⟩ : ∃ fewer, turns = fewer + 1 := ⟨turns - 1, by omega⟩
  have weighty : ¬weight = 0 := by omega
  have nonneg : ¬weight < 0 := by omega
  have accepted : checkArguments true (-1) = none := by decide
  cases kind with
  | sync =>
      obtain ⟨final, stamp, run, undisturbed⟩ :=
        acquireItem_undisturbed bufferMs (turns + 1) sorted monotonic now name positive fits
          (Nat.le_of_lt enough)
      refine ⟨final, stamp, ?_, undisturbed⟩
      cases entry with
      | tryAcquire =>
          simp only [EntryPoint.acquire, tryAcquire, accepted, tryAcquireInner, if_neg weighty,
            if_neg nonneg, if_true, run]
          rfl
      | tryAcquireAsync =>
          have awaited := handleAsyncResult_acquireItem ops bufferMs (turns + 1) ops_names
            (World.start bucket monotonic) (wrapItem now name weight)
          rw [run] at awaited
          simp only [EntryPoint.acquire, tryAcquireAsync, accepted, tryAcquireInner,
            if_neg weighty, if_neg nonneg, if_true, Option.bind_eq_bind, ← Option.bind_assoc,
            awaited]
          rfl
  | async =>
      obtain ⟨final, stamp, run, undisturbed⟩ :=
        acquireItem_undisturbed bufferMs turns sorted monotonic now name positive fits
          (Nat.le_of_lt_succ enough)
      refine ⟨final, stamp, ?_, undisturbed⟩
      have awaited := waitAfterAsyncPut_of_acquireItem ops_names run
      have expired : ¬∃ limit, limit ∈ (none : Option ℚ) ∧
          limit - (World.start bucket monotonic).monotonic ≤ 0 := by
        simp
      have inner : tryAcquireInnerAwaited ops bufferMs (turns + 1) (World.start bucket monotonic)
          now name weight true (-1) = some (final, .returned true) := by
        simp only [tryAcquireInnerAwaited, if_neg weighty, if_neg nonneg, if_true, awaitResult,
          if_neg expired, awaited]
      cases entry with
      | tryAcquire =>
          simp only [EntryPoint.acquire, tryAcquireAwaited, accepted, inner]
          rfl
      | tryAcquireAsync =>
          simp only [EntryPoint.acquire, tryAcquireAsyncAwaited, if_neg weighty,
            tryAcquireAwaited, accepted, inner]
          rfl

end InMemoryBucket

namespace HistoryBucket

/-- The list in memory that holds all of a history. -/
def remembered (history : HistoryBucket) : InMemoryBucket :=
  { rates := history.rates
    items := history.admitted.flatMap InMemoryBucket.unitsOf
    failingRate := none }

theorem stamps_remembered {history : HistoryBucket}
    (weighty : ∀ item, item ∈ history.admitted → 1 ≤ item.weight) :
    history.remembered.stamps = units history.admitted := by
  unfold InMemoryBucket.stamps remembered units
  rw [List.map_flatMap]
  apply List.flatMap_congr
  intro item member
  exact InMemoryBucket.stamps_unitsOf item (weighty item member)

theorem remembers_remembered (margin : Int) {history : HistoryBucket}
    (sorted : (units history.admitted).Pairwise (· ≤ ·))
    (weighty : ∀ item, item ∈ history.admitted → 1 ≤ item.weight) :
    Remembers history.rates margin InMemoryBucket.stamps
      (fun bucket => bucket.rates = history.rates) history.remembered history where
  sound := rfl
  rates_eq := rfl
  sorted := sorted
  part := by
    rw [stamps_remembered weighty]
  counts := fun _stamp _leaked _rate _member => by
    rw [stamps_remembered weighty]

end HistoryBucket

/-- Whatever calls, leaks and flushes came before, a blocking call that can fit is granted on
every backend after at most one sleep for each rate, and without a buffer at the first
millisecond at which the windows of the admitted items have room. -/
theorem undisturbed_calls_end {rates : RateList} (backend : BackendKind rates) (kind : BucketKind)
    (bufferMs turns : Nat) (calls : List SessionCall) {reached : Session backend.Store}
    (ordered : StepsMeet (Session.step kind backend.backend bufferMs turns)
      (Session.InClockOrder backend.margin) (Session.start backend.fresh) calls)
    (run : exec (Session.step kind backend.backend bufferMs turns)
      (Session.start backend.fresh) calls = some reached)
    (entry : EntryPoint) (monotonic : ℚ) (now : Int) (name : String) (weight : Int)
    (ready : reached.Ready backend.margin now) (positive : 1 ≤ weight)
    (fits : weight ≤ rates.first.limit) (enough : rates.toList.length < turns) :
    ∃ (world : World backend.Store) (stamp : Int),
      entry.acquire kind backend.backend.ops bufferMs turns (World.start reached.bucket monotonic)
          now name weight true (-1) = some (world, .returned true) ∧
      admittedItems world.trace = [wrapItem stamp name weight] ∧
      (sleeps world.trace).length ≤ rates.toList.length ∧
      (bufferMs = 0 →
        IsLeast {later | now ≤ later ∧ ∀ rate, rate ∈ rates →
          weightSince reached.admitted (later - rate.interval) + weight ≤ rate.limit} stamp) := by
  obtain ⟨log, sound, history, logs, follows⟩ := backend.follows ordered run
  have sameRates := follows.bucket.rates_eq
  have copied := HistoryBucket.remembers_remembered backend.margin follows.bucket.sorted
    follows.weighty
  have stamps := HistoryBucket.stamps_remembered follows.weighty
  obtain ⟨final, stamp, ended, undisturbed⟩ :=
    InMemoryBucket.acquire_ends kind entry bufferMs copied.log_sorted monotonic now name positive
      (by rw [HistoryBucket.remembered, sameRates]; exact fits)
      (by rw [HistoryBucket.remembered, sameRates]; exact enough)
  -- The list in memory and the backend both follow the history through the call.
  have begun : (World.start history.bucket.remembered monotonic).Alike
      (Remembers history.bucket.rates backend.margin InMemoryBucket.stamps
        (fun bucket => bucket.rates = history.bucket.rates))
      (World.start history.bucket monotonic) :=
    ⟨copied, rfl, rfl⟩
  have copies := acquire_agree
    ((InMemoryBucket.logs history.bucket.rates).widen backend.margin_nonneg).simulates.lockstep
    kind entry bufferMs turns begun now (follows.ready ready) name weight true (-1)
  rw [show InMemoryBucket.backend.ops = InMemoryBucket.ops from rfl, ended] at copies
  obtain ⟨middle, followed, alike⟩ := copies.of_left
  have agree := follows.acquire logs kind bufferMs turns ready entry monotonic name weight true
    (-1)
  rw [followed] at agree
  obtain ⟨world, ran, near⟩ := agree.of_right
  have trace : world.trace = final.trace := near.trace.trans alike.trace.symm
  have room_iff : ∀ later, Room history.bucket.remembered.rates.windows
      history.bucket.remembered.stamps later weight ↔ ∀ rate, rate ∈ rates →
        weightSince reached.admitted (later - rate.interval) + weight ≤ rate.limit := by
    intro later
    rw [stamps, HistoryBucket.remembered, sameRates]
    unfold Room
    rw [RateList.forall_windows]
    simp only [follows.admitted, weightSince_eq follows.weighty]
    exact Iff.rfl
  refine ⟨world, stamp, ran, ?_, ?_, ?_⟩
  · rw [trace]
    exact undisturbed.admitted
  · rw [trace, ← sameRates]
    exact undisturbed.slept
  · intro unbuffered
    refine ⟨⟨undisturbed.reached, (room_iff stamp).mp undisturbed.room⟩, ?_⟩
    rintro later ⟨onward, room⟩
    apply Int.not_lt.mp
    intro early
    exact undisturbed.least unbuffered later onward early ((room_iff later).mpr room)

/-- After the leaked calls, over a Redis client whose answers are awaited. -/
theorem undisturbed_calls_end_leaked :
    ∃ reached, exec (Session.step .async twoRatesRedis.backend 0 3)
        (Session.start twoRatesRedis.fresh) leakedCalls = some reached ∧
      ∃ (world : World RedisStore) (stamp : Int),
        EntryPoint.tryAcquireAsync.acquire .async RedisStore.backend.ops 0 3
            (World.start reached.bucket 0) 1060 "e" 2 true (-1) =
          some (world, .returned true) ∧
        admittedItems world.trace = [wrapItem stamp "e" 2] ∧
        (sleeps world.trace).length ≤ 2 ∧
        ((0 : Nat) = 0 →
          IsLeast {later | 1060 ≤ later ∧ ∀ rate, rate ∈ twoIn100ThreeIn1000 →
            weightSince reached.admitted (later - rate.interval) + 2 ≤ rate.limit} stamp) := by
  have runs : (exec (Session.step .async twoRatesRedis.backend 0 3)
      (Session.start twoRatesRedis.fresh) leakedCalls).any
        (fun reached => decide (reached.Ready 1 1060)) = true := by
    decide +kernel
  obtain ⟨reached, run, ready⟩ := (Option.any_eq_true _ _).mp runs
  exact ⟨reached, run, undisturbed_calls_end twoRatesRedis .async 0 3 leakedCalls
    (by decide +kernel) run .tryAcquireAsync 0 1060 "e" 2 (of_decide_eq_true ready) (by decide)
    (by decide) (by decide)⟩

end PyrateLimiter

/-
The acquire path of the limiter over a bucket that answers synchronously.

The same retry algorithm is written twice in the source: as the blocking loop
that releases the limiter lock while it sleeps, and as the coroutine that the
asynchronous entry point drives.  Both are translated as they stand, over any
bucket behaviour and with the clock of the deadlines kept apart from the item
timestamps.  A sleep advances that clock by its argument; a loop that is given
too few turns has no result.
-/

import PyrateLimiter.InMemoryBucket

namespace PyrateLimiter

/-- What the limiter uses of a synchronous bucket. -/
structure BucketOps (Bucket : Type) where
  failingRate : Bucket → Option Rate
  put : Bucket → RateItem → Bool × Bucket
  waiting : Bucket → RateItem → Except PyError Int

def InMemoryBucket.ops : BucketOps InMemoryBucket :=
  { failingRate := InMemoryBucket.failingRate
    put := InMemoryBucket.put
    waiting := InMemoryBucket.waiting }

theorem InMemoryBucket.ops_names (bucket : InMemoryBucket) (item : RateItem)
    (refused : (ops.put bucket item).1 = false) :
    (ops.failingRate (ops.put bucket item).2).isSome = true := by
  obtain ⟨rate, outcome⟩ := InMemoryBucket.put_refused refused
  change ((bucket.put item).2.failingRate).isSome = true
  rw [outcome]
  rfl

inductive Verdict where
  | returned (acquired : Bool)
  | raised (error : PyError)
  deriving DecidableEq, Repr

inductive Event (Bucket : Type) where
  | put (item : RateItem) (acquired : Bool) (bucket : Bucket)
  | slept (seconds : ℚ)

structure World (Bucket : Type) where
  bucket : Bucket
  monotonic : ℚ
  events : List (Event Bucket)

namespace World

variable {Bucket : Type}

def start (bucket : Bucket) (monotonic : ℚ) : World Bucket :=
  { bucket := bucket
    monotonic := monotonic
    events := [] }

def sleep (world : World Bucket) (seconds : ℚ) : World Bucket :=
  { world with
    monotonic := world.monotonic + seconds
    events := world.events ++ [.slept seconds] }

def put (world : World Bucket) (ops : BucketOps Bucket) (item : RateItem) :
    Bool × World Bucket :=
  let (acquired, bucket) := ops.put world.bucket item
  (acquired,
    { world with
      bucket := bucket
      events := world.events ++ [.put item acquired bucket] })

@[simp] theorem put_bucket (world : World Bucket) (ops : BucketOps Bucket) (item : RateItem) :
    (world.put ops item).2.bucket = (ops.put world.bucket item).2 := rfl

end World

/-! ### Planning a delay -/

/-- `None` stands for an item that can never fit. -/
def delayToSleepMs (bufferMs : Nat) (delay : Int) : Option Int :=
  if delay = -1 then none
  else
    let clamped := if delay < 0 then 0 else delay
    some (clamped + (bufferMs : Int))

/-- Seconds to sleep and whether to raise the timeout after the sleep; a
deadline that has passed raises it at once. -/
def planDelayStep (deadline : Option ℚ) (monotonic : ℚ) (delayMs : Int) :
    Except PyError (ℚ × Bool) :=
  match deadline with
  | none => .ok ((delayMs : ℚ) / 1000, false)
  | some deadline =>
      let remainingMs := (deadline - monotonic) * 1000
      if remainingMs ≤ 0 then .error (.timeoutError "")
      else if remainingMs < (delayMs : ℚ) then .ok (remainingMs / 1000, true)
      else .ok ((delayMs : ℚ) / 1000, false)

theorem delayToSleepMs_of_nonneg (bufferMs : Nat) {delay : Int} (nonneg : 0 ≤ delay) :
    delayToSleepMs bufferMs delay = some (delay + (bufferMs : Int)) := by
  unfold delayToSleepMs
  rw [if_neg (by omega), if_neg (by omega)]

/-! ### The retry loops -/

section Loops

variable {Bucket : Type} (ops : BucketOps Bucket) (bufferMs : Nat) (deadline : Option ℚ)

/-- `_blocking_retry_sync`, with the limiter lock free whenever it is taken. -/
def blockingRetrySync :
    Nat → World Bucket → RateItem → Int → Option (World Bucket × Verdict)
  | 0, _, _, _ => none
  | turns + 1, world, item, waitMs =>
      match delayToSleepMs bufferMs waitMs with
      | none => some (world, .returned false)
      | some sleepMs =>
          match planDelayStep deadline world.monotonic sleepMs with
          | .error raised => some (world, .raised raised)
          | .ok (seconds, timedOut) =>
              let world := world.sleep seconds
              if timedOut then some (world, .raised (.timeoutError ""))
              else
                let item := item.delay sleepMs
                let (reAcquire, world) := world.put ops item
                if reAcquire then some (world, .returned true)
                else
                  match ops.waiting world.bucket item with
                  | .error raised => some (world, .raised raised)
                  | .ok nextWait => blockingRetrySync turns world item nextWait

/-- The coroutine `_handle_async` of `_delay_waiter`, on delays that are integers. -/
def handleAsync :
    Nat → World Bucket → RateItem → Int → Option (World Bucket × Verdict)
  | 0, _, _, _ => none
  | turns + 1, world, item, delay =>
      if ∃ limit ∈ deadline, (limit - world.monotonic) * 1000 ≤ 0 then
        some (world, .raised (.timeoutError ""))
      else
        match delayToSleepMs bufferMs delay with
        | none => some (world, .returned false)
        | some sleepMs =>
            match planDelayStep deadline world.monotonic sleepMs with
            | .error raised => some (world, .raised raised)
            | .ok (seconds, timedOut) =>
                let world := world.sleep seconds
                if timedOut then some (world, .raised (.timeoutError ""))
                else
                  let item := item.delay sleepMs
                  let (reAcquire, world) := world.put ops item
                  if reAcquire then some (world, .returned true)
                  else
                    match ops.waiting world.bucket item with
                    | .error raised => some (world, .raised raised)
                    | .ok nextDelay => handleAsync turns world item nextDelay

/-- Without a deadline the two loops are the same function. -/
theorem handleAsync_eq_blockingRetrySync (turns : Nat) (world : World Bucket)
    (item : RateItem) (delay : Int) :
    handleAsync ops bufferMs none turns world item delay =
      blockingRetrySync ops bufferMs none turns world item delay := by
  induction turns generalizing world item delay with
  | zero => rfl
  | succ turns ih =>
      unfold handleAsync blockingRetrySync
      rw [if_neg (by simp)]
      cases delayToSleepMs bufferMs delay with
      | none => rfl
      | some sleepMs =>
          simp only [planDelayStep, ih]

def World.retried (world : World Bucket) (sleepMs : Int) (item : RateItem) (acquired : Bool)
    (bucket : Bucket) : World Bucket :=
  { bucket := bucket
    monotonic := world.monotonic + (sleepMs : ℚ) / 1000
    events := world.events ++
      [.slept ((sleepMs : ℚ) / 1000), .put (item.delay sleepMs) acquired bucket] }

section Turns

variable {ops bufferMs} {world : World Bucket} {item : RateItem} {waitMs : Int} {bucket : Bucket}

private theorem put_after_sleep {sleepMs : Int} {acquired : Bool}
    (outcome : ops.put world.bucket (item.delay sleepMs) = (acquired, bucket)) :
    (world.sleep ((sleepMs : ℚ) / 1000)).put ops (item.delay sleepMs) =
      (acquired, world.retried sleepMs item acquired bucket) := by
  simp only [World.put, World.sleep, World.retried, outcome, List.append_assoc,
    List.cons_append, List.nil_append]

theorem blockingRetrySync_of_admitted (turns : Nat) (nonneg : 0 ≤ waitMs)
    (outcome : ops.put world.bucket (item.delay (waitMs + (bufferMs : Int))) = (true, bucket)) :
    blockingRetrySync ops bufferMs none (turns + 1) world item waitMs =
      some (world.retried (waitMs + (bufferMs : Int)) item true bucket, .returned true) := by
  unfold blockingRetrySync
  rw [delayToSleepMs_of_nonneg bufferMs nonneg]
  simp only [planDelayStep, put_after_sleep outcome, if_true, Bool.false_eq_true, if_false]

theorem blockingRetrySync_of_refused (turns : Nat) (nonneg : 0 ≤ waitMs)
    (outcome : ops.put world.bucket (item.delay (waitMs + (bufferMs : Int))) = (false, bucket))
    {nextWait : Int}
    (answered : ops.waiting bucket (item.delay (waitMs + (bufferMs : Int))) = .ok nextWait) :
    blockingRetrySync ops bufferMs none (turns + 1) world item waitMs =
      blockingRetrySync ops bufferMs none turns
        (world.retried (waitMs + (bufferMs : Int)) item false bucket)
        (item.delay (waitMs + (bufferMs : Int))) nextWait := by
  conv_lhs => unfold blockingRetrySync
  rw [delayToSleepMs_of_nonneg bufferMs nonneg]
  have same : (world.retried (waitMs + (bufferMs : Int)) item false bucket).bucket = bucket := rfl
  simp only [planDelayStep, put_after_sleep outcome, Bool.false_eq_true, if_false, same, answered]

end Turns

end Loops

/-! ### One acquire -/

/-- What `_try_acquire` hands back: a finished call, or the coroutine of the
delay loop with the delay it starts from. -/
inductive AcquireResult where
  | finished (verdict : Verdict)
  | awaitable (item : RateItem) (delay : Int) (deadline : Option ℚ)
  deriving DecidableEq

section Acquire

variable {Bucket : Type} (ops : BucketOps Bucket) (bufferMs turns : Nat)

/-- `SingleBucketFactory.wrap_item` at a reading of the bucket's clock. -/
def wrapItem (now : Int) (name : String) (weight : Int) : RateItem :=
  { name := name
    timestamp := now
    weight := weight }

/-- `_try_acquire` from the first put on. -/
def acquireItem (world : World Bucket) (item : RateItem) (blocking forceAsync : Bool)
    (deadline : Option ℚ) : Option (World Bucket × AcquireResult) :=
  let (acquire, world) := world.put ops item
  if acquire then some (world, .finished (.returned true))
  else if !blocking then some (world, .finished (.returned false))
  else if forceAsync then
    -- `_delay_waiter` computes the first delay before its coroutine runs.
    match ops.failingRate world.bucket with
    | none => some (world, .finished (.raised (.assertionError "")))
    | some _ =>
        match ops.waiting world.bucket item with
        | .error raised => some (world, .finished (.raised raised))
        | .ok delay => some (world, .awaitable item delay deadline)
  else
    match ops.waiting world.bucket item with
    | .error raised => some (world, .finished (.raised raised))
    | .ok waitMs =>
        (blockingRetrySync ops bufferMs deadline turns world item waitMs).map
          (fun (world, verdict) => (world, .finished verdict))

/-- `_try_acquire`, with the limiter lock free and the bucket's clock at `now`. -/
def tryAcquireInner (world : World Bucket) (now : Int) (name : String) (weight : Int)
    (blocking : Bool) (timeout : ℚ) (forceAsync : Bool) :
    Option (World Bucket × AcquireResult) :=
  let deadline := if timeout = -1 then none else some (world.monotonic + timeout)
  if weight < 0 then
    some (world, .finished (.raised (.assertionError "item's weight must be >= 0")))
  else if weight = 0 then some (world, .finished (.returned true))
  else
    acquireItem ops bufferMs turns world (wrapItem now name weight) blocking forceAsync deadline

/-- Awaiting what `_try_acquire` handed back, through `_handle_async_result`. -/
def handleAsyncResult (world : World Bucket) : AcquireResult → Option (World Bucket × Verdict)
  | .finished verdict => some (world, verdict)
  | .awaitable item delay deadline =>
      if ∃ limit ∈ deadline, limit - world.monotonic ≤ 0 then
        some (world, .raised (.timeoutError ""))
      else handleAsync ops bufferMs deadline turns world item delay

def checkArguments (blocking : Bool) (timeout : ℚ) : Option PyError :=
  if timeout < 0 ∧ timeout ≠ -1 then some (.valueError "timeout must be -1 or >= 0")
  else if !blocking ∧ timeout ≠ -1 then
    some (.runtimeError "Can't set timeout with non-blocking")
  else none

def Verdict.catchTimeout : Verdict → Verdict
  | .raised (.timeoutError _) => .returned false
  | verdict => verdict

def tryAcquire (world : World Bucket) (now : Int) (name : String) (weight : Int)
    (blocking : Bool) (timeout : ℚ) : Option (World Bucket × Verdict) :=
  match checkArguments blocking timeout with
  | some raised => some (world, .raised raised)
  | none => do
      let (world, result) ←
        tryAcquireInner ops bufferMs turns world now name weight blocking timeout false
      let (world, verdict) ← handleAsyncResult ops bufferMs turns world result
      pure (world, verdict.catchTimeout)

/-- `try_acquire_async`, with the event loop's lock free. -/
def tryAcquireAsync (world : World Bucket) (now : Int) (name : String) (weight : Int)
    (blocking : Bool) (timeout : ℚ) : Option (World Bucket × Verdict) :=
  if weight = 0 then some (world, .returned true)
  else
    match checkArguments blocking timeout with
    | some raised => some (world, .raised raised)
    | none => do
        let (world, result) ←
          tryAcquireInner ops bufferMs turns world now name weight blocking timeout true
        let (world, verdict) ← handleAsyncResult ops bufferMs turns world result
        pure (world, verdict.catchTimeout)

/-- Without a deadline, and over a bucket that names a failing rate whenever it
refuses, awaiting the coroutine is the same as blocking. -/
theorem handleAsyncResult_acquireItem (names : ∀ bucket item, (ops.put bucket item).1 = false →
      (ops.failingRate (ops.put bucket item).2).isSome = true)
    (world : World Bucket) (item : RateItem) :
    (acquireItem ops bufferMs turns world item true true none).bind
        (fun ended => handleAsyncResult ops bufferMs turns ended.1 ended.2) =
      (acquireItem ops bufferMs turns world item true false none).bind
        (fun ended => handleAsyncResult ops bufferMs turns ended.1 ended.2) := by
  unfold acquireItem
  rw [show world.put ops item = ((world.put ops item).1, (world.put ops item).2) from rfl]
  simp only []
  cases admitted : (world.put ops item).1 with
  | true => rfl
  | false =>
      have named := names world.bucket item admitted
      simp only [Bool.false_eq_true, if_false, Bool.not_true, if_true, World.put_bucket]
      cases failing : ops.failingRate (ops.put world.bucket item).2 with
      | none =>
          rw [failing] at named
          cases named
      | some rate =>
          cases ops.waiting (ops.put world.bucket item).2 item with
          | error raised => rfl
          | ok delay =>
              simp only [Option.bind_some, handleAsyncResult, Option.not_mem_none, false_and,
                exists_false, if_false]
              rw [handleAsync_eq_blockingRetrySync]
              cases blockingRetrySync ops bufferMs none turns (world.put ops item).2 item delay <;>
                rfl

end Acquire

end PyrateLimiter

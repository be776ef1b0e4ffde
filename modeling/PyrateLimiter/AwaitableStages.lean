/-
The acquire path where any stage may answer with an awaitable.

`wrap_item`, `get`, `put` and `waiting` of user code answer at once or with an awaitable, and
the acquire path looks at each answer: it goes on as a plain call, hands a coroutine to its
caller, or hands over to one in the middle of a wait.  A coroutine does nothing until it is
awaited.  The limiter lock and the loop's lock are free.
-/

import PyrateLimiter.AsyncAcquire
import PyrateLimiter.Decorator

namespace PyrateLimiter

/-- Which calls answer with an awaitable.  A put or wait is known by the world it is made
in, which holds all that came before. -/
structure Answering (Bucket : Type) where
  wrapItem : Bool
  get : Bool
  put : World Bucket → RateItem → Bool
  waiting : World Bucket → RateItem → Bool
  /-- The bucket is registered with the leaker as an asynchronous one. -/
  leaksAsync : Bool

inductive Handed (Bucket : Type) where
  | finished (verdict : Verdict)
  | awaitable (coroutine : Coroutine Bucket)

def Handed.handle {Bucket : Type} (deadline : Option ℚ) : Handed Bucket → Coroutine Bucket
  | .finished verdict => fun world => some (world, verdict)
  | .awaitable coroutine => awaitResult deadline coroutine

namespace Answering

variable {Bucket : Type} (answering : Answering Bucket) (ops : BucketOps Bucket) (bufferMs : Nat)
  (deadline : Option ℚ)

/-! ### The delay loops -/

/-- `_handle_async` of `_delay_waiter`.  A delay that is an awaitable is computed when it is
awaited, at the start of the turn that sleeps for it. -/
def handleDelays : Nat → RateItem → Option Int → Coroutine Bucket
  | 0, _, _ => fun _ => none
  | turns + 1, item, delay => fun world =>
      if ∃ limit ∈ deadline, (limit - world.monotonic) * 1000 ≤ 0 then
        some (world, .raised (.timeoutError ""))
      else
        match delay.elim (ops.waiting world.bucket item) Except.ok with
        | .error raised => some (world, .raised raised)
        | .ok delay =>
            match delayToSleepMs bufferMs delay with
            | none => some (world, .returned false)
            | some sleepMs =>
                match planDelayStep deadline world.monotonic sleepMs with
                | .error raised => some (world, .raised raised)
                | .ok (seconds, timedOut) =>
                    let world := world.sleep seconds
                    if timedOut then some (world, .raised (.timeoutError ""))
                    else
                      let item := item.delay sleepMs
                      let (acquire, world) := world.put ops item
                      if acquire then some (world, .returned true)
                      else if answering.waiting world item then
                        handleDelays turns item none world
                      else
                        match ops.waiting world.bucket item with
                        | .error raised => some (world, .raised raised)
                        | .ok nextDelay => handleDelays turns item (some nextDelay) world

/-- `_delay_waiter` with `_force_async`. -/
def forcedDelayWaiter (turns : Nat) (world : World Bucket) (item : RateItem) (blocking : Bool) :
    World Bucket × Handed Bucket :=
  match ops.failingRate world.bucket with
  | none => (world, .finished (.raised (.assertionError "")))
  | some _ =>
      if !blocking then (world, .finished (.returned false))
      else if answering.waiting world item then
        (world, .awaitable (answering.handleDelays ops bufferMs deadline turns item none))
      else
        match ops.waiting world.bucket item with
        | .error raised => (world, .finished (.raised raised))
        | .ok delay =>
            (world,
              .awaitable (answering.handleDelays ops bufferMs deadline turns item (some delay)))

def waitAfterAsyncPut (turns : Nat) (item : RateItem) (blocking : Bool) : Coroutine Bucket :=
  fun world => do
    match ← awaitResult deadline (putCoroutine ops item) world with
    | (world, .raised raised) => some (world, .raised raised)
    | (world, .returned true) => some (world, .returned true)
    | (world, .returned false) =>
        let (world, handed) :=
          answering.forcedDelayWaiter ops bufferMs deadline turns world item blocking
        handed.handle deadline world

def resumeAsync (turns : Nat) (item : RateItem) : Coroutine Bucket :=
  answering.waitAfterAsyncPut ops bufferMs deadline turns item true

/-- The synchronous loop of `_delay_waiter`. -/
def delayLoop : Nat → World Bucket → RateItem → Int → Option (World Bucket × Handed Bucket)
  | 0, _, _, _ => none
  | turns + 1, world, item, delay =>
      match delayToSleepMs bufferMs delay with
      | none => some (world, .finished (.returned false))
      | some sleepMs =>
          match planDelayStep deadline world.monotonic sleepMs with
          | .error raised => some (world, .finished (.raised raised))
          | .ok (seconds, timedOut) =>
              let world := world.sleep seconds
              if timedOut then some (world, .finished (.raised (.timeoutError "")))
              else
                let item := item.delay sleepMs
                if answering.put world item then
                  some
                    (world, .awaitable (answering.resumeAsync ops bufferMs deadline turns item))
                else
                  let (reAcquire, world) := world.put ops item
                  if reAcquire then some (world, .finished (.returned true))
                  else if answering.waiting world item then
                    some (world, .finished (.raised (.assertionError "")))
                  else
                    match ops.waiting world.bucket item with
                    | .error raised => some (world, .finished (.raised raised))
                    | .ok nextDelay => delayLoop turns world item nextDelay

def delayWaiter (turns : Nat) (world : World Bucket) (item : RateItem)
    (blocking forceAsync : Bool) : Option (World Bucket × Handed Bucket) :=
  if forceAsync then
    some (answering.forcedDelayWaiter ops bufferMs deadline turns world item blocking)
  else
    match ops.failingRate world.bucket with
    | none => some (world, .finished (.raised (.assertionError "")))
    | some _ =>
        if !blocking then some (world, .finished (.returned false))
        else if answering.waiting world item then
          some (world, .awaitable (answering.handleDelays ops bufferMs deadline turns item none))
        else
          match ops.waiting world.bucket item with
          | .error raised => some (world, .finished (.raised raised))
          | .ok delay => answering.delayLoop ops bufferMs deadline turns world item delay

def blockingRetry : Nat → World Bucket → RateItem → Int → Option (World Bucket × Handed Bucket)
  | 0, _, _, _ => none
  | turns + 1, world, item, waitMs =>
      match delayToSleepMs bufferMs waitMs with
      | none => some (world, .finished (.returned false))
      | some sleepMs =>
          match planDelayStep deadline world.monotonic sleepMs with
          | .error raised => some (world, .finished (.raised raised))
          | .ok (seconds, timedOut) =>
              let world := world.sleep seconds
              if timedOut then some (world, .finished (.raised (.timeoutError "")))
              else
                let item := item.delay sleepMs
                if answering.put world item then
                  some
                    (world, .awaitable (awaitResult deadline
                      (answering.waitAfterAsyncPut ops bufferMs deadline turns item true)))
                else
                  let (reAcquire, world) := world.put ops item
                  if reAcquire then some (world, .finished (.returned true))
                  else if answering.waiting world item then
                    some (world, .finished (.raised (.assertionError "")))
                  else
                    match ops.waiting world.bucket item with
                    | .error raised => some (world, .finished (.raised raised))
                    | .ok nextWait => blockingRetry turns world item nextWait

/-! ### One acquire -/

def handleBucketPut (turns : Nat) (world : World Bucket) (item : RateItem)
    (blocking forceAsync : Bool) : Option (World Bucket × Handed Bucket) :=
  if answering.put world item then
    some
      (world,
        .awaitable (answering.waitAfterAsyncPut ops bufferMs deadline turns item blocking))
  else
    let (acquire, world) := world.put ops item
    if acquire then some (world, .finished (.returned true))
    else answering.delayWaiter ops bufferMs deadline turns world item blocking forceAsync

/-- `_acquire_co`, with the wrapped item and the bucket still to be awaited or not. -/
def acquireCo (awaitsItem awaitsBucket : Bool) (turns : Nat) (item : RateItem)
    (blocking forceAsync : Bool) : Coroutine Bucket := fun world =>
  if (awaitsItem ∨ awaitsBucket) ∧ ∃ limit ∈ deadline, limit - world.monotonic ≤ 0 then
    some (world, .raised (.timeoutError ""))
  else do
    let (world, handed) ←
      answering.handleBucketPut ops bufferMs deadline turns world item blocking forceAsync
    handed.handle deadline world

/-- `_try_acquire` from the wrapped item on.  An awaitable where a plain answer is needed is
closed, and what it would have done is not done. -/
def acquireItem (turns : Nat) (world : World Bucket) (item : RateItem)
    (blocking forceAsync allowAsyncResult : Bool) : Option (World Bucket × Handed Bucket) :=
  let needsPlain := !forceAsync && !allowAsyncResult
  let refusal := Handed.finished
    (.raised (.runtimeError "Can't use async bucket with sync decorator"))
  if answering.wrapItem then
    if needsPlain then some (world, refusal)
    else
      some
        (world, .awaitable (answering.acquireCo ops bufferMs deadline true answering.get turns item
          blocking forceAsync))
  else if answering.get then
    if needsPlain then some (world, refusal)
    else
      some
        (world, .awaitable (answering.acquireCo ops bufferMs deadline false true turns item
          blocking forceAsync))
  else if needsPlain && answering.leaksAsync then some (world, refusal)
  else if answering.put world item then
    if needsPlain then some (world, refusal)
    else
      some
        (world, .awaitable (awaitResult deadline
          (answering.waitAfterAsyncPut ops bufferMs deadline turns item blocking)))
  else
    let (acquire, world) := world.put ops item
    if acquire then some (world, .finished (.returned true))
    else if !blocking then some (world, .finished (.returned false))
    else if forceAsync || answering.waiting world item then
      match answering.forcedDelayWaiter ops bufferMs deadline turns world item blocking with
      | (world, .finished (.raised raised)) => some (world, .finished (.raised raised))
      | (world, handed) => some (world, .awaitable (handed.handle deadline))
    else
      match ops.waiting world.bucket item with
      | .error raised => some (world, .finished (.raised raised))
      | .ok waitMs => answering.blockingRetry ops bufferMs deadline turns world item waitMs

/-- `_try_acquire`, with the bucket's clock at `now` when the item is wrapped. -/
def tryAcquireInner (turns : Nat) (world : World Bucket) (now : Int) (name : String)
    (weight : Int) (blocking : Bool) (timeout : ℚ) (forceAsync allowAsyncResult : Bool) :
    Option (World Bucket × Handed Bucket) :=
  let deadline := if timeout = -1 then none else some (world.monotonic + timeout)
  if weight < 0 then
    some (world, .finished (.raised (.assertionError "item's weight must be >= 0")))
  else if weight = 0 then some (world, .finished (.returned true))
  else
    answering.acquireItem ops bufferMs deadline turns world
      (PyrateLimiter.wrapItem now name weight) blocking forceAsync allowAsyncResult

/-- `try_acquire` and `try_acquire_async`, awaited to the end. -/
def acquire (turns : Nat) (world : World Bucket) (now : Int) (name : String) (weight : Int)
    (blocking : Bool) (timeout : ℚ) (entry : EntryPoint) : Option (World Bucket × Verdict) :=
  if entry = .tryAcquireAsync ∧ weight = 0 then some (world, .returned true)
  else
    match checkArguments blocking timeout with
    | some raised => some (world, .raised raised)
    | none => do
        let (world, handed) ←
          answering.tryAcquireInner ops bufferMs turns world now name weight blocking timeout
            (entry = .tryAcquireAsync) true
        let (world, verdict) ← handed.handle none world
        pure (world, verdict.catchTimeout)

def syncWrapper (turns : Nat) (world : World Bucket) (now : Int) (name : String)
    (weight : Int) : Option (World Bucket × WrappedCall) := do
  let (world, handed) ←
    answering.tryAcquireInner ops bufferMs turns world now name weight true (-1) false false
  match handed with
  | .finished (.returned _) => some (world, .executesBody)
  | .finished (.raised (.timeoutError _)) => some (world, .executesBody)
  | .finished (.raised raised) => some (world, .raised raised)
  | .awaitable _ =>
      some (world, .raised (.runtimeError "Can't use async bucket with sync decorator"))

/-- Waits are awaitables throughout or never, except where an answer that never fits needs
no peek. -/
def Steady : Prop :=
  (∀ world item, answering.waiting world item = false) ∨
    ∀ world item, answering.waiting world item = false →
      (ops.failingRate world.bucket).isSome = true →
        ∀ delay, ops.waiting world.bucket item = .ok delay → delay = -1

end Answering

def needsPeek (failingRate : Option Rate) (item : RateItem) : Bool :=
  match waitingStart failingRate item with
  | .ok (.peek _) => true
  | _ => false

theorem Answering.steady_of_peek {Bucket : Type} {answering : Answering Bucket}
    {ops : BucketOps Bucket} (awaits : Bool) (peek : Bucket → Int → Option RateItem)
    (waits : ∀ bucket item, ops.waiting bucket item =
      PyrateLimiter.waiting (ops.failingRate bucket) (peek bucket) item)
    (answers : ∀ world item, answering.waiting world item =
      (awaits && needsPeek (ops.failingRate world.bucket) item)) : answering.Steady ops := by
  cases awaits with
  | false => exact Or.inl answers
  | true =>
      refine Or.inr ?_
      intro world item atOnce named delay answered
      obtain ⟨rate, failing⟩ := Option.isSome_iff_exists.mp named
      rw [answers, Bool.true_and] at atOnce
      rw [waits] at answered
      unfold needsPeek at atOnce
      unfold PyrateLimiter.waiting at answered
      rw [failing] at atOnce answered
      simp only [waitingStart] at atOnce answered
      split at atOnce
      · cases atOnce
      · rename_i unpeeked
        by_cases weightless : item.weight ≤ 0
        · rw [if_pos weightless] at answered
          cases answered
        · rw [if_neg weightless] at answered unpeeked
          by_cases heavy : rate.limit < item.weight
          · rw [if_pos heavy] at answered
            cases answered
            rfl
          · rw [if_neg heavy] at unpeeked
            exact absurd rfl (unpeeked _)

end PyrateLimiter

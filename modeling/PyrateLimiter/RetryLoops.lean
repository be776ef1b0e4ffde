/-
The three copies of the retry algorithm, turn by turn.

Each loop is its one turn, so that a loop that never leaves is described as
well as one that does.  The copies test the deadline, the sentinel and the put
in different orders and under different wrappers; as long as no delay ends
exactly at the deadline they perform the same steps and give the same answer.
-/

import Mathlib.Logic.Function.Iterate
import Mathlib.Tactic.Linarith
import PyrateLimiter.BlockingRetry

namespace PyrateLimiter

/-- A retry loop between two turns, or after it was left. -/
inductive LoopState (Bucket : Type) where
  | turning (world : World Bucket) (item : RateItem) (delay : Int)
  | left (world : World Bucket) (verdict : Verdict)

namespace LoopState

variable {Bucket : Type}

def world : LoopState Bucket → World Bucket
  | .turning world _ _ => world
  | .left world _ => world

def outcome : LoopState Bucket → Option (World Bucket × Verdict)
  | .turning _ _ _ => none
  | .left world verdict => some (world, verdict)

/-- The state with a `TimeoutError` counted as `False`, as both entry points do. -/
def settled : LoopState Bucket → LoopState Bucket
  | .turning world item delay => .turning world item delay
  | .left world verdict => .left world verdict.catchTimeout

end LoopState

/-- The timestamps the item was put with. -/
def stampsPut {Bucket : Type} (events : List (Event Bucket)) : List Int :=
  events.filterMap (fun event =>
    match event with
    | .put item _ _ => some item.timestamp
    | .slept _ => none)

section Turns

variable {Bucket : Type} (ops : BucketOps Bucket) (bufferMs : Nat) (deadline : Option ℚ)

def deadlinePassed (world : World Bucket) : Prop :=
  ∃ limit ∈ deadline, limit ≤ world.monotonic

instance (world : World Bucket) : Decidable (deadlinePassed deadline world) :=
  inferInstanceAs (Decidable (∃ limit ∈ deadline, limit ≤ world.monotonic))

/-- What every loop does after its sleep: the put and, if it is refused, the next
wait. -/
def retryPut (world : World Bucket) (item : RateItem) : LoopState Bucket :=
  let (reAcquire, world) := world.put ops item
  if reAcquire then .left world (.returned true)
  else
    match ops.waiting world.bucket item with
    | .error raised => .left world (.raised raised)
    | .ok nextDelay => .turning world item nextDelay

/-- A turn of `_blocking_retry_sync`, with the limiter lock free. -/
def blockingRetryTurn : LoopState Bucket → LoopState Bucket
  | .left world verdict => .left world verdict
  | .turning world item waitMs =>
      match delayToSleepMs bufferMs waitMs with
      | none => .left world (.returned false)
      | some sleepMs =>
          match planDelayStep deadline world.monotonic sleepMs with
          | .error raised => .left world (.raised raised)
          | .ok (seconds, timedOut) =>
              let world := world.sleep seconds
              if timedOut then .left world (.raised (.timeoutError ""))
              else retryPut ops world (item.delay sleepMs)

/-- A turn of the synchronous loop of `_delay_waiter`, with the delay of all turns
so far that it logs. -/
def delayWaiterTurn (state : LoopState Bucket × Int) : LoopState Bucket × Int :=
  match state with
  | (.left world verdict, totalDelay) => (.left world verdict, totalDelay)
  | (.turning world item delay, totalDelay) =>
      match delayToSleepMs bufferMs delay with
      | none => (.left world (.returned false), totalDelay)
      | some sleepMs =>
          let totalDelay := totalDelay + sleepMs
          match planDelayStep deadline world.monotonic sleepMs with
          | .error raised => (.left world (.raised raised), totalDelay)
          | .ok (seconds, timedOut) =>
              let world := world.sleep seconds
              if timedOut then (.left world (.raised (.timeoutError "")), totalDelay)
              else (retryPut ops world (item.delay sleepMs), totalDelay)

/-- A turn of the coroutine `_handle_async` inside the `wait_for` of
`_handle_async_result`, which cancels a sleep that lasts until the deadline. -/
def handleAsyncTurn : LoopState Bucket → LoopState Bucket
  | .left world verdict => .left world verdict
  | .turning world item delay =>
      if ∃ limit ∈ deadline, (limit - world.monotonic) * 1000 ≤ 0 then
        .left world (.raised (.timeoutError ""))
      else
        match delayToSleepMs bufferMs delay with
        | none => .left world (.returned false)
        | some sleepMs =>
            match planDelayStep deadline world.monotonic sleepMs with
            | .error raised => .left world (.raised raised)
            | .ok (seconds, timedOut) =>
                let world := world.sleep seconds
                if timedOut ∨ deadlinePassed deadline world then
                  .left world (.raised (.timeoutError ""))
                else retryPut ops world (item.delay sleepMs)

end Turns

/-! ### Entering the loops -/

section Entries

variable {Bucket : Type} (ops : BucketOps Bucket) (deadline : Option ℚ)

/-- `_try_acquire` from its first put up to `_blocking_retry_sync`. -/
def enterBlockingRetry (world : World Bucket) (item : RateItem) : LoopState Bucket :=
  let (acquire, world) := world.put ops item
  if acquire then .left world (.returned true)
  else
    match ops.waiting world.bucket item with
    | .error raised => .left world (.raised raised)
    | .ok waitMs => .turning world item waitMs

/-- A first put up to the loops of `_delay_waiter`. -/
def enterDelayWaiter (world : World Bucket) (item : RateItem) : LoopState Bucket :=
  let (acquire, world) := world.put ops item
  if acquire then .left world (.returned true)
  else
    match ops.failingRate world.bucket with
    | none => .left world (.raised (.assertionError ""))
    | some _ =>
        match ops.waiting world.bucket item with
        | .error raised => .left world (.raised raised)
        | .ok delay => .turning world item delay

/-- `_handle_async_result` on the coroutine, which a passed deadline closes. -/
def awaitLoop : LoopState Bucket → LoopState Bucket
  | .left world verdict => .left world verdict
  | .turning world item delay =>
      if ∃ limit ∈ deadline, limit - world.monotonic ≤ 0 then
        .left world (.raised (.timeoutError ""))
      else .turning world item delay

variable {ops}

theorem enterDelayWaiter_eq (names : ∀ bucket item, (ops.put bucket item).1 = false →
      (ops.failingRate (ops.put bucket item).2).isSome = true)
    (world : World Bucket) (item : RateItem) :
    enterDelayWaiter ops world item = enterBlockingRetry ops world item := by
  unfold enterDelayWaiter enterBlockingRetry
  rw [show world.put ops item = ((world.put ops item).1, (world.put ops item).2) from rfl]
  simp only [World.put_bucket]
  cases admitted : (world.put ops item).1 with
  | true => rfl
  | false =>
      obtain ⟨rate, failing⟩ := Option.isSome_iff_exists.mp (names world.bucket item admitted)
      rw [failing]

end Entries

/-! ### The runs of the loops -/

section Runs

variable {Bucket : Type} {ops : BucketOps Bucket} {bufferMs : Nat} {deadline : Option ℚ}

/-- A put after a sleep, and the loop it goes on with if it is refused. -/
theorem retryPut_then (world : World Bucket) (item : RateItem)
    (loop : World Bucket → RateItem → Int → Option (World Bucket × Verdict)) :
    (match retryPut ops world item with
      | .left world verdict => some (world, verdict)
      | .turning world item delay => loop world item delay) =
      let (reAcquire, world) := world.put ops item
      if reAcquire then some (world, .returned true)
      else
        match ops.waiting world.bucket item with
        | .error raised => some (world, .raised raised)
        | .ok nextDelay => loop world item nextDelay := by
  simp only [retryPut]
  cases (world.put ops item).1 with
  | true => rfl
  | false =>
      simp only [Bool.false_eq_true, if_false]
      cases ops.waiting (world.put ops item).2.bucket item <;> rfl

theorem blockingRetrySync_succ (turns : Nat) (world : World Bucket) (item : RateItem)
    (waitMs : Int) :
    blockingRetrySync ops bufferMs deadline (turns + 1) world item waitMs =
      match blockingRetryTurn ops bufferMs deadline (.turning world item waitMs) with
      | .left world verdict => some (world, verdict)
      | .turning world item waitMs =>
          blockingRetrySync ops bufferMs deadline turns world item waitMs := by
  rw [blockingRetrySync]
  simp only [blockingRetryTurn]
  cases delayToSleepMs bufferMs waitMs with
  | none => rfl
  | some sleepMs =>
      simp only []
      cases planDelayStep deadline world.monotonic sleepMs with
      | error raised => rfl
      | ok planned =>
          obtain ⟨seconds, timedOut⟩ := planned
          cases timedOut with
          | true => rfl
          | false =>
              exact (retryPut_then (world.sleep seconds) (item.delay sleepMs)
                (blockingRetrySync ops bufferMs deadline turns)).symm

theorem iterate_left (turns : Nat) (world : World Bucket) (verdict : Verdict) :
    (blockingRetryTurn ops bufferMs deadline)^[turns] (.left world verdict) =
      .left world verdict :=
  Function.iterate_fixed rfl turns

theorem blockingRetrySync_eq_iterate (turns : Nat) (world : World Bucket) (item : RateItem)
    (waitMs : Int) :
    blockingRetrySync ops bufferMs deadline turns world item waitMs =
      ((blockingRetryTurn ops bufferMs deadline)^[turns]
        (.turning world item waitMs)).outcome := by
  induction turns generalizing world item waitMs with
  | zero => rfl
  | succ turns ih =>
      rw [Function.iterate_succ_apply, blockingRetrySync_succ]
      cases blockingRetryTurn ops bufferMs deadline (.turning world item waitMs) with
      | turning world item waitMs => exact ih world item waitMs
      | left world verdict =>
          rw [iterate_left]
          rfl

theorem acquireItem_eq_iterate (turns : Nat) (world : World Bucket) (item : RateItem) :
    acquireItem ops bufferMs turns world item true false deadline =
      ((blockingRetryTurn ops bufferMs deadline)^[turns]
        (enterBlockingRetry ops world item)).outcome.map
          (fun ended => (ended.1, .finished ended.2)) := by
  unfold acquireItem enterBlockingRetry
  rw [show world.put ops item = ((world.put ops item).1, (world.put ops item).2) from rfl]
  simp only []
  cases (world.put ops item).1 with
  | true =>
      simp only [if_true, iterate_left]
      rfl
  | false =>
      simp only [Bool.false_eq_true, if_false, Bool.not_true]
      cases ops.waiting (world.put ops item).2.bucket item with
      | error raised =>
          simp only [iterate_left]
          rfl
      | ok waitMs =>
          simp only []
          rw [blockingRetrySync_eq_iterate]

end Runs

/-! ### The simulations -/

/-- The delay that a turn from this state would sleep does not end at the deadline. -/
def LoopState.MissesDeadline {Bucket : Type} (bufferMs : Nat) (deadline : Option ℚ) :
    LoopState Bucket → Prop
  | .left _ _ => True
  | .turning world _ delay => ∀ sleepMs, delayToSleepMs bufferMs delay = some sleepMs →
      ∀ limit, limit ∈ deadline → world.monotonic + (sleepMs : ℚ) / 1000 ≠ limit

section Simulations

variable {Bucket : Type} {ops : BucketOps Bucket} {bufferMs : Nat} {deadline : Option ℚ}

theorem delayWaiterTurn_fst (state : LoopState Bucket × Int) :
    (delayWaiterTurn ops bufferMs deadline state).1 =
      blockingRetryTurn ops bufferMs deadline state.1 := by
  obtain ⟨state, totalDelay⟩ := state
  cases state with
  | left world verdict => rfl
  | turning world item delay =>
      simp only [delayWaiterTurn, blockingRetryTurn]
      cases delayToSleepMs bufferMs delay with
      | none => rfl
      | some sleepMs =>
          simp only []
          cases planDelayStep deadline world.monotonic sleepMs with
          | error raised => rfl
          | ok planned =>
              simp only []
              split <;> rfl

theorem delayWaiter_iterate_fst (turns : Nat) (state : LoopState Bucket × Int) :
    ((delayWaiterTurn ops bufferMs deadline)^[turns] state).1 =
      (blockingRetryTurn ops bufferMs deadline)^[turns] state.1 :=
  Function.Semiconj.iterate_right (fun state => delayWaiterTurn_fst state) turns state

/-- The test of the deadline that comes first in a turn is the one that precedes
the coroutine. -/
theorem handleAsyncTurn_awaitLoop (state : LoopState Bucket) :
    handleAsyncTurn ops bufferMs deadline (awaitLoop deadline state) =
      handleAsyncTurn ops bufferMs deadline state := by
  cases state with
  | left world verdict => rfl
  | turning world item delay =>
      simp only [awaitLoop]
      by_cases passed : ∃ limit ∈ deadline, limit - world.monotonic ≤ 0
      · rw [if_pos passed]
        obtain ⟨limit, member, spent⟩ := passed
        have scaled : (limit - world.monotonic) * 1000 ≤ 0 := by linarith
        simp only [handleAsyncTurn]
        rw [if_pos ⟨limit, member, scaled⟩]
      · rw [if_neg passed]

theorem planDelayStep_of_passed {monotonic : ℚ} (sleepMs : Int)
    (passed : ∃ limit ∈ deadline, (limit - monotonic) * 1000 ≤ 0) :
    planDelayStep deadline monotonic sleepMs = .error (.timeoutError "") := by
  obtain ⟨limit, member, spent⟩ := passed
  cases member
  simp only [planDelayStep]
  rw [if_pos spent]

/-- A full sleep ends at the deadline at the latest, hence before it, and is not
cancelled. -/
theorem not_deadlinePassed_of_planned {world : World Bucket} {sleepMs : Int} {seconds : ℚ}
    (apart : ∀ limit, limit ∈ deadline → world.monotonic + (sleepMs : ℚ) / 1000 ≠ limit)
    (full : planDelayStep deadline world.monotonic sleepMs = .ok (seconds, false)) :
    ¬deadlinePassed deadline (world.sleep seconds) := by
  rintro ⟨limit, member, reached⟩
  cases member
  have different := apart limit rfl
  simp only [planDelayStep] at full
  split at full
  · cases full
  · split at full
    · cases full
    · rename_i _left long
      cases full
      apply different
      simp only [World.sleep] at reached
      linarith

/-- One turn of the coroutine and of the blocking loop. -/
theorem handleAsyncTurn_settled {state : LoopState Bucket}
    (misses : state.MissesDeadline bufferMs deadline) :
    (handleAsyncTurn ops bufferMs deadline state).settled =
      (blockingRetryTurn ops bufferMs deadline state).settled := by
  cases state with
  | left world verdict => rfl
  | turning world item delay =>
      simp only [handleAsyncTurn, blockingRetryTurn]
      cases planned : delayToSleepMs bufferMs delay with
      | none => split <;> rfl
      | some sleepMs =>
          simp only []
          by_cases passed : ∃ limit ∈ deadline, (limit - world.monotonic) * 1000 ≤ 0
          · rw [if_pos passed, planDelayStep_of_passed sleepMs passed]
          · rw [if_neg passed]
            cases step : planDelayStep deadline world.monotonic sleepMs with
            | error raised => rfl
            | ok plan =>
                obtain ⟨seconds, timedOut⟩ := plan
                cases timedOut with
                | true => rfl
                | false =>
                    have early := not_deadlinePassed_of_planned (misses sleepMs planned) step
                    simp only [Bool.false_eq_true, false_or, if_false, if_neg early]

theorem handleAsync_succ (turns : Nat) {world : World Bucket} {item : RateItem} {delay : Int}
    (misses : (LoopState.turning world item delay).MissesDeadline bufferMs deadline) :
    handleAsync ops bufferMs deadline (turns + 1) world item delay =
      match handleAsyncTurn ops bufferMs deadline (.turning world item delay) with
      | .left world verdict => some (world, verdict)
      | .turning world item delay => handleAsync ops bufferMs deadline turns world item delay := by
  rw [handleAsync]
  simp only [handleAsyncTurn]
  by_cases passed : ∃ limit ∈ deadline, (limit - world.monotonic) * 1000 ≤ 0
  · rw [if_pos passed, if_pos passed]
  · rw [if_neg passed, if_neg passed]
    cases planned : delayToSleepMs bufferMs delay with
    | none => rfl
    | some sleepMs =>
        simp only []
        cases step : planDelayStep deadline world.monotonic sleepMs with
        | error raised => rfl
        | ok plan =>
            obtain ⟨seconds, timedOut⟩ := plan
            cases timedOut with
            | true => rfl
            | false =>
                have early := not_deadlinePassed_of_planned (misses sleepMs planned) step
                simp only [Bool.false_eq_true, false_or, if_false, if_neg early]
                exact (retryPut_then (world.sleep seconds) (item.delay sleepMs)
                  (handleAsync ops bufferMs deadline turns)).symm

/-- The coroutine as `handleAsync` has it, with no `wait_for` around it. -/
theorem handleAsync_eq_iterate (turns : Nat) (world : World Bucket) (item : RateItem)
    (delay : Int)
    (misses : ∀ turns, ((handleAsyncTurn ops bufferMs deadline)^[turns]
      (.turning world item delay)).MissesDeadline bufferMs deadline) :
    handleAsync ops bufferMs deadline turns world item delay =
      ((handleAsyncTurn ops bufferMs deadline)^[turns] (.turning world item delay)).outcome := by
  induction turns generalizing world item delay with
  | zero => rfl
  | succ turns ih =>
      have later := fun turns => misses (turns + 1)
      simp only [Function.iterate_succ_apply] at later
      rw [Function.iterate_succ_apply, handleAsync_succ turns (misses 0)]
      cases turned : handleAsyncTurn ops bufferMs deadline (.turning world item delay) with
      | turning world item delay =>
          rw [turned] at later
          exact ih world item delay later
      | left world verdict =>
          have stays : (handleAsyncTurn ops bufferMs deadline)^[turns] (.left world verdict) =
              .left world verdict :=
            Function.iterate_fixed rfl turns
          rw [stays]
          rfl

theorem LoopState.settled_cases {left right : LoopState Bucket}
    (same : left.settled = right.settled) :
    left = right ∨ ∃ world first second, left = .left world first ∧ right = .left world second ∧
      first.catchTimeout = second.catchTimeout := by
  cases left with
  | turning world item delay =>
      cases right with
      | turning _ _ _ => exact Or.inl same
      | left _ _ => cases same
  | left world verdict =>
      cases right with
      | turning _ _ _ => cases same
      | left other second =>
          injection same with sameWorld sameVerdict
          subst sameWorld
          exact Or.inr ⟨world, verdict, second, rfl, rfl, sameVerdict⟩

/-- The run of the coroutine and of the blocking loop, by induction on the turns. -/
theorem handleAsync_iterate_settled {state : LoopState Bucket}
    (misses : ∀ turns, ((blockingRetryTurn ops bufferMs deadline)^[turns] state).MissesDeadline
      bufferMs deadline) (turns : Nat) :
    ((handleAsyncTurn ops bufferMs deadline)^[turns] state).settled =
      ((blockingRetryTurn ops bufferMs deadline)^[turns] state).settled := by
  induction turns with
  | zero => rfl
  | succ turns ih =>
      rw [Function.iterate_succ_apply', Function.iterate_succ_apply']
      rcases LoopState.settled_cases ih with same | ⟨world, first, second, left, right, caught⟩
      · rw [same]
        exact handleAsyncTurn_settled (misses turns)
      · rw [left, right]
        exact congrArg (LoopState.left world) caught

end Simulations

/-! ### Agreement -/

/-- What a loop has done and answered: the seconds it slept, the timestamps it put
the item with, and its answer if it was left. -/
def LoopState.report {Bucket : Type} (state : LoopState Bucket) :
    List ℚ × List Int × Option Verdict :=
  (sleeps state.settled.world.events, stampsPut state.settled.world.events,
    state.settled.outcome.map Prod.snd)

/-- After any number of turns the three loops have performed the same sleeps, put
the item with the same timestamps and given the same answer. -/
theorem retry_loops_agree {Bucket : Type} (ops : BucketOps Bucket) (bufferMs : Nat)
    (deadline : Option ℚ) (world : World Bucket) (item : RateItem)
    (names : ∀ bucket item, (ops.put bucket item).1 = false →
      (ops.failingRate (ops.put bucket item).2).isSome = true)
    (misses : ∀ turns, ((blockingRetryTurn ops bufferMs deadline)^[turns]
      (enterBlockingRetry ops world item)).MissesDeadline bufferMs deadline)
    (turns : Nat) :
    ((delayWaiterTurn ops bufferMs deadline)^[turns + 1]
        (enterDelayWaiter ops world item, 0)).1.report =
      ((blockingRetryTurn ops bufferMs deadline)^[turns + 1]
        (enterBlockingRetry ops world item)).report ∧
    ((handleAsyncTurn ops bufferMs deadline)^[turns + 1]
        (awaitLoop deadline (enterDelayWaiter ops world item))).report =
      ((blockingRetryTurn ops bufferMs deadline)^[turns + 1]
        (enterBlockingRetry ops world item)).report := by
  rw [delayWaiter_iterate_fst, enterDelayWaiter_eq names]
  refine ⟨rfl, ?_⟩
  have settled := handleAsync_iterate_settled misses (turns + 1)
  unfold LoopState.report
  rw [Function.iterate_succ_apply, handleAsyncTurn_awaitLoop, ← Function.iterate_succ_apply,
    settled]

/-- One unit is stored when the call begins. -/
def oneUnitStored : World InMemoryBucket :=
  World.start
    { rates := oneRequestIn100
      items := [⟨"stored", 0, 1⟩]
      failingRate := none } 0

theorem retry_loops_agree_ten_later :
    ((delayWaiterTurn InMemoryBucket.ops 0 (some (1 / 2)))^[2]
        (enterDelayWaiter InMemoryBucket.ops oneUnitStored ⟨"key", 10, 1⟩, 0)).1.report =
      ((blockingRetryTurn InMemoryBucket.ops 0 (some (1 / 2)))^[2]
        (enterBlockingRetry InMemoryBucket.ops oneUnitStored ⟨"key", 10, 1⟩)).report ∧
    ((handleAsyncTurn InMemoryBucket.ops 0 (some (1 / 2)))^[2]
        (awaitLoop (some (1 / 2))
          (enterDelayWaiter InMemoryBucket.ops oneUnitStored ⟨"key", 10, 1⟩))).report =
      ((blockingRetryTurn InMemoryBucket.ops 0 (some (1 / 2)))^[2]
        (enterBlockingRetry InMemoryBucket.ops oneUnitStored ⟨"key", 10, 1⟩)).report := by
  refine retry_loops_agree InMemoryBucket.ops 0 (some (1 / 2)) oneUnitStored ⟨"key", 10, 1⟩
    InMemoryBucket.ops_names ?_ 1
  intro turns
  cases turns with
  | zero =>
      rintro sleepMs ⟨⟩ limit ⟨⟩
      norm_num [oneUnitStored, World.start]
  | succ turns =>
      -- The first turn sleeps 91 milliseconds and leaves the loop.
      have ended : (blockingRetryTurn InMemoryBucket.ops 0 (some (1 / 2))
          (enterBlockingRetry InMemoryBucket.ops oneUnitStored
            ⟨"key", 10, 1⟩)).outcome.isSome = true := by
        decide +kernel
      rw [Function.iterate_succ_apply]
      cases turned : blockingRetryTurn InMemoryBucket.ops 0 (some (1 / 2))
          (enterBlockingRetry InMemoryBucket.ops oneUnitStored ⟨"key", 10, 1⟩) with
      | turning world item delay =>
          rw [turned] at ended
          cases ended
      | left world verdict =>
          rw [iterate_left]
          trivial

end PyrateLimiter

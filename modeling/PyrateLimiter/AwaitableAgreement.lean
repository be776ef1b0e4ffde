/-
Awaitable and plain answers lead to the same acquires.

Without a deadline an awaitable answer is the plain answer a moment later, and nothing comes
in between.  So the coroutine of the delay loop, the two loops that sleep themselves and the
handing over from one to the other make one sequence of sleeps and puts.  A caller that
cannot await either gets that far on plain answers or has admitted nothing.
-/

import PyrateLimiter.AwaitableStages

namespace PyrateLimiter

/-! ### The awaited loop -/

namespace Answering

variable {Bucket : Type} {answering : Answering Bucket} {ops : BucketOps Bucket} {bufferMs : Nat}
  {turns : Nat} {world : World Bucket} {item : RateItem} {ended : World Bucket × Verdict}

theorem awaitResult_none (coroutine : Coroutine Bucket) :
    awaitResult none coroutine = coroutine := by
  funext world
  unfold awaitResult
  rw [if_neg (by simp)]

/-- An awaitable delay is the same delay a moment later. -/
theorem handleDelays_none {delay : Int} (answered : ops.waiting world.bucket item = .ok delay)
    (turns : Nat) :
    answering.handleDelays ops bufferMs none turns item none world =
      answering.handleDelays ops bufferMs none turns item (some delay) world := by
  cases turns with
  | zero => rfl
  | succ turns =>
      unfold handleDelays
      simp only [Option.elim, answered]

theorem handleDelays_of_handleAsync {delay : Int}
    (run : handleAsync ops bufferMs none turns world item delay = some ended) :
    answering.handleDelays ops bufferMs none (turns + 1) item (some delay) world = some ended := by
  induction turns generalizing world item delay with
  | zero => cases run
  | succ turns ih =>
      unfold handleAsync at run
      unfold handleDelays
      simp only [Option.not_mem_none, false_and, exists_false, if_false, Option.elim] at run ⊢
      cases planned : delayToSleepMs bufferMs delay with
      | none =>
          rw [planned] at run
          exact run
      | some sleepMs =>
          rw [planned] at run
          simp only [planDelayStep, Bool.false_eq_true, if_false] at run ⊢
          generalize (world.sleep ((sleepMs : ℚ) / 1000)).put ops (item.delay sleepMs) = retried
            at run ⊢
          split at run
          · rename_i admitted
            rw [if_pos admitted]
            exact run
          · rename_i refused
            rw [if_neg refused]
            cases answered : ops.waiting retried.2.bucket (item.delay sleepMs) with
            | error raised =>
                rw [answered] at run
                split
                · unfold handleDelays
                  simp only [Option.not_mem_none, false_and, exists_false, if_false, Option.elim,
                    answered]
                  exact run
                · exact run
            | ok nextDelay =>
                rw [answered] at run
                split
                · rw [handleDelays_none answered]
                  exact ih run
                · exact ih run

theorem handleAsync_of_handleDelays {delay : Int}
    (run : answering.handleDelays ops bufferMs none turns item (some delay) world = some ended) :
    handleAsync ops bufferMs none turns world item delay = some ended := by
  induction turns generalizing world item delay with
  | zero => cases run
  | succ turns ih =>
      unfold handleDelays at run
      unfold handleAsync
      simp only [Option.not_mem_none, false_and, exists_false, if_false, Option.elim] at run ⊢
      cases planned : delayToSleepMs bufferMs delay with
      | none =>
          rw [planned] at run
          exact run
      | some sleepMs =>
          rw [planned] at run
          simp only [planDelayStep, Bool.false_eq_true, if_false] at run ⊢
          generalize (world.sleep ((sleepMs : ℚ) / 1000)).put ops (item.delay sleepMs) = retried
            at run ⊢
          split at run
          · rename_i admitted
            rw [if_pos admitted]
            exact run
          · rename_i refused
            rw [if_neg refused]
            cases answered : ops.waiting retried.2.bucket (item.delay sleepMs) with
            | error raised =>
                split at run
                · cases turns with
                  | zero => cases run
                  | succ turns =>
                      unfold handleDelays at run
                      simp only [Option.not_mem_none, false_and, exists_false, if_false,
                        Option.elim, answered] at run
                      exact run
                · rw [answered] at run
                  exact run
            | ok nextDelay =>
                split at run
                · rw [handleDelays_none answered] at run
                  exact ih run
                · rw [answered] at run
                  exact ih run

/-! ### The plain path, and what is handed back -/

section Plain

variable (ops bufferMs turns)

def waitThenRetry (world : World Bucket) (item : RateItem) : Option (World Bucket × Verdict) :=
  match ops.waiting world.bucket item with
  | .error raised => some (world, .raised raised)
  | .ok waitMs => blockingRetrySync ops bufferMs none turns world item waitMs

variable {ops bufferMs turns} in
theorem waitThenRetry_of_error {world : World Bucket} {item : RateItem} {raised : PyError}
    (answered : ops.waiting world.bucket item = .error raised) :
    waitThenRetry ops bufferMs turns world item = some (world, .raised raised) := by
  unfold waitThenRetry
  rw [answered]

variable {ops bufferMs turns} in
theorem waitThenRetry_of_ok {world : World Bucket} {item : RateItem} {waitMs : Int}
    (answered : ops.waiting world.bucket item = .ok waitMs) :
    waitThenRetry ops bufferMs turns world item =
      blockingRetrySync ops bufferMs none turns world item waitMs := by
  unfold waitThenRetry
  rw [answered]

def putThenRetry (world : World Bucket) (item : RateItem) (blocking : Bool) :
    Option (World Bucket × Verdict) :=
  let (acquire, world) := world.put ops item
  if acquire then some (world, .returned true)
  else if !blocking then some (world, .returned false)
  else waitThenRetry ops bufferMs turns world item

theorem acquireItem_eq_putThenRetry (world : World Bucket) (item : RateItem) (blocking : Bool) :
    PyrateLimiter.acquireItem ops bufferMs turns world item blocking false none =
      (putThenRetry ops bufferMs turns world item blocking).map
        (fun (world, verdict) => (world, .finished verdict)) := by
  unfold PyrateLimiter.acquireItem putThenRetry waitThenRetry
  simp only [Bool.false_eq_true, if_false]
  split
  · rfl
  · split
    · rfl
    · cases ops.waiting (world.put ops item).2.bucket item <;> rfl

end Plain

/-- What was handed back, awaited without a deadline. -/
def settled (handed : Option (World Bucket × Handed Bucket)) : Option (World Bucket × Verdict) :=
  handed.bind (fun (world, handed) => handed.handle none world)

theorem settled_finished (world : World Bucket) (verdict : Verdict) :
    settled (some (world, .finished verdict)) = some (world, verdict) := rfl

theorem settled_awaitable (world : World Bucket) (coroutine : Coroutine Bucket) :
    settled (some (world, .awaitable coroutine)) = coroutine world := by
  unfold settled Handed.handle
  simp only [Option.bind_some, awaitResult_none]

theorem settled_forcedDelayWaiter_of_plain
    (named : (ops.failingRate world.bucket).isSome = true)
    (run : waitThenRetry ops bufferMs turns world item = some ended) :
    settled (some (answering.forcedDelayWaiter ops bufferMs none (turns + 1) world item true)) =
      some ended := by
  obtain ⟨rate, failing⟩ := Option.isSome_iff_exists.mp named
  unfold forcedDelayWaiter
  cases answered : ops.waiting world.bucket item with
  | error raised =>
      rw [waitThenRetry_of_error answered] at run
      cases run
      simp only [failing, Bool.not_true, Bool.false_eq_true, if_false]
      split
      · rw [settled_awaitable]
        unfold handleDelays
        simp only [Option.not_mem_none, false_and, exists_false, if_false, Option.elim, answered]
      · exact settled_finished _ _
  | ok waitMs =>
      rw [waitThenRetry_of_ok answered, ← handleAsync_eq_blockingRetrySync] at run
      have onward : answering.handleDelays ops bufferMs none (turns + 1) item (some waitMs)
          world = some ended := handleDelays_of_handleAsync run
      simp only [failing, Bool.not_true, Bool.false_eq_true, if_false]
      split
      · rw [settled_awaitable, handleDelays_none answered]
        exact onward
      · rw [settled_awaitable]
        exact onward

theorem plain_of_settled_forcedDelayWaiter
    (named : (ops.failingRate world.bucket).isSome = true)
    (run : settled (some
      (answering.forcedDelayWaiter ops bufferMs none turns world item true)) = some ended) :
    waitThenRetry ops bufferMs turns world item = some ended := by
  obtain ⟨rate, failing⟩ := Option.isSome_iff_exists.mp named
  unfold forcedDelayWaiter at run
  cases answered : ops.waiting world.bucket item with
  | error raised =>
      rw [waitThenRetry_of_error answered]
      simp only [failing, Bool.not_true, Bool.false_eq_true, if_false, answered] at run
      split at run
      · rw [settled_awaitable] at run
        cases turns with
        | zero => cases run
        | succ turns =>
            unfold handleDelays at run
            simp only [Option.not_mem_none, false_and, exists_false, if_false, Option.elim,
              answered] at run
            exact run
      · exact run
  | ok waitMs =>
      rw [waitThenRetry_of_ok answered, ← handleAsync_eq_blockingRetrySync]
      simp only [failing, Bool.not_true, Bool.false_eq_true, if_false, answered] at run
      split at run
      · rw [settled_awaitable, handleDelays_none answered] at run
        exact handleAsync_of_handleDelays run
      · rw [settled_awaitable] at run
        exact handleAsync_of_handleDelays run

/-- A bucket names the rate that refused. -/
def Names (ops : BucketOps Bucket) : Prop :=
  ∀ bucket item, (ops.put bucket item).1 = false →
    (ops.failingRate (ops.put bucket item).2).isSome = true

theorem waitAfterAsyncPut_of_plain (names : Names ops) {blocking : Bool}
    (run : putThenRetry ops bufferMs turns world item blocking = some ended) :
    answering.waitAfterAsyncPut ops bufferMs none (turns + 1) item blocking world =
      some ended := by
  unfold waitAfterAsyncPut putCoroutine
  unfold putThenRetry at run
  rw [awaitResult_none]
  rw [show world.put ops item = ((world.put ops item).1, (world.put ops item).2) from rfl]
    at run ⊢
  simp only [Option.bind_eq_bind, Option.bind_some] at run ⊢
  cases admitted : (world.put ops item).1 with
  | true =>
      rw [admitted] at run
      exact run
  | false =>
      have named := names world.bucket item admitted
      simp only [admitted, Bool.false_eq_true, if_false] at run
      cases blocking with
      | true =>
          simp only [Bool.not_true, Bool.false_eq_true, if_false] at run
          exact settled_forcedDelayWaiter_of_plain named run
      | false =>
          obtain ⟨rate, failing⟩ := Option.isSome_iff_exists.mp named
          simp only [forcedDelayWaiter, World.put_bucket, failing]
          exact run

theorem plain_of_waitAfterAsyncPut (names : Names ops) {blocking : Bool}
    (run : answering.waitAfterAsyncPut ops bufferMs none turns item blocking world =
      some ended) :
    putThenRetry ops bufferMs turns world item blocking = some ended := by
  unfold waitAfterAsyncPut putCoroutine at run
  unfold putThenRetry
  rw [awaitResult_none] at run
  rw [show world.put ops item = ((world.put ops item).1, (world.put ops item).2) from rfl]
    at run ⊢
  simp only [Option.bind_eq_bind, Option.bind_some] at run ⊢
  cases admitted : (world.put ops item).1 with
  | true =>
      rw [admitted] at run
      exact run
  | false =>
      have named := names world.bucket item admitted
      simp only [admitted] at run
      simp only [Bool.false_eq_true, if_false]
      cases blocking with
      | true =>
          simp only [Bool.not_true, Bool.false_eq_true, if_false]
          exact plain_of_settled_forcedDelayWaiter named run
      | false =>
          obtain ⟨rate, failing⟩ := Option.isSome_iff_exists.mp named
          simp only [forcedDelayWaiter, World.put_bucket, failing] at run
          exact run

/-! ### The loops that sleep themselves -/

theorem settled_delayLoop (turns : Nat) (world : World Bucket) (item : RateItem) (delay : Int) :
    settled (answering.delayLoop ops bufferMs none turns world item delay) =
      settled (answering.blockingRetry ops bufferMs none turns world item delay) := by
  induction turns generalizing world item delay with
  | zero => rfl
  | succ turns ih =>
      unfold delayLoop blockingRetry resumeAsync
      cases delayToSleepMs bufferMs delay with
      | none => rfl
      | some sleepMs =>
          simp only [planDelayStep, Bool.false_eq_true, if_false, awaitResult_none]
          split
          · rfl
          · split
            · rfl
            · split
              · rfl
              · split
                · rfl
                · exact ih _ _ _

theorem settled_blockingRetry_of_plain (names : Names ops)
    (plain : ∀ world item, answering.waiting world item = false) {waitMs : Int}
    (run : blockingRetrySync ops bufferMs none turns world item waitMs = some ended) :
    settled (answering.blockingRetry ops bufferMs none (turns + 1) world item waitMs) =
      some ended := by
  induction turns generalizing world item waitMs with
  | zero => cases run
  | succ turns ih =>
      unfold blockingRetrySync at run
      unfold blockingRetry
      cases planned : delayToSleepMs bufferMs waitMs with
      | none =>
          rw [planned] at run
          exact run
      | some sleepMs =>
          rw [planned] at run
          simp only [planDelayStep, Bool.false_eq_true, if_false, plain, awaitResult_none]
            at run ⊢
          split
          · rw [settled_awaitable]
            apply waitAfterAsyncPut_of_plain names
            unfold putThenRetry waitThenRetry
            simp only [Bool.not_true, Bool.false_eq_true, if_false]
            exact run
          · generalize (world.sleep ((sleepMs : ℚ) / 1000)).put ops (item.delay sleepMs) = retried
              at run ⊢
            split at run
            · rename_i admitted
              rw [if_pos admitted]
              exact run
            · rename_i refused
              rw [if_neg refused]
              cases answered : ops.waiting retried.2.bucket (item.delay sleepMs) with
              | error raised =>
                  rw [answered] at run
                  exact run
              | ok nextWait =>
                  rw [answered] at run
                  exact ih run

theorem plain_of_settled_blockingRetry (names : Names ops)
    (plain : ∀ world item, answering.waiting world item = false) {waitMs : Int}
    (run : settled (answering.blockingRetry ops bufferMs none turns world item waitMs) =
      some ended) :
    blockingRetrySync ops bufferMs none turns world item waitMs = some ended := by
  induction turns generalizing world item waitMs with
  | zero => cases run
  | succ turns ih =>
      unfold blockingRetry at run
      unfold blockingRetrySync
      cases planned : delayToSleepMs bufferMs waitMs with
      | none =>
          rw [planned] at run
          exact run
      | some sleepMs =>
          rw [planned] at run
          simp only [planDelayStep, Bool.false_eq_true, if_false, plain, awaitResult_none]
            at run ⊢
          split at run
          · rw [settled_awaitable] at run
            have followed := plain_of_waitAfterAsyncPut names run
            unfold putThenRetry waitThenRetry at followed
            simp only [Bool.not_true, Bool.false_eq_true, if_false] at followed
            exact followed
          · generalize (world.sleep ((sleepMs : ℚ) / 1000)).put ops (item.delay sleepMs) = retried
              at run ⊢
            split at run
            · rename_i admitted
              rw [if_pos admitted]
              exact run
            · rename_i refused
              rw [if_neg refused]
              cases answered : ops.waiting retried.2.bucket (item.delay sleepMs) with
              | error raised =>
                  rw [answered] at run
                  exact run
              | ok nextWait =>
                  rw [answered] at run
                  exact ih run

/-- What never fits ends the loop before it sleeps. -/
theorem settled_blockingRetry_never (turns : Nat) (world : World Bucket) (item : RateItem) :
    settled (answering.blockingRetry ops bufferMs none (turns + 1) world item (-1)) =
      some (world, .returned false) := rfl

theorem blockingRetrySync_never (turns : Nat) (world : World Bucket) (item : RateItem) :
    blockingRetrySync ops bufferMs none (turns + 1) world item (-1) =
      some (world, .returned false) := rfl

/-- The wait of a plain caller on a steady bucket. -/
theorem settled_wait_of_plain (names : Names ops) (steady : answering.Steady ops)
    (named : (ops.failingRate world.bucket).isSome = true)
    (atOnce : answering.waiting world item = false) {waitMs : Int}
    (answered : ops.waiting world.bucket item = .ok waitMs)
    (run : blockingRetrySync ops bufferMs none turns world item waitMs = some ended) :
    settled (answering.blockingRetry ops bufferMs none (turns + 1) world item waitMs) =
      some ended := by
  rcases steady with plain | awaited
  · exact settled_blockingRetry_of_plain names plain run
  · cases awaited world item atOnce named waitMs answered
    cases turns with
    | zero => cases run
    | succ turns =>
        rw [settled_blockingRetry_never, ← run]
        rfl

theorem plain_of_settled_wait (names : Names ops) (steady : answering.Steady ops)
    (named : (ops.failingRate world.bucket).isSome = true)
    (atOnce : answering.waiting world item = false) {waitMs : Int}
    (answered : ops.waiting world.bucket item = .ok waitMs)
    (run : settled (answering.blockingRetry ops bufferMs none turns world item waitMs) =
      some ended) :
    blockingRetrySync ops bufferMs none turns world item waitMs = some ended := by
  rcases steady with plain | awaited
  · exact plain_of_settled_blockingRetry names plain run
  · cases awaited world item atOnce named waitMs answered
    cases turns with
    | zero => cases run
    | succ turns =>
        rw [blockingRetrySync_never, ← run]
        rfl

/-! ### The acquire path -/

/-- Without force the delay waiter differs where the wait is plain: it loops itself. -/
theorem settled_delayWaiter_of_plain (names : Names ops) (steady : answering.Steady ops)
    (forceAsync : Bool) (named : (ops.failingRate world.bucket).isSome = true)
    (run : waitThenRetry ops bufferMs turns world item = some ended) :
    settled (answering.delayWaiter ops bufferMs none (turns + 1) world item true forceAsync) =
      some ended := by
  have forced : settled (some
      (answering.forcedDelayWaiter ops bufferMs none (turns + 1) world item true)) = some ended :=
    settled_forcedDelayWaiter_of_plain named run
  obtain ⟨rate, failing⟩ := Option.isSome_iff_exists.mp named
  unfold delayWaiter
  split
  · exact forced
  · unfold forcedDelayWaiter at forced
    simp only [failing, Bool.not_true, Bool.false_eq_true, if_false] at forced ⊢
    by_cases awaited : answering.waiting world item = true
    · rw [if_pos awaited] at forced ⊢
      exact forced
    · rw [if_neg awaited] at forced ⊢
      have atOnce := Bool.eq_false_iff.mpr awaited
      cases answered : ops.waiting world.bucket item with
      | error raised =>
          rw [answered] at forced
          exact forced
      | ok waitMs =>
          rw [waitThenRetry_of_ok answered] at run
          change settled (answering.delayLoop ops bufferMs none (turns + 1) world item waitMs) = _
          rw [settled_delayLoop]
          exact settled_wait_of_plain names steady named atOnce answered run

theorem plain_of_settled_delayWaiter (names : Names ops) (steady : answering.Steady ops)
    (forceAsync : Bool) (named : (ops.failingRate world.bucket).isSome = true)
    (run : settled (answering.delayWaiter ops bufferMs none turns world item true forceAsync) =
      some ended) :
    waitThenRetry ops bufferMs turns world item = some ended := by
  have forced : settled (some
      (answering.forcedDelayWaiter ops bufferMs none turns world item true)) = some ended →
        waitThenRetry ops bufferMs turns world item = some ended :=
    plain_of_settled_forcedDelayWaiter named
  obtain ⟨rate, failing⟩ := Option.isSome_iff_exists.mp named
  unfold delayWaiter at run
  split at run
  · exact forced run
  · unfold forcedDelayWaiter at forced
    simp only [failing, Bool.not_true, Bool.false_eq_true, if_false] at forced run
    by_cases awaited : answering.waiting world item = true
    · rw [if_pos awaited] at forced run
      exact forced run
    · rw [if_neg awaited] at run
      have atOnce := Bool.eq_false_iff.mpr awaited
      cases answered : ops.waiting world.bucket item with
      | error raised =>
          rw [answered] at run
          rw [waitThenRetry_of_error answered]
          exact run
      | ok waitMs =>
          rw [answered] at run
          rw [waitThenRetry_of_ok answered]
          change settled (answering.delayLoop ops bufferMs none turns world item waitMs) = _ at run
          rw [settled_delayLoop] at run
          exact plain_of_settled_wait names steady named atOnce answered run

theorem settled_delayWaiter_nonBlocking (turns : Nat) (forceAsync : Bool)
    (named : (ops.failingRate world.bucket).isSome = true) :
    settled (answering.delayWaiter ops bufferMs none turns world item false forceAsync) =
      some (world, .returned false) := by
  obtain ⟨rate, failing⟩ := Option.isSome_iff_exists.mp named
  unfold delayWaiter forcedDelayWaiter
  simp only [failing, Bool.not_false, if_true, ite_self, settled_finished]

theorem settled_handleBucketPut_of_plain (names : Names ops) (steady : answering.Steady ops)
    (forceAsync : Bool) {blocking : Bool}
    (run : putThenRetry ops bufferMs turns world item blocking = some ended) :
    settled (answering.handleBucketPut ops bufferMs none (turns + 1) world item blocking
      forceAsync) = some ended := by
  unfold handleBucketPut
  split
  · rw [settled_awaitable]
    exact waitAfterAsyncPut_of_plain names run
  · unfold putThenRetry at run
    rw [show world.put ops item = ((world.put ops item).1, (world.put ops item).2) from rfl]
      at run ⊢
    simp only [] at run ⊢
    cases admitted : (world.put ops item).1 with
    | true =>
        rw [admitted] at run
        exact run
    | false =>
        have named := names world.bucket item admitted
        simp only [admitted, Bool.false_eq_true, if_false] at run ⊢
        cases blocking with
        | true => exact settled_delayWaiter_of_plain names steady forceAsync named run
        | false =>
            rw [settled_delayWaiter_nonBlocking (turns + 1) forceAsync named]
            exact run

theorem plain_of_settled_handleBucketPut (names : Names ops) (steady : answering.Steady ops)
    (forceAsync : Bool) {blocking : Bool}
    (run : settled (answering.handleBucketPut ops bufferMs none turns world item blocking
      forceAsync) = some ended) :
    putThenRetry ops bufferMs turns world item blocking = some ended := by
  unfold handleBucketPut at run
  split at run
  · rw [settled_awaitable] at run
    exact plain_of_waitAfterAsyncPut names run
  · unfold putThenRetry
    rw [show world.put ops item = ((world.put ops item).1, (world.put ops item).2) from rfl]
      at run ⊢
    simp only [] at run ⊢
    cases admitted : (world.put ops item).1 with
    | true =>
        rw [admitted] at run
        exact run
    | false =>
        have named := names world.bucket item admitted
        simp only [admitted, Bool.false_eq_true, if_false] at run ⊢
        cases blocking with
        | true => exact plain_of_settled_delayWaiter names steady forceAsync named run
        | false =>
            rw [settled_delayWaiter_nonBlocking turns forceAsync named] at run
            exact run

theorem acquireCo_eq (awaitsItem awaitsBucket : Bool) (turns : Nat) (world : World Bucket)
    (item : RateItem) (blocking forceAsync : Bool) :
    answering.acquireCo ops bufferMs none awaitsItem awaitsBucket turns item blocking forceAsync
        world =
      settled (answering.handleBucketPut ops bufferMs none turns world item blocking
        forceAsync) := by
  unfold acquireCo
  rw [if_neg (by simp)]
  rfl

/-- A coroutine around what the forced delay loop hands back, and what it raises at once. -/
theorem settled_handed (pair : World Bucket × Handed Bucket) :
    settled (match pair with
      | (world, .finished (.raised raised)) => some (world, .finished (.raised raised))
      | (world, handed) => some (world, .awaitable (handed.handle none))) =
      settled (some pair) := by
  obtain ⟨world, verdict | coroutine⟩ := pair
  · cases verdict with
    | returned acquired => rfl
    | raised raised => rfl
  · simp only [settled_awaitable, Handed.handle, awaitResult_none]

/-- Past the stages before the put, an acquire that may hand back an awaitable is a put with
what follows it. -/
theorem settled_acquireItem (turns : Nat) (world : World Bucket)
    (item : RateItem) (blocking forceAsync : Bool) :
    settled (answering.acquireItem ops bufferMs none turns world item blocking forceAsync true) =
      if answering.wrapItem ∨ answering.get ∨ answering.put world item then
        settled (answering.handleBucketPut ops bufferMs none turns world item blocking forceAsync)
      else
        let (acquire, world) := world.put ops item
        if acquire then some (world, .returned true)
        else if !blocking then some (world, .returned false)
        else if forceAsync || answering.waiting world item then
          settled (some
            (answering.forcedDelayWaiter ops bufferMs none turns world item blocking))
        else
          match ops.waiting world.bucket item with
          | .error raised => some (world, .raised raised)
          | .ok waitMs =>
              settled (answering.blockingRetry ops bufferMs none turns world item waitMs) := by
  unfold acquireItem
  simp only [Bool.not_true, Bool.and_false, Bool.false_eq_true, if_false, Bool.false_and]
  by_cases wraps : answering.wrapItem = true
  · rw [if_pos wraps, if_pos (Or.inl wraps), settled_awaitable, acquireCo_eq]
  · rw [if_neg wraps]
    by_cases gets : answering.get = true
    · rw [if_pos gets, if_pos (Or.inr (Or.inl gets)), settled_awaitable, acquireCo_eq]
    · rw [if_neg gets]
      by_cases puts : answering.put world item = true
      · rw [if_pos puts, if_pos (Or.inr (Or.inr puts)), settled_awaitable, awaitResult_none]
        unfold handleBucketPut
        rw [if_pos puts, settled_awaitable]
      · have atOnce : ¬(answering.wrapItem = true ∨ answering.get = true ∨
            answering.put world item = true) := by
          rintro (wrapping | getting | putting)
          · exact wraps wrapping
          · exact gets getting
          · exact puts putting
        rw [if_neg puts, if_neg atOnce]
        split
        · rfl
        · split
          · rfl
          · split
            · exact settled_handed _
            · cases ops.waiting (world.put ops item).2.bucket item <;> rfl

theorem settled_acquireItem_of_plain (names : Names ops) (steady : answering.Steady ops)
    (forceAsync : Bool) {blocking : Bool}
    (run : putThenRetry ops bufferMs turns world item blocking = some ended) :
    settled (answering.acquireItem ops bufferMs none (turns + 1) world item blocking forceAsync
      true) = some ended := by
  rw [settled_acquireItem]
  split
  · exact settled_handleBucketPut_of_plain names steady forceAsync run
  · unfold putThenRetry at run
    rw [show world.put ops item = ((world.put ops item).1, (world.put ops item).2) from rfl]
      at run ⊢
    simp only [] at run ⊢
    cases admitted : (world.put ops item).1 with
    | true =>
        rw [admitted] at run
        exact run
    | false =>
        have named := names world.bucket item admitted
        simp only [admitted, Bool.false_eq_true, if_false] at run ⊢
        cases blocking with
        | false => exact run
        | true =>
            simp only [Bool.not_true, Bool.false_eq_true, if_false] at run ⊢
            split
            · exact settled_forcedDelayWaiter_of_plain named run
            · rename_i plainly
              have atOnce : answering.waiting (world.put ops item).2 item = false := by
                rw [Bool.or_eq_true, not_or] at plainly
                exact Bool.eq_false_iff.mpr plainly.2
              cases answered : ops.waiting (world.put ops item).2.bucket item with
              | error raised =>
                  rw [waitThenRetry_of_error answered] at run
                  exact run
              | ok waitMs =>
                  rw [waitThenRetry_of_ok answered] at run
                  exact settled_wait_of_plain names steady named atOnce answered run

theorem plain_of_settled_acquireItem (names : Names ops) (steady : answering.Steady ops)
    (forceAsync : Bool) {blocking : Bool}
    (run : settled (answering.acquireItem ops bufferMs none turns world item blocking forceAsync
      true) = some ended) :
    putThenRetry ops bufferMs turns world item blocking = some ended := by
  rw [settled_acquireItem] at run
  split at run
  · exact plain_of_settled_handleBucketPut names steady forceAsync run
  · unfold putThenRetry
    rw [show world.put ops item = ((world.put ops item).1, (world.put ops item).2) from rfl]
      at run ⊢
    simp only [] at run ⊢
    cases admitted : (world.put ops item).1 with
    | true =>
        rw [admitted] at run
        exact run
    | false =>
        have named := names world.bucket item admitted
        simp only [admitted, Bool.false_eq_true, if_false] at run ⊢
        cases blocking with
        | false => exact run
        | true =>
            simp only [Bool.not_true, Bool.false_eq_true, if_false] at run ⊢
            split at run
            · exact plain_of_settled_forcedDelayWaiter named run
            · rename_i plainly
              have atOnce : answering.waiting (world.put ops item).2 item = false := by
                rw [Bool.or_eq_true, not_or] at plainly
                exact Bool.eq_false_iff.mpr plainly.2
              cases answered : ops.waiting (world.put ops item).2.bucket item with
              | error raised =>
                  rw [answered] at run
                  rw [waitThenRetry_of_error answered]
                  exact run
              | ok waitMs =>
                  rw [answered] at run
                  rw [waitThenRetry_of_ok answered]
                  exact plain_of_settled_wait names steady named atOnce answered run

theorem checkArguments_forever (blocking : Bool) : checkArguments blocking (-1) = none := by
  unfold checkArguments
  rw [if_neg (by simp), if_neg (by simp)]

theorem tryAcquire_eq_putThenRetry (now : Int) (name : String) {weight : Int}
    (positive : 1 ≤ weight) (blocking : Bool) :
    PyrateLimiter.tryAcquire ops bufferMs turns world now name weight blocking (-1) =
      (putThenRetry ops bufferMs turns world (PyrateLimiter.wrapItem now name weight) blocking).map
        (fun ended => (ended.1, ended.2.catchTimeout)) := by
  simp only [PyrateLimiter.tryAcquire, checkArguments_forever, PyrateLimiter.tryAcquireInner,
    if_true, if_neg (show ¬weight < 0 by omega), if_neg (show ¬weight = 0 by omega),
    acquireItem_eq_putThenRetry]
  cases putThenRetry ops bufferMs turns world (PyrateLimiter.wrapItem now name weight) blocking <;>
    rfl

theorem acquire_eq_settled (now : Int) (name : String) {weight : Int} (positive : 1 ≤ weight)
    (blocking : Bool) (entry : EntryPoint) :
    answering.acquire ops bufferMs turns world now name weight blocking (-1) entry =
      (settled (answering.acquireItem ops bufferMs none turns world
        (PyrateLimiter.wrapItem now name weight) blocking (entry = .tryAcquireAsync) true)).map
        (fun ended => (ended.1, ended.2.catchTimeout)) := by
  unfold acquire
  rw [if_neg (fun both => absurd both.2 (show ¬weight = 0 by omega))]
  simp only [checkArguments_forever, tryAcquireInner, if_true,
    if_neg (show ¬weight < 0 by omega), if_neg (show ¬weight = 0 by omega)]
  unfold settled
  cases answering.acquireItem ops bufferMs none turns world
    (PyrateLimiter.wrapItem now name weight) blocking (entry = .tryAcquireAsync) true with
  | none => rfl
  | some handed =>
      simp only [Option.bind_eq_bind, Option.bind_some]
      cases handed.2.handle none handed.1 <;> rfl

end Answering

/-- Whichever of `wrap_item`, `get`, `put` and `waiting` answer with awaitables, and at whichever
calls, both entry points without a timeout come to the end that the plain call comes to, with
the same sleeps and puts, or like it to none. -/
theorem awaitable_stages_agree {Bucket : Type} (ops : BucketOps Bucket)
    (names : Answering.Names ops) (answering : Answering Bucket) (steady : answering.Steady ops)
    (bufferMs : Nat) (world : World Bucket) (now : Int) (name : String) (weight : Int)
    (blocking : Bool) (entry : EntryPoint) (ended : World Bucket × Verdict) :
    (∃ turns, answering.acquire ops bufferMs turns world now name weight blocking (-1) entry =
        some ended) ↔
      ∃ turns, tryAcquire ops bufferMs turns world now name weight blocking (-1) =
        some ended := by
  by_cases positive : 1 ≤ weight
  · constructor
    · rintro ⟨turns, run⟩
      rw [Answering.acquire_eq_settled now name positive] at run
      obtain ⟨reached, settled, caught⟩ := Option.map_eq_some_iff.mp run
      refine ⟨turns, ?_⟩
      rw [Answering.tryAcquire_eq_putThenRetry now name positive,
        Answering.plain_of_settled_acquireItem names steady _ settled]
      exact congrArg some caught
    · rintro ⟨turns, run⟩
      rw [Answering.tryAcquire_eq_putThenRetry now name positive] at run
      obtain ⟨reached, plain, caught⟩ := Option.map_eq_some_iff.mp run
      refine ⟨turns + 1, ?_⟩
      rw [Answering.acquire_eq_settled now name positive,
        Answering.settled_acquireItem_of_plain names steady _ plain]
      exact congrArg some caught
  · have same : ∀ turns, answering.acquire ops bufferMs turns world now name weight blocking (-1)
        entry = tryAcquire ops bufferMs turns world now name weight blocking (-1) := by
      intro turns
      unfold Answering.acquire tryAcquire Answering.tryAcquireInner tryAcquireInner
      simp only [Answering.checkArguments_forever]
      by_cases weightless : weight = 0
      · subst weightless
        cases entry <;> rfl
      · have negative : weight < 0 := by omega
        rw [if_neg (fun both => absurd both.2 weightless), if_pos negative, if_pos negative]
        rfl
    exact exists_congr (fun turns => by rw [same turns])

/-- Puts answer with awaitables at every other event, waits that peek always do. -/
def alternating : Answering InMemoryBucket :=
  { wrapItem := false
    get := false
    put := fun world _item => world.events.length % 2 = 1
    waiting := fun world item => needsPeek world.bucket.failingRate item
    leaksAsync := false }

theorem awaitable_stages_agree_alternating :
    ∃ turns final, alternating.acquire InMemoryBucket.ops 0 turns
        (World.start ((InMemoryBucket.empty twoIn100ThreeIn1000).putAll
          [⟨"a", 0, 1⟩, ⟨"b", 40, 1⟩]) 0) 50 "c" 2 true (-1) .tryAcquire =
      some (final, .returned true) := by
  have ran : (tryAcquire InMemoryBucket.ops 0 3
      (World.start ((InMemoryBucket.empty twoIn100ThreeIn1000).putAll
        [⟨"a", 0, 1⟩, ⟨"b", 40, 1⟩]) 0) 50 "c" 2 true (-1)).map Prod.snd =
      some (.returned true) := by
    decide +kernel
  obtain ⟨⟨final, verdict⟩, run, same⟩ := Option.map_eq_some_iff.mp ran
  cases same
  have steady : alternating.Steady InMemoryBucket.ops :=
    Answering.steady_of_peek true InMemoryBucket.peek (fun _bucket _item => rfl)
      (fun _world _item => (Bool.true_and _).symm)
  obtain ⟨turns, awaited⟩ := (awaitable_stages_agree InMemoryBucket.ops InMemoryBucket.ops_names
    alternating steady 0 _ 50 "c" 2 true .tryAcquire (final, .returned true)).mpr ⟨3, run⟩
  exact ⟨turns, final, awaited⟩

/-! ### The wrapper of a plain function -/

namespace Answering

variable {Bucket : Type} {answering : Answering Bucket} {ops : BucketOps Bucket} {bufferMs : Nat}
  {turns : Nat} {world final : World Bucket} {item : RateItem}

theorem admittedItems_sleep (world : World Bucket) (seconds : ℚ) :
    admittedItems (world.sleep seconds).events = admittedItems world.events := by
  change admittedItems (world.events ++ [.slept seconds]) = _
  rw [show admittedItems (world.events ++ [.slept seconds]) =
    admittedItems world.events ++ [] from List.filterMap_append, List.append_nil]

theorem admittedItems_put_refused (refused : ¬(world.put ops item).1 = true) :
    admittedItems (world.put ops item).2.events = admittedItems world.events := by
  have outcome : (ops.put world.bucket item).1 = false := Bool.eq_false_iff.mpr refused
  change admittedItems (world.events ++ [.put item (ops.put world.bucket item).1 _]) = _
  rw [outcome, show admittedItems (world.events ++ [.put item false (ops.put world.bucket item).2])
    = admittedItems world.events ++ [] from List.filterMap_append, List.append_nil]

/-- The plain caller's loop comes to an end of its own only as the loop over plain answers
does, and whatever else it comes to, nothing has been admitted. -/
theorem blockingRetry_finished {waitMs : Int} {handed : Handed Bucket}
    (run : answering.blockingRetry ops bufferMs none turns world item waitMs =
      some (final, handed)) :
    (∀ verdict, handed = .finished verdict → verdict = .raised (.assertionError "") ∨
        blockingRetrySync ops bufferMs none turns world item waitMs = some (final, verdict)) ∧
      (handed ≠ .finished (.returned true) →
        admittedItems final.events = admittedItems world.events) := by
  induction turns generalizing world item waitMs with
  | zero => cases run
  | succ turns ih =>
      unfold blockingRetry at run
      unfold blockingRetrySync
      cases planned : delayToSleepMs bufferMs waitMs with
      | none =>
          rw [planned] at run
          cases run
          exact ⟨(fun verdict same => by cases same; exact Or.inr rfl), fun _unadmitted => rfl⟩
      | some sleepMs =>
          rw [planned] at run
          simp only [planDelayStep, Bool.false_eq_true, if_false] at run ⊢
          have slept := admittedItems_sleep world ((sleepMs : ℚ) / 1000)
          split at run
          · cases run
            exact ⟨(fun verdict same => by cases same), fun _unadmitted => slept⟩
          · split at run
            · rename_i admitted
              cases run
              rw [if_pos admitted]
              exact ⟨(fun verdict same => by cases same; exact Or.inr rfl),
                fun unadmitted => absurd rfl unadmitted⟩
            · rename_i refused
              rw [if_neg refused]
              have unadmitted := (admittedItems_put_refused refused).trans slept
              split at run
              · cases run
                exact ⟨(fun verdict same => by cases same; exact Or.inl rfl),
                  fun _unadmitted => unadmitted⟩
              · generalize (world.sleep ((sleepMs : ℚ) / 1000)).put ops (item.delay sleepMs) =
                  retried at run unadmitted ⊢
                cases answered : ops.waiting retried.2.bucket (item.delay sleepMs) with
                | error raised =>
                    rw [answered] at run
                    cases run
                    exact ⟨(fun verdict same => by cases same; exact Or.inr rfl),
                      fun _unadmitted => unadmitted⟩
                | ok nextWait =>
                    rw [answered] at run
                    obtain ⟨same, still⟩ := ih run
                    exact ⟨same, fun notAdmitted => (still notAdmitted).trans unadmitted⟩

/-- What a caller who needs plain answers is handed: the end of the plain path, or an error
or an awaitable with nothing admitted. -/
structure EndsPlainly (ops : BucketOps Bucket) (bufferMs turns : Nat) (world : World Bucket)
    (item : RateItem) (final : World Bucket) (handed : Handed Bucket) : Prop where
  finished : ∀ verdict, handed = .finished verdict →
    (∃ message, verdict = .raised (.assertionError message)) ∨
      (∃ message, verdict = .raised (.runtimeError message)) ∨
        putThenRetry ops bufferMs turns world item true = some (final, verdict)
  unadmitted : handed ≠ .finished (.returned true) →
    admittedItems final.events = admittedItems world.events

theorem EndsPlainly.of_refusal (message : String) :
    EndsPlainly ops bufferMs turns world item world
      (.finished (.raised (.runtimeError message))) where
  finished := fun verdict same => by cases same; exact Or.inr (Or.inl ⟨message, rfl⟩)
  unadmitted := fun _unadmitted => rfl

theorem acquireItem_endsPlainly {handed : Handed Bucket}
    (run : answering.acquireItem ops bufferMs none turns world item true false false =
      some (final, handed)) :
    EndsPlainly ops bufferMs turns world item final handed := by
  unfold acquireItem at run
  simp only [Bool.not_false, Bool.and_self, Bool.not_true, Bool.false_eq_true, if_false, if_true,
    Bool.true_and, Bool.false_or] at run
  split at run
  · cases run
    exact EndsPlainly.of_refusal _
  · split at run
    · cases run
      exact EndsPlainly.of_refusal _
    · split at run
      · cases run
        exact EndsPlainly.of_refusal _
      · split at run
        · cases run
          exact EndsPlainly.of_refusal _
        · split at run
          · rename_i admitted
            cases run
            refine ⟨?_, fun unadmitted => absurd rfl unadmitted⟩
            intro verdict same
            cases same
            refine Or.inr (Or.inr ?_)
            unfold putThenRetry
            simp only [if_pos admitted]
          · rename_i refused
            have unadmitted := admittedItems_put_refused refused
            have onward : putThenRetry ops bufferMs turns world item true =
                waitThenRetry ops bufferMs turns (world.put ops item).2 item := by
              unfold putThenRetry
              simp only [if_neg refused, Bool.not_true, Bool.false_eq_true, if_false]
            split at run
            · rename_i awaited
              unfold forcedDelayWaiter at run
              simp only [Bool.not_true, Bool.false_eq_true, if_false, if_pos awaited] at run
              cases failing : ops.failingRate (world.put ops item).2.bucket with
              | none =>
                  rw [failing] at run
                  cases run
                  exact ⟨(fun verdict same => by cases same; exact Or.inl ⟨_, rfl⟩),
                    fun _unadmitted => unadmitted⟩
              | some rate =>
                  rw [failing] at run
                  cases run
                  exact ⟨(fun verdict same => by cases same), fun _unadmitted => unadmitted⟩
            · cases answered : ops.waiting (world.put ops item).2.bucket item with
              | error raised =>
                  rw [answered] at run
                  cases run
                  rw [waitThenRetry_of_error answered] at onward
                  exact ⟨(fun verdict same => by cases same; exact Or.inr (Or.inr onward)),
                    fun _unadmitted => unadmitted⟩
              | ok waitMs =>
                  rw [answered] at run
                  rw [waitThenRetry_of_ok answered] at onward
                  obtain ⟨same, still⟩ := blockingRetry_finished run
                  refine ⟨?_, fun notAdmitted => (still notAdmitted).trans unadmitted⟩
                  intro verdict finished
                  rcases same verdict finished with asserted | plain
                  · exact Or.inl ⟨_, asserted⟩
                  · exact Or.inr (Or.inr (onward.trans plain))

end Answering

/-- The wrapper of a plain function runs the body only after exactly the sleeps and puts of an
acquire on plain answers.  Where an answer turns out to be an awaitable it raises, and nothing
has been admitted. -/
theorem sync_wrapper_plain_or_unadmitted {Bucket : Type} (ops : BucketOps Bucket)
    (answering : Answering Bucket) (bufferMs turns : Nat) (world : World Bucket) (now : Int)
    (name : String) (weight : Int) {final : World Bucket} {result : WrappedCall}
    (run : answering.syncWrapper ops bufferMs turns world now name weight =
      some (final, result)) :
    (result = .executesBody →
        syncWrapper ops bufferMs turns world now name weight = some (final, .executesBody)) ∧
      (result ≠ .executesBody → admittedItems final.events = admittedItems world.events) := by
  unfold Answering.syncWrapper Answering.tryAcquireInner at run
  unfold syncWrapper tryAcquireInner
  simp only [if_true] at run ⊢
  by_cases negative : weight < 0
  · rw [if_pos negative] at run ⊢
    cases run
    exact ⟨(fun same => by cases same), fun _unadmitted => rfl⟩
  · rw [if_neg negative] at run ⊢
    by_cases weightless : weight = 0
    · rw [if_pos weightless] at run ⊢
      cases run
      exact ⟨fun _same => rfl, fun body => absurd rfl body⟩
    · rw [if_neg weightless] at run ⊢
      rw [Answering.acquireItem_eq_putThenRetry]
      cases handedBack : answering.acquireItem ops bufferMs none turns world
          (wrapItem now name weight) true false false with
      | none =>
          rw [handedBack] at run
          cases run
      | some handed =>
          obtain ⟨reached, handed⟩ := handed
          obtain ⟨finished, unadmitted⟩ := Answering.acquireItem_endsPlainly handedBack
          rw [handedBack] at run
          simp only [Option.bind_eq_bind, Option.bind_some] at run
          split at run
          · rename_i acquired
            cases run
            rcases finished _ rfl with ⟨_, impossible⟩ | ⟨_, impossible⟩ | plain
            · cases impossible
            · cases impossible
            · rw [plain]
              exact ⟨fun _same => rfl, fun body => absurd rfl body⟩
          · rename_i message
            cases run
            rcases finished _ rfl with ⟨_, impossible⟩ | ⟨_, impossible⟩ | plain
            · cases impossible
            · cases impossible
            · rw [plain]
              exact ⟨fun _same => rfl, fun body => absurd rfl body⟩
          · cases run
            exact ⟨(fun same => by cases same), fun _body => unadmitted (by simp)⟩
          · cases run
            exact ⟨(fun same => by cases same), fun _body => unadmitted (by simp)⟩

/-- Waits are plain, and so are puts before the first sleep. -/
def awaitableRetry : Answering InMemoryBucket :=
  { alternating with
    put := fun world _item => world.events.length = 2
    waiting := fun _world _item => false }

theorem sync_wrapper_plain_or_unadmitted_retry :
    ∃ final, awaitableRetry.syncWrapper InMemoryBucket.ops 0 3
        (World.start ((InMemoryBucket.empty oneRequestIn100).putAll [⟨"a", 0, 1⟩]) 0) 50 "b" 1 =
          some (final,
            .raised (.runtimeError "Can't use async bucket with sync decorator")) ∧
      admittedItems final.events = [] := by
  have ran : (awaitableRetry.syncWrapper InMemoryBucket.ops 0 3
      (World.start ((InMemoryBucket.empty oneRequestIn100).putAll [⟨"a", 0, 1⟩]) 0) 50 "b"
        1).map Prod.snd =
      some (.raised (.runtimeError "Can't use async bucket with sync decorator")) := by
    decide +kernel
  obtain ⟨⟨final, result⟩, run, same⟩ := Option.map_eq_some_iff.mp ran
  cases same
  exact ⟨final, run, (sync_wrapper_plain_or_unadmitted InMemoryBucket.ops awaitableRetry 0 3 _ 50
    "b" 1 run).2 (fun impossible => by cases impossible)⟩

end PyrateLimiter

/-
Buckets that a limiter cannot tell apart.

The limiter asks a bucket three things only: to put an item, which rate refused it, and,
right after a refusal, how long to wait.  Two buckets that answer these alike, for puts
that are not stamped too early, lead every entry point through the same sleeps and puts to
the same verdict.  When a stamp is too early is read off the second bucket.  Taken with
itself, a bucket gives the rule for what sleeps and puts keep.
-/

import PyrateLimiter.AsyncAcquire
import PyrateLimiter.DeadlineBudget

namespace PyrateLimiter

section Simulation

variable {First Second : Type}

/-- What an event tells apart from the state of the bucket. -/
def Event.forget {Bucket : Type} : Event Bucket → Event Unit
  | .put item acquired _ => .put item acquired ()
  | .slept seconds => .slept seconds

def World.trace {Bucket : Type} (world : World Bucket) : List (Event Unit) :=
  world.events.map Event.forget

/-- Sleeps and puts in step keep the two worlds near, puts stamped when the second bucket is
ready are answered alike, and so is the wait after a refusal. -/
structure Lockstep (first : BucketOps First) (second : BucketOps Second)
    (ready : Second → Int → Prop) (near : World First → World Second → Prop) : Prop where
  later : ∀ {bucket : Second} {stamp late : Int}, ready bucket stamp → stamp ≤ late →
    ready bucket late
  stays : ∀ {bucket : Second} {item : RateItem}, ready bucket item.timestamp →
    ready (second.put bucket item).2 item.timestamp
  monotonic : ∀ {world : World First} {other : World Second}, near world other →
    world.monotonic = other.monotonic
  sleep : ∀ {world : World First} {other : World Second} (seconds : ℚ), near world other →
    near (world.sleep seconds) (other.sleep seconds)
  put : ∀ {world : World First} {other : World Second} {item : RateItem}, near world other →
    ready other.bucket item.timestamp → 1 ≤ item.weight →
      (world.put first item).1 = (other.put second item).1 ∧
        near (world.put first item).2 (other.put second item).2
  named : ∀ {world : World First} {other : World Second} {item : RateItem}, near world other →
    ready other.bucket item.timestamp → 1 ≤ item.weight → (other.put second item).1 = false →
      (first.failingRate (world.put first item).2.bucket).isSome =
        (second.failingRate (other.put second item).2.bucket).isSome
  waiting : ∀ {world : World First} {other : World Second} {item : RateItem}, near world other →
    ready other.bucket item.timestamp → 1 ≤ item.weight → (other.put second item).1 = false →
      first.waiting (world.put first item).2.bucket item =
        second.waiting (other.put second item).2.bucket item

/-- Both computations run out of turns, or both end in the same result. -/
def Agree {Result : Type} (near : World First → World Second → Prop) :
    Option (World First × Result) → Option (World Second × Result) → Prop :=
  Option.Rel (fun left right => near left.1 right.1 ∧ left.2 = right.2)

variable {first : BucketOps First} {second : BucketOps Second} {ready : Second → Int → Prop}
  {near : World First → World Second → Prop} {world : World First} {other : World Second}

theorem Agree.of_left {Result : Type} {ended : World First × Result}
    {right : Option (World Second × Result)} (agree : Agree near (some ended) right) :
    ∃ other, right = some (other, ended.2) ∧ near ended.1 other := by
  cases agree with
  | some same =>
      rename_i finish
      obtain ⟨other, result⟩ := finish
      obtain ⟨alike, equal⟩ := same
      exact ⟨other, congrArg (fun result => some (other, result)) equal.symm, alike⟩

theorem Agree.of_right {Result : Type} {left : Option (World First × Result)}
    {ended : World Second × Result} (agree : Agree near left (some ended)) :
    ∃ world, left = some (world, ended.2) ∧ near world ended.1 := by
  cases agree with
  | some same =>
      rename_i finish
      obtain ⟨world, result⟩ := finish
      obtain ⟨alike, equal⟩ := same
      exact ⟨world, congrArg (fun result => some (world, result)) equal, alike⟩

theorem agree_pure {Result : Type} (alike : near world other) (result : Result) :
    Agree near (some (world, result)) (some (other, result)) :=
  .some ⟨alike, rfl⟩

theorem Agree.bind {Result Next : Type} {left : Option (World First × Result)}
    {right : Option (World Second × Result)} (agree : Agree near left right)
    {continueLeft : World First × Result → Option (World First × Next)}
    {continueRight : World Second × Result → Option (World Second × Next)}
    (onward : ∀ {world : World First} {other : World Second} (result : Result),
      near world other →
        Agree near (continueLeft (world, result)) (continueRight (other, result))) :
    Agree near (left.bind continueLeft) (right.bind continueRight) := by
  cases agree with
  | none => exact .none
  | some same =>
      rename_i start finish
      obtain ⟨world, result⟩ := start
      obtain ⟨other, again⟩ := finish
      obtain ⟨alike, equal⟩ := same
      subst equal
      exact onward result alike

/-- A put, and what follows if it is refused. -/
theorem agree_put {item : RateItem} (lockstep : Lockstep first second ready near)
    (alike : near world other) (current : ready other.bucket item.timestamp)
    (positive : 1 ≤ item.weight)
    (onLeft : World First → Option (World First × Verdict))
    (onRight : World Second → Option (World Second × Verdict))
    (refused : (second.put other.bucket item).1 = false →
      Agree near (onLeft (world.put first item).2) (onRight (other.put second item).2)) :
    Agree near
      (if (world.put first item).1 then some ((world.put first item).2, .returned true)
        else onLeft (world.put first item).2)
      (if (other.put second item).1 then some ((other.put second item).2, .returned true)
        else onRight (other.put second item).2) := by
  obtain ⟨acquired, after⟩ := lockstep.put alike current positive
  rw [acquired]
  cases verdict : (other.put second item).1 with
  | true => exact agree_pure after (Verdict.returned true)
  | false => exact refused verdict

/-- The wait right after a refused put. -/
theorem agree_waiting {Result : Type} {item : RateItem}
    (lockstep : Lockstep first second ready near)
    (alike : near world other) (current : ready other.bucket item.timestamp)
    (positive : 1 ≤ item.weight) (refused : (second.put other.bucket item).1 = false)
    (raise : PyError → Result)
    (onLeft : World First → Int → Option (World First × Result))
    (onRight : World Second → Int → Option (World Second × Result))
    (answered : ∀ delay, Agree near (onLeft (world.put first item).2 delay)
      (onRight (other.put second item).2 delay)) :
    Agree near
      (match first.waiting (world.put first item).2.bucket item with
      | .error raised => some ((world.put first item).2, raise raised)
      | .ok delay => onLeft (world.put first item).2 delay)
      (match second.waiting (other.put second item).2.bucket item with
      | .error raised => some ((other.put second item).2, raise raised)
      | .ok delay => onRight (other.put second item).2 delay) := by
  obtain ⟨_acquired, after⟩ := lockstep.put alike current positive
  have same : first.waiting (world.put first item).2.bucket item =
      second.waiting (other.put second item).2.bucket item :=
    lockstep.waiting alike current positive refused
  rw [same]
  cases second.waiting (other.put second item).2.bucket item with
  | error raised => exact agree_pure after (raise raised)
  | ok delay => exact answered delay

/-! ### The retry loops -/

/-- What both loops do after a sleep. -/
def retryThen {Bucket : Type} (ops : BucketOps Bucket) (item : RateItem)
    (onward : World Bucket → Int → Option (World Bucket × Verdict)) (world : World Bucket) :
    Option (World Bucket × Verdict) :=
  if (world.put ops item).1 then some ((world.put ops item).2, .returned true)
  else
    match ops.waiting (world.put ops item).2.bucket item with
    | .error raised => some ((world.put ops item).2, .raised raised)
    | .ok nextWait => onward (world.put ops item).2 nextWait

theorem agree_retryThen {item : RateItem} (lockstep : Lockstep first second ready near)
    (alike : near world other) (current : ready other.bucket item.timestamp)
    (positive : 1 ≤ item.weight)
    {onLeft : World First → Int → Option (World First × Verdict)}
    {onRight : World Second → Int → Option (World Second × Verdict)}
    (onward : ∀ {world : World First} {other : World Second} (nextWait : Int),
      near world other → ready other.bucket item.timestamp →
        Agree near (onLeft world nextWait) (onRight other nextWait)) :
    Agree near (retryThen first item onLeft world) (retryThen second item onRight other) := by
  apply agree_put lockstep alike current positive
    (fun world =>
      match first.waiting world.bucket item with
      | .error raised => some (world, .raised raised)
      | .ok nextWait => onLeft world nextWait)
    (fun other =>
      match second.waiting other.bucket item with
      | .error raised => some (other, .raised raised)
      | .ok nextWait => onRight other nextWait)
  intro refused
  apply agree_waiting lockstep alike current positive refused Verdict.raised onLeft onRight
  intro nextWait
  obtain ⟨_acquired, after⟩ := lockstep.put alike current positive
  exact onward nextWait after (lockstep.stays current)

theorem blockingRetrySync_agree (lockstep : Lockstep first second ready near)
    (bufferMs : Nat) (deadline : Option ℚ) (turns : Nat) (alike : near world other)
    {item : RateItem} (current : ready other.bucket item.timestamp) (positive : 1 ≤ item.weight)
    (waitMs : Int) :
    Agree near (blockingRetrySync first bufferMs deadline turns world item waitMs)
      (blockingRetrySync second bufferMs deadline turns other item waitMs) := by
  induction turns generalizing world other item waitMs with
  | zero => exact .none
  | succ turns ih =>
      unfold blockingRetrySync
      rw [lockstep.monotonic alike]
      cases planned : delayToSleepMs bufferMs waitMs with
      | none => exact agree_pure alike (Verdict.returned false)
      | some sleepMs =>
          have nonneg := buffer_le_delayToSleepMs planned
          simp only []
          cases planDelayStep deadline other.monotonic sleepMs with
          | error raised => exact agree_pure alike (Verdict.raised raised)
          | ok plan =>
              obtain ⟨seconds, timedOut⟩ := plan
              have slept := lockstep.sleep seconds alike
              cases timedOut with
              | true => exact agree_pure slept (Verdict.raised (.timeoutError ""))
              | false =>
                  have late : ready (other.sleep seconds).bucket (item.delay sleepMs).timestamp :=
                    lockstep.later current (by rw [RateItem.delay_timestamp]; omega)
                  simp only [Bool.false_eq_true, if_false]
                  exact agree_retryThen lockstep slept late positive
                    (fun nextWait after again => ih after again positive nextWait)

theorem handleAsync_agree (lockstep : Lockstep first second ready near)
    (bufferMs : Nat) (deadline : Option ℚ) (turns : Nat) (alike : near world other)
    {item : RateItem} (current : ready other.bucket item.timestamp) (positive : 1 ≤ item.weight)
    (delay : Int) :
    Agree near (handleAsync first bufferMs deadline turns world item delay)
      (handleAsync second bufferMs deadline turns other item delay) := by
  induction turns generalizing world other item delay with
  | zero => exact .none
  | succ turns ih =>
      unfold handleAsync
      rw [lockstep.monotonic alike]
      split
      · exact agree_pure alike (Verdict.raised (.timeoutError ""))
      · cases planned : delayToSleepMs bufferMs delay with
        | none => exact agree_pure alike (Verdict.returned false)
        | some sleepMs =>
            have nonneg := buffer_le_delayToSleepMs planned
            simp only []
            cases planDelayStep deadline other.monotonic sleepMs with
            | error raised => exact agree_pure alike (Verdict.raised raised)
            | ok plan =>
                obtain ⟨seconds, timedOut⟩ := plan
                have slept := lockstep.sleep seconds alike
                cases timedOut with
                | true => exact agree_pure slept (Verdict.raised (.timeoutError ""))
                | false =>
                    have late :
                        ready (other.sleep seconds).bucket (item.delay sleepMs).timestamp :=
                      lockstep.later current (by rw [RateItem.delay_timestamp]; omega)
                    simp only [Bool.false_eq_true, if_false]
                    exact agree_retryThen lockstep slept late positive
                      (fun nextDelay after again => ih after again positive nextDelay)

/-- The coroutine that asks for the wait in the turn that sleeps for it.  It starts where
a put has been refused, so the two waits are the same. -/
theorem delayCoroutine_agree (lockstep : Lockstep first second ready near)
    (bufferMs : Nat) (deadline : Option ℚ) (turns : Nat) (alike : near world other)
    {item : RateItem} (current : ready other.bucket item.timestamp) (positive : 1 ≤ item.weight)
    (same : first.waiting world.bucket item = second.waiting other.bucket item) :
    Agree near (delayCoroutine first bufferMs deadline turns item world)
      (delayCoroutine second bufferMs deadline turns item other) := by
  induction turns generalizing world other item with
  | zero => exact .none
  | succ turns ih =>
      unfold delayCoroutine
      rw [lockstep.monotonic alike, same]
      split
      · exact agree_pure alike (Verdict.raised (.timeoutError ""))
      · cases second.waiting other.bucket item with
        | error raised => exact agree_pure alike (Verdict.raised raised)
        | ok delay =>
            simp only []
            cases planned : delayToSleepMs bufferMs delay with
            | none => exact agree_pure alike (Verdict.returned false)
            | some sleepMs =>
                have nonneg := buffer_le_delayToSleepMs planned
                simp only []
                cases planDelayStep deadline other.monotonic sleepMs with
                | error raised => exact agree_pure alike (Verdict.raised raised)
                | ok plan =>
                    obtain ⟨seconds, timedOut⟩ := plan
                    have slept := lockstep.sleep seconds alike
                    cases timedOut with
                    | true => exact agree_pure slept (Verdict.raised (.timeoutError ""))
                    | false =>
                        have late :
                            ready (other.sleep seconds).bucket (item.delay sleepMs).timestamp :=
                          lockstep.later current (by rw [RateItem.delay_timestamp]; omega)
                        simp only [Bool.false_eq_true, if_false]
                        apply agree_put lockstep slept late positive
                          (delayCoroutine first bufferMs deadline turns (item.delay sleepMs))
                          (delayCoroutine second bufferMs deadline turns (item.delay sleepMs))
                        intro refused
                        obtain ⟨_acquired, after⟩ := lockstep.put slept late positive
                        exact ih after (lockstep.stays late) positive
                          (lockstep.waiting slept late positive refused)

/-! ### The entry points -/

/-- An acquire from its first put on, awaited if it has to be. -/
theorem acquireItem_agree (lockstep : Lockstep first second ready near)
    (bufferMs turns : Nat) (alike : near world other) {item : RateItem}
    (current : ready other.bucket item.timestamp) (positive : 1 ≤ item.weight)
    (blocking forceAsync : Bool) (deadline : Option ℚ) :
    Agree near
      ((acquireItem first bufferMs turns world item blocking forceAsync deadline).bind
        (fun ended => handleAsyncResult first bufferMs turns ended.1 ended.2))
      ((acquireItem second bufferMs turns other item blocking forceAsync deadline).bind
        (fun ended => handleAsyncResult second bufferMs turns ended.1 ended.2)) := by
  obtain ⟨acquired, after⟩ := lockstep.put alike current positive
  have again : ready (second.put other.bucket item).2 item.timestamp := lockstep.stays current
  unfold acquireItem
  rw [show world.put first item = ((world.put first item).1, (world.put first item).2) from rfl,
    show other.put second item = ((other.put second item).1, (other.put second item).2) from rfl]
  simp only [acquired]
  cases verdict : (other.put second item).1 with
  | true => exact agree_pure after (Verdict.returned true)
  | false =>
      have named := lockstep.named alike current positive verdict
      have waited := lockstep.waiting alike current positive verdict
      simp only [Bool.false_eq_true, if_false]
      cases blocking with
      | false => exact agree_pure after (Verdict.returned false)
      | true =>
          rw [waited]
          cases forceAsync with
          | false =>
              cases second.waiting (other.put second item).2.bucket item with
              | error raised => exact agree_pure after (Verdict.raised raised)
              | ok waitMs =>
                  have looped := blockingRetrySync_agree lockstep bufferMs deadline turns after
                    again positive waitMs
                  simp only [Bool.not_true, Bool.false_eq_true, if_false, Option.bind_map]
                  exact looped.bind (fun verdict alike => agree_pure alike verdict)
          | true =>
              simp only [Bool.not_true, Bool.false_eq_true, if_false, if_true]
              cases unnamed : second.failingRate (other.put second item).2.bucket with
              | none =>
                  rw [unnamed, Option.isSome_none, Option.isSome_eq_false_iff,
                    Option.isNone_iff_eq_none] at named
                  rw [named]
                  exact agree_pure after (Verdict.raised (.assertionError ""))
              | some rate =>
                  rw [unnamed, Option.isSome_some] at named
                  obtain ⟨failing, named⟩ := Option.isSome_iff_exists.mp named
                  rw [named]
                  simp only []
                  cases second.waiting (other.put second item).2.bucket item with
                  | error raised => exact agree_pure after (Verdict.raised raised)
                  | ok delay =>
                      simp only [Option.bind_some, handleAsyncResult, lockstep.monotonic after]
                      split
                      · exact agree_pure after (Verdict.raised (.timeoutError ""))
                      · exact handleAsync_agree lockstep bufferMs deadline turns after again
                          positive delay

/-- `_try_acquire` and what awaits its result, over buckets that answer synchronously. -/
theorem tryAcquireInner_agree (lockstep : Lockstep first second ready near)
    (bufferMs turns : Nat) (alike : near world other) {now : Int}
    (current : ready other.bucket now) (name : String) (weight : Int) (blocking : Bool)
    (timeout : ℚ) (forceAsync : Bool) :
    Agree near
      ((tryAcquireInner first bufferMs turns world now name weight blocking timeout
        forceAsync).bind (fun ended => handleAsyncResult first bufferMs turns ended.1 ended.2))
      ((tryAcquireInner second bufferMs turns other now name weight blocking timeout
        forceAsync).bind
          (fun ended => handleAsyncResult second bufferMs turns ended.1 ended.2)) := by
  unfold tryAcquireInner
  rw [lockstep.monotonic alike]
  by_cases negative : weight < 0
  · simp only [if_pos negative]
    exact agree_pure alike (Verdict.raised (.assertionError "item's weight must be >= 0"))
  · simp only [if_neg negative]
    by_cases weightless : weight = 0
    · simp only [if_pos weightless]
      exact agree_pure alike (Verdict.returned true)
    · simp only [if_neg weightless]
      have positive : 1 ≤ (wrapItem now name weight).weight := by
        change 1 ≤ weight
        omega
      have present : ready other.bucket (wrapItem now name weight).timestamp := current
      exact acquireItem_agree lockstep bufferMs turns alike present positive blocking forceAsync _

theorem awaitResult_agree (lockstep : Lockstep first second ready near)
    (deadline : Option ℚ) (alike : near world other)
    {left : Coroutine First} {right : Coroutine Second}
    (awaited : Agree near (left world) (right other)) :
    Agree near (awaitResult deadline left world) (awaitResult deadline right other) := by
  unfold awaitResult
  rw [lockstep.monotonic alike]
  split
  · exact agree_pure alike (Verdict.raised (.timeoutError ""))
  · exact awaited

theorem waitAfterAsyncPut_agree (lockstep : Lockstep first second ready near)
    (bufferMs turns : Nat) (deadline : Option ℚ) (alike : near world other)
    {item : RateItem} (current : ready other.bucket item.timestamp) (positive : 1 ≤ item.weight)
    (blocking : Bool) :
    Agree near (waitAfterAsyncPut first bufferMs deadline turns item blocking world)
      (waitAfterAsyncPut second bufferMs deadline turns item blocking other) := by
  obtain ⟨acquired, after⟩ := lockstep.put alike current positive
  have again : ready (second.put other.bucket item).2 item.timestamp := lockstep.stays current
  unfold waitAfterAsyncPut awaitResult putCoroutine
  rw [lockstep.monotonic alike]
  split
  · exact agree_pure alike (Verdict.raised (.timeoutError ""))
  · rw [show world.put first item = ((world.put first item).1, (world.put first item).2) from rfl,
      show other.put second item = ((other.put second item).1, (other.put second item).2) from rfl]
    simp only [acquired, Option.bind_eq_bind, Option.bind_some]
    cases verdict : (other.put second item).1 with
    | true => exact agree_pure after (Verdict.returned true)
    | false =>
        have named := lockstep.named alike current positive verdict
        have waited := lockstep.waiting alike current positive verdict
        simp only []
        cases unnamed : second.failingRate (other.put second item).2.bucket with
        | none =>
            rw [unnamed, Option.isSome_none, Option.isSome_eq_false_iff,
              Option.isNone_iff_eq_none] at named
            rw [named]
            exact agree_pure after (Verdict.raised (.assertionError ""))
        | some rate =>
            rw [unnamed, Option.isSome_some] at named
            obtain ⟨failing, named⟩ := Option.isSome_iff_exists.mp named
            rw [named]
            cases blocking with
            | false => exact agree_pure after (Verdict.returned false)
            | true =>
                simp only [Bool.not_true, Bool.false_eq_true, if_false, lockstep.monotonic after]
                split
                · exact agree_pure after (Verdict.raised (.timeoutError ""))
                · exact delayCoroutine_agree lockstep bufferMs deadline turns after again
                    positive waited

theorem tryAcquireInnerAwaited_agree (lockstep : Lockstep first second ready near)
    (bufferMs turns : Nat) (alike : near world other) {now : Int}
    (current : ready other.bucket now) (name : String) (weight : Int) (blocking : Bool)
    (timeout : ℚ) :
    Agree near
      (tryAcquireInnerAwaited first bufferMs turns world now name weight blocking timeout)
      (tryAcquireInnerAwaited second bufferMs turns other now name weight blocking timeout) := by
  unfold tryAcquireInnerAwaited
  rw [lockstep.monotonic alike]
  by_cases negative : weight < 0
  · simp only [if_pos negative]
    exact agree_pure alike (Verdict.raised (.assertionError "item's weight must be >= 0"))
  · simp only [if_neg negative]
    by_cases weightless : weight = 0
    · simp only [if_pos weightless]
      exact agree_pure alike (Verdict.returned true)
    · simp only [if_neg weightless]
      have positive : 1 ≤ (wrapItem now name weight).weight := by
        change 1 ≤ weight
        omega
      have present : ready other.bucket (wrapItem now name weight).timestamp := current
      exact awaitResult_agree lockstep _ alike
        (waitAfterAsyncPut_agree lockstep bufferMs turns _ alike present positive blocking)

theorem tryAcquire_agree (lockstep : Lockstep first second ready near)
    (bufferMs turns : Nat) (alike : near world other) {now : Int}
    (current : ready other.bucket now) (name : String) (weight : Int) (blocking : Bool)
    (timeout : ℚ) :
    Agree near (tryAcquire first bufferMs turns world now name weight blocking timeout)
      (tryAcquire second bufferMs turns other now name weight blocking timeout) := by
  unfold tryAcquire
  cases checkArguments blocking timeout with
  | some raised => exact agree_pure alike (Verdict.raised raised)
  | none =>
      have inner := tryAcquireInner_agree lockstep bufferMs turns alike current name weight
        blocking timeout false
      simp only [Option.bind_eq_bind, ← Option.bind_assoc]
      exact inner.bind (fun verdict after => agree_pure after verdict.catchTimeout)

theorem tryAcquireAsync_agree (lockstep : Lockstep first second ready near)
    (bufferMs turns : Nat) (alike : near world other) {now : Int}
    (current : ready other.bucket now) (name : String) (weight : Int) (blocking : Bool)
    (timeout : ℚ) :
    Agree near (tryAcquireAsync first bufferMs turns world now name weight blocking timeout)
      (tryAcquireAsync second bufferMs turns other now name weight blocking timeout) := by
  unfold tryAcquireAsync
  by_cases weightless : weight = 0
  · simp only [if_pos weightless]
    exact agree_pure alike (Verdict.returned true)
  · simp only [if_neg weightless]
    cases checkArguments blocking timeout with
    | some raised => exact agree_pure alike (Verdict.raised raised)
    | none =>
        have inner := tryAcquireInner_agree lockstep bufferMs turns alike current name weight
          blocking timeout true
        simp only [Option.bind_eq_bind, ← Option.bind_assoc]
        exact inner.bind (fun verdict after => agree_pure after verdict.catchTimeout)

theorem tryAcquireAwaited_agree (lockstep : Lockstep first second ready near)
    (bufferMs turns : Nat) (alike : near world other) {now : Int}
    (current : ready other.bucket now) (name : String) (weight : Int) (blocking : Bool)
    (timeout : ℚ) :
    Agree near (tryAcquireAwaited first bufferMs turns world now name weight blocking timeout)
      (tryAcquireAwaited second bufferMs turns other now name weight blocking timeout) := by
  unfold tryAcquireAwaited
  cases checkArguments blocking timeout with
  | some raised => exact agree_pure alike (Verdict.raised raised)
  | none =>
      have inner := tryAcquireInnerAwaited_agree lockstep bufferMs turns alike current name weight
        blocking timeout
      exact inner.bind (fun verdict after => agree_pure after verdict.catchTimeout)

/-- Every entry point goes through the same sleeps and puts to the same verdict. -/
theorem acquire_agree (lockstep : Lockstep first second ready near)
    (kind : BucketKind) (entry : EntryPoint) (bufferMs turns : Nat)
    (alike : near world other) (now : Int) (current : ready other.bucket now)
    (name : String) (weight : Int) (blocking : Bool) (timeout : ℚ) :
    Agree near
      (entry.acquire kind first bufferMs turns world now name weight blocking timeout)
      (entry.acquire kind second bufferMs turns other now name weight blocking timeout) := by
  cases entry with
  | tryAcquire =>
      cases kind with
      | sync =>
          exact tryAcquire_agree lockstep bufferMs turns alike current name weight blocking timeout
      | async =>
          exact tryAcquireAwaited_agree lockstep bufferMs turns alike current name weight blocking
            timeout
  | tryAcquireAsync =>
      cases kind with
      | sync =>
          exact tryAcquireAsync_agree lockstep bufferMs turns alike current name weight blocking
            timeout
      | async =>
          change Agree near (tryAcquireAsyncAwaited first bufferMs turns world now name weight
              blocking timeout)
            (tryAcquireAsyncAwaited second bufferMs turns other now name weight blocking timeout)
          unfold tryAcquireAsyncAwaited
          by_cases weightless : weight = 0
          · simp only [if_pos weightless]
            exact agree_pure alike (Verdict.returned true)
          · simp only [if_neg weightless]
            exact tryAcquireAwaited_agree lockstep bufferMs turns alike current name weight
              blocking timeout

/-! ### Buckets in a relation -/

/-- Related buckets answer puts alike, and are related again after them. -/
structure Simulates (first : BucketOps First) (second : BucketOps Second)
    (ready : Second → Int → Prop) (related : First → Second → Prop) : Prop where
  later : ∀ {right : Second} {stamp late : Int}, ready right stamp → stamp ≤ late → ready right late
  stays : ∀ {right : Second} {item : RateItem}, ready right item.timestamp →
    ready (second.put right item).2 item.timestamp
  acquired : ∀ {left : First} {right : Second} {item : RateItem}, related left right →
    ready right item.timestamp → 1 ≤ item.weight →
      (first.put left item).1 = (second.put right item).1
  put : ∀ {left : First} {right : Second} {item : RateItem}, related left right →
    ready right item.timestamp → 1 ≤ item.weight →
      related (first.put left item).2 (second.put right item).2
  named : ∀ {left : First} {right : Second} {item : RateItem}, related left right →
    ready right item.timestamp → 1 ≤ item.weight → (second.put right item).1 = false →
      (first.failingRate (first.put left item).2).isSome =
        (second.failingRate (second.put right item).2).isSome
  waiting : ∀ {left : First} {right : Second} {item : RateItem}, related left right →
    ready right item.timestamp → 1 ≤ item.weight → (second.put right item).1 = false →
      first.waiting (first.put left item).2 item = second.waiting (second.put right item).2 item

structure World.Alike (related : First → Second → Prop) (world : World First)
    (other : World Second) : Prop where
  bucket : related world.bucket other.bucket
  monotonic : world.monotonic = other.monotonic
  trace : world.trace = other.trace

theorem World.trace_sleep {Bucket : Type} (world : World Bucket) (seconds : ℚ) :
    (world.sleep seconds).trace = world.trace ++ [.slept seconds] := by
  simp only [World.trace, World.sleep, List.map_append]
  rfl

theorem World.trace_put {Bucket : Type} (world : World Bucket) (ops : BucketOps Bucket)
    (item : RateItem) :
    (world.put ops item).2.trace = world.trace ++ [.put item (world.put ops item).1 ()] := by
  simp only [World.trace, World.put, List.map_append]
  rfl

theorem Simulates.lockstep {related : First → Second → Prop}
    (simulates : Simulates first second ready related) :
    Lockstep first second ready (World.Alike related) where
  later := simulates.later
  stays := simulates.stays
  monotonic := fun alike => alike.monotonic
  sleep := by
    intro world other seconds alike
    refine ⟨alike.bucket, ?_, ?_⟩
    · change world.monotonic + seconds = other.monotonic + seconds
      rw [alike.monotonic]
    · rw [World.trace_sleep, World.trace_sleep, alike.trace]
  put := by
    intro world other item alike current positive
    have acquired : (world.put first item).1 = (other.put second item).1 :=
      simulates.acquired alike.bucket current positive
    refine ⟨acquired, simulates.put alike.bucket current positive, alike.monotonic, ?_⟩
    rw [World.trace_put, World.trace_put, alike.trace, acquired]
  named := fun alike current positive refused =>
    simulates.named alike.bucket current positive refused
  waiting := fun alike current positive refused =>
    simulates.waiting alike.bucket current positive refused

end Simulation

/-! ### What an acquire keeps -/

section Kept

variable {Bucket : Type} {ops : BucketOps Bucket} {kept : World Bucket → Prop}

theorem Lockstep.of_kept
    (sleep : ∀ (world : World Bucket) (seconds : ℚ), kept world → kept (world.sleep seconds))
    (put : ∀ (world : World Bucket) (item : RateItem), kept world → 1 ≤ item.weight →
      kept (world.put ops item).2) :
    Lockstep ops ops (fun _bucket _stamp => True)
      (fun world other => world = other ∧ kept other) where
  later := fun _ready _ordered => trivial
  stays := fun _ready => trivial
  monotonic := by
    rintro world _ ⟨rfl, _holds⟩
    rfl
  sleep := by
    rintro world _ seconds ⟨rfl, holds⟩
    exact ⟨rfl, sleep world seconds holds⟩
  put := by
    rintro world _ item ⟨rfl, holds⟩ _ready positive
    exact ⟨rfl, rfl, put world item holds positive⟩
  named := by
    rintro world _ item ⟨rfl, _holds⟩ _ready _positive _refused
    rfl
  waiting := by
    rintro world _ item ⟨rfl, _holds⟩ _ready _positive _refused
    rfl

/-- What sleeps keep, and puts of weighty items, every entry point keeps. -/
theorem acquire_keeps
    (sleep : ∀ (world : World Bucket) (seconds : ℚ), kept world → kept (world.sleep seconds))
    (put : ∀ (world : World Bucket) (item : RateItem), kept world → 1 ≤ item.weight →
      kept (world.put ops item).2)
    {kind : BucketKind} {entry : EntryPoint} {bufferMs turns : Nat} {world after : World Bucket}
    {now : Int} {name : String} {weight : Int} {blocking : Bool} {timeout : ℚ} {verdict : Verdict}
    (start : kept world)
    (ended : entry.acquire kind ops bufferMs turns world now name weight blocking timeout =
      some (after, verdict)) : kept after := by
  have agree := acquire_agree (Lockstep.of_kept sleep put) kind entry bufferMs turns
    ⟨rfl, start⟩ now trivial name weight blocking timeout
  rw [ended] at agree
  cases agree with
  | some same => exact same.1.2

end Kept

end PyrateLimiter

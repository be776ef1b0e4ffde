/-
The time budget of a blocking acquire.

Planning truncates the last sleep at the deadline and raises after it, and every
other sleep is full, so no wait a bucket asks for takes the call past its
deadline.  A full sleep lasts for the buffer at least, which bounds their number.
-/

import Mathlib.Data.Rat.Floor
import PyrateLimiter.RetryLoops

namespace PyrateLimiter

/-! ### When things happen -/

section Traces

variable {Bucket : Type}

/-- When the puts of a trace happen that begins at `monotonic`. -/
def putTimes (monotonic : ℚ) : List (Event Bucket) → List ℚ
  | [] => []
  | .slept seconds :: rest => putTimes (monotonic + seconds) rest
  | .put _ _ _ :: rest => monotonic :: putTimes monotonic rest

theorem sleeps_append (first second : List (Event Bucket)) :
    sleeps (first ++ second) = sleeps first ++ sleeps second :=
  List.filterMap_append

theorem admittedItems_append (first second : List (Event Bucket)) :
    admittedItems (first ++ second) = admittedItems first ++ admittedItems second :=
  List.filterMap_append

theorem putTimes_append (monotonic : ℚ) (first second : List (Event Bucket)) :
    putTimes monotonic (first ++ second) =
      putTimes monotonic first ++ putTimes (monotonic + (sleeps first).sum) second := by
  induction first generalizing monotonic with
  | nil => exact congrArg (putTimes · second) (add_zero monotonic).symm
  | cons event rest ih =>
      cases event with
      | put item acquired bucket => exact congrArg (List.cons monotonic) (ih monotonic)
      | slept seconds =>
          have total : monotonic + (sleeps (.slept seconds :: rest)).sum =
              monotonic + seconds + (sleeps rest).sum := by
            have split : sleeps (.slept seconds :: rest) = seconds :: sleeps rest := rfl
            rw [split, List.sum_cons, add_assoc]
          rw [total]
          exact ih (monotonic + seconds)

end Traces

theorem Verdict.catchTimeout_eq_true (verdict : Verdict) :
    verdict.catchTimeout = .returned true ↔ verdict = .returned true := by
  cases verdict with
  | returned acquired => rfl
  | raised error =>
      constructor
      · intro caught
        cases error <;> cases caught
      · intro impossible
        cases impossible

/-! ### Planned sleeps -/

theorem buffer_le_delayToSleepMs {bufferMs : Nat} {delay sleepMs : Int}
    (planned : delayToSleepMs bufferMs delay = some sleepMs) : (bufferMs : Int) ≤ sleepMs := by
  unfold delayToSleepMs at planned
  split at planned
  · cases planned
  · cases planned
    split <;> omega

/-- A planned sleep ends at the deadline at the latest, and it is full unless the
timeout is raised after it. -/
theorem planDelayStep_within {limit monotonic seconds : ℚ} {delayMs : Int} {timedOut : Bool}
    (nonneg : 0 ≤ delayMs)
    (planned : planDelayStep (some limit) monotonic delayMs = .ok (seconds, timedOut)) :
    0 ≤ seconds ∧ monotonic + seconds ≤ limit ∧
      (timedOut = false → seconds = (delayMs : ℚ) / 1000) := by
  have castNonneg : (0 : ℚ) ≤ (delayMs : ℚ) := Int.cast_nonneg nonneg
  simp only [planDelayStep] at planned
  split at planned
  · cases planned
  · rename_i left
    split at planned
    · cases planned
      refine ⟨?_, ?_, fun impossible => by cases impossible⟩
      · linarith
      · linarith
    · rename_i long
      cases planned
      refine ⟨?_, ?_, fun _full => rfl⟩
      · linarith
      · linarith

/-! ### The budget of a world -/

section Budget

variable {Bucket : Type}

/-- What a call that began at `start` has kept to so far. -/
structure OnBudget (start limit : ℚ) (world : World Bucket) : Prop where
  clock : world.monotonic = start + (sleeps world.events).sum
  early : world.monotonic ≤ limit
  forward : ∀ seconds, seconds ∈ sleeps world.events → 0 ≤ seconds
  puts : ∀ time, time ∈ putTimes start world.events → time ≤ limit

namespace OnBudget

variable {start limit : ℚ} {world : World Bucket}

theorem begin (bucket : Bucket) (early : start ≤ limit) :
    OnBudget start limit (World.start bucket start) where
  clock := (add_zero start).symm
  early := early
  forward := fun _seconds impossible => by cases impossible
  puts := fun _time impossible => by cases impossible

theorem sleep (budget : OnBudget start limit world) {seconds : ℚ} (nonneg : 0 ≤ seconds)
    (ends : world.monotonic + seconds ≤ limit) : OnBudget start limit (world.sleep seconds) where
  clock := by
    have total : (sleeps (world.sleep seconds).events).sum =
        (sleeps world.events).sum + seconds := by
      change (sleeps (world.events ++ [.slept seconds])).sum = _
      rw [sleeps_append, List.sum_append]
      exact congrArg ((sleeps world.events).sum + ·) List.sum_singleton
    rw [total, ← add_assoc, ← budget.clock]
    rfl
  early := ends
  forward := by
    intro other member
    change other ∈ sleeps (world.events ++ [.slept seconds]) at member
    rw [sleeps_append] at member
    rcases List.mem_append.mp member with earlier | last
    · exact budget.forward other earlier
    · rw [List.mem_singleton.mp last]
      exact nonneg
  puts := by
    intro time member
    change time ∈ putTimes start (world.events ++ [.slept seconds]) at member
    rw [putTimes_append] at member
    rcases List.mem_append.mp member with earlier | last
    · exact budget.puts time earlier
    · cases last

theorem put (budget : OnBudget start limit world) (ops : BucketOps Bucket) (item : RateItem) :
    OnBudget start limit (world.put ops item).2 := by
  have same : sleeps (world.put ops item).2.events = sleeps world.events := by
    change sleeps (world.events ++ [_]) = _
    rw [sleeps_append]
    exact List.append_nil _
  refine ⟨?_, budget.early, ?_, ?_⟩
  · rw [same]
    exact budget.clock
  · rw [same]
    exact budget.forward
  · intro time member
    change time ∈ putTimes start (world.events ++ [_]) at member
    rw [putTimes_append, ← budget.clock] at member
    rcases List.mem_append.mp member with earlier | last
    · exact budget.puts time earlier
    · rw [List.mem_singleton.mp last]
      exact budget.early

theorem slept_le (budget : OnBudget start limit world) :
    (sleeps world.events).sum ≤ limit - start := by
  have early := budget.early
  rw [budget.clock] at early
  linarith

end OnBudget

end Budget

/-! ### The loop -/

section Loop

variable {Bucket : Type}

/-- A loop that has turned so often keeps its budget.  While it turns nothing was
admitted and every sleep was full; it is left with at most one more sleep. -/
def LoopState.InBudget (start limit : ℚ) (bufferMs turns : Nat) : LoopState Bucket → Prop
  | .turning world _ _ =>
      OnBudget start limit world ∧ admittedItems world.events = [] ∧
        (sleeps world.events).length = turns ∧
        (turns : ℚ) * bufferMs ≤ 1000 * (world.monotonic - start)
  | .left world verdict =>
      OnBudget start limit world ∧
        (verdict = .returned true ↔ admittedItems world.events ≠ []) ∧
        ∃ full : Nat, (sleeps world.events).length ≤ full + 1 ∧
          (full : ℚ) * bufferMs ≤ 1000 * (limit - start)

variable {ops : BucketOps Bucket} {start limit : ℚ} {bufferMs turns : Nat}
  {world : World Bucket}

/-- A loop that is left without a put keeps its budget. -/
theorem inBudget_left (full : Nat) (budget : OnBudget start limit world)
    (unadmitted : admittedItems world.events = [])
    (slept : (sleeps world.events).length ≤ full + 1)
    (spaced : (full : ℚ) * bufferMs ≤ 1000 * (limit - start)) {verdict : Verdict}
    (other : verdict ≠ .returned true) :
    (LoopState.left world verdict).InBudget start limit bufferMs turns :=
  ⟨budget,
    ⟨fun same => absurd same other, fun admitted => absurd unadmitted admitted⟩,
    full, slept, spaced⟩

/-- The put after a sleep, or the one before the first. -/
theorem inBudget_retryPut (budget : OnBudget start limit world)
    (unadmitted : admittedItems world.events = [])
    (slept : (sleeps world.events).length = turns)
    (spaced : (turns : ℚ) * bufferMs ≤ 1000 * (world.monotonic - start)) (item : RateItem) :
    (retryPut ops world item).InBudget start limit bufferMs turns := by
  have putBudget := budget.put ops item
  have putSlept : (sleeps (world.put ops item).2.events).length = turns := by
    change (sleeps (world.events ++ [_])).length = turns
    rw [sleeps_append, List.length_append, slept]
    rfl
  have ends : (turns : ℚ) * bufferMs ≤ 1000 * (limit - start) := by
    have early := budget.early
    linarith
  have admitted : admittedItems (world.put ops item).2.events =
      admittedItems [.put item (world.put ops item).1 (world.put ops item).2.bucket] := by
    change admittedItems (world.events ++ [_]) = _
    rw [admittedItems_append, unadmitted]
    rfl
  unfold retryPut
  rw [show world.put ops item = ((world.put ops item).1, (world.put ops item).2) from rfl]
  simp only []
  cases outcome : (world.put ops item).1 with
  | true =>
      rw [outcome] at admitted
      refine ⟨putBudget, ⟨fun _same => ?_, fun _admitted => rfl⟩, turns, by omega, ends⟩
      rw [admitted]
      exact List.cons_ne_nil item []
  | false =>
      rw [outcome] at admitted
      simp only [Bool.false_eq_true, if_false]
      cases ops.waiting (world.put ops item).2.bucket item with
      | error raised =>
          exact inBudget_left turns putBudget admitted (by omega) ends
            (fun impossible => by cases impossible)
      | ok nextDelay => exact ⟨putBudget, admitted, putSlept, spaced⟩

/-- One turn of the loop. -/
theorem inBudget_blockingRetryTurn {state : LoopState Bucket}
    (budget : state.InBudget start limit bufferMs turns) :
    (blockingRetryTurn ops bufferMs (some limit) state).InBudget start limit bufferMs
      (turns + 1) := by
  cases state with
  | left world verdict => exact budget
  | turning world item waitMs =>
      obtain ⟨onBudget, unadmitted, slept, spaced⟩ := budget
      have ends : (turns : ℚ) * bufferMs ≤ 1000 * (limit - start) := by
        have early := onBudget.early
        linarith
      simp only [blockingRetryTurn]
      cases planned : delayToSleepMs bufferMs waitMs with
      | none =>
          exact inBudget_left turns onBudget unadmitted (by omega) ends
            (fun impossible => by cases impossible)
      | some sleepMs =>
          have buffered := buffer_le_delayToSleepMs planned
          simp only []
          cases step : planDelayStep (some limit) world.monotonic sleepMs with
          | error raised =>
              exact inBudget_left turns onBudget unadmitted (by omega) ends
                (fun impossible => by cases impossible)
          | ok plan =>
              obtain ⟨seconds, timedOut⟩ := plan
              obtain ⟨nonneg, within, full⟩ := planDelayStep_within (by omega) step
              have sleptOn := onBudget.sleep nonneg within
              have noneAdmitted : admittedItems (world.sleep seconds).events = [] := by
                change admittedItems (world.events ++ [.slept seconds]) = []
                rw [admittedItems_append, unadmitted]
                rfl
              have sleptOnce : (sleeps (world.sleep seconds).events).length = turns + 1 := by
                change (sleeps (world.events ++ [.slept seconds])).length = turns + 1
                rw [sleeps_append, List.length_append, slept]
                rfl
              cases timedOut with
              | true =>
                  exact inBudget_left turns sleptOn noneAdmitted (by omega) ends
                    (fun impossible => by cases impossible)
              | false =>
                  simp only [Bool.false_eq_true, if_false]
                  refine inBudget_retryPut sleptOn noneAdmitted sleptOnce ?_
                    (item.delay sleepMs)
                  have lasted : (bufferMs : ℚ) ≤ (sleepMs : ℚ) := by exact_mod_cast buffered
                  have later : (world.sleep seconds).monotonic =
                      world.monotonic + (sleepMs : ℚ) / 1000 := by
                    rw [← full rfl]
                    rfl
                  rw [later]
                  push_cast
                  linarith

/-- The loop, by induction on its turns. -/
theorem inBudget_iterate {state : LoopState Bucket}
    (budget : state.InBudget start limit bufferMs 0) (turns : Nat) :
    ((blockingRetryTurn ops bufferMs (some limit))^[turns] state).InBudget start limit bufferMs
      turns := by
  induction turns with
  | zero => exact budget
  | succ turns ih =>
      rw [Function.iterate_succ_apply']
      exact inBudget_blockingRetryTurn ih

/-- With a buffer there is no time for more turns than this. -/
theorem turns_le_floor {timeout : ℚ} (buffered : 1 ≤ bufferMs) {turns : Nat}
    (fits : (turns : ℚ) * bufferMs ≤ 1000 * timeout) :
    turns ≤ ⌊1000 * timeout / bufferMs⌋₊ := by
  have positive : (0 : ℚ) < bufferMs := by exact_mod_cast buffered
  exact Nat.le_floor ((le_div_iff₀ positive).mpr fits)

end Loop

/-! ### One call -/

section Call

variable {Bucket : Type} (ops : BucketOps Bucket) (bufferMs : Nat)

/-- A blocking `try_acquire` with a timeout, after so many turns of its loop. -/
def blockingCall (turns : Nat) (world : World Bucket) (now : Int) (name : String)
    (weight : Int) (timeout : ℚ) : LoopState Bucket :=
  if weight < 0 then .left world (.raised (.assertionError "item's weight must be >= 0"))
  else if weight = 0 then .left world (.returned true)
  else
    (blockingRetryTurn ops bufferMs (some (world.monotonic + timeout)))^[turns]
      (enterBlockingRetry ops world (wrapItem now name weight))

theorem tryAcquire_eq_blockingCall {timeout : ℚ} (nonneg : 0 ≤ timeout) (turns : Nat)
    (world : World Bucket) (now : Int) (name : String) (weight : Int) :
    tryAcquire ops bufferMs turns world now name weight true timeout =
      (blockingCall ops bufferMs turns world now name weight timeout).settled.outcome := by
  have bounded : timeout ≠ -1 := by linarith
  have checked : checkArguments true timeout = none := by
    unfold checkArguments
    rw [if_neg (fun negative => absurd negative.1 (not_lt.mpr nonneg)), if_neg (by simp)]
  unfold tryAcquire tryAcquireInner blockingCall
  rw [checked, if_neg bounded]
  simp only []
  by_cases negative : weight < 0
  · rw [if_pos negative, if_pos negative]
    rfl
  · rw [if_neg negative, if_neg negative]
    by_cases weightless : weight = 0
    · rw [if_pos weightless, if_pos weightless]
      rfl
    · rw [if_neg weightless, if_neg weightless, acquireItem_eq_iterate]
      cases (blockingRetryTurn ops bufferMs (some (world.monotonic + timeout)))^[turns]
          (enterBlockingRetry ops world (wrapItem now name weight)) with
      | turning world item delay => rfl
      | left world verdict => rfl

theorem inBudget_blockingCall {timeout : ℚ} (nonneg : 0 ≤ timeout) (turns : Nat)
    (bucket : Bucket) (monotonic : ℚ) (now : Int) (name : String) {weight : Int}
    (weighted : weight ≠ 0) :
    (blockingCall ops bufferMs turns (World.start bucket monotonic) now name weight
      timeout).InBudget monotonic (monotonic + timeout) bufferMs turns := by
  have begun : OnBudget monotonic (monotonic + timeout) (World.start bucket monotonic) :=
    .begin bucket (by linarith)
  unfold blockingCall
  split
  · refine inBudget_left 0 begun rfl (Nat.zero_le _) ?_
      (fun impossible => by cases impossible)
    rw [Nat.cast_zero, zero_mul]
    linarith
  · have unslept : (sleeps (World.start bucket monotonic).events).length = 0 := rfl
    have unspent : ((0 : ℕ) : ℚ) * bufferMs ≤ 1000 * (monotonic - monotonic) := by
      rw [Nat.cast_zero, zero_mul, sub_self, mul_zero]
    exact inBudget_iterate
      (inBudget_retryPut begun rfl unslept unspent (wrapItem now name weight)) turns

/-- What a call with a time limit keeps to, finished or not: no sleep lasts past the limit,
no put comes after it, and the answer is true exactly if a put succeeded. -/
structure LoopState.KeepsDeadline (start timeout : ℚ) (state : LoopState Bucket) : Prop where
  forward : ∀ seconds, seconds ∈ sleeps state.world.events → 0 ≤ seconds
  slept : (sleeps state.world.events).sum ≤ timeout
  puts : ∀ time, time ∈ putTimes start state.world.events → time ≤ start + timeout
  answers : ∀ world verdict, state.outcome = some (world, verdict) →
    (verdict = .returned true ↔ admittedItems world.events ≠ [])

variable {bufferMs}

theorem LoopState.InBudget.keepsDeadline {start timeout : ℚ} {turns : Nat}
    {state : LoopState Bucket} (budget : state.InBudget start (start + timeout) bufferMs turns) :
    state.settled.KeepsDeadline start timeout := by
  cases state with
  | turning world item delay =>
      obtain ⟨onBudget, _unadmitted, _slept, _spaced⟩ := budget
      have slept := onBudget.slept_le
      rw [add_sub_cancel_left] at slept
      exact ⟨onBudget.forward, slept, onBudget.puts, fun _world _verdict impossible => by
        cases impossible⟩
  | left world verdict =>
      obtain ⟨onBudget, answer, _full⟩ := budget
      have slept := onBudget.slept_le
      rw [add_sub_cancel_left] at slept
      refine ⟨onBudget.forward, slept, onBudget.puts, ?_⟩
      rintro _world _verdict ⟨⟩
      rw [← answer, Verdict.catchTimeout_eq_true]

/-- A call that has turned so often has ended. -/
theorem LoopState.InBudget.ended {start timeout : ℚ} {turns : Nat} {state : LoopState Bucket}
    (budget : state.InBudget start (start + timeout) bufferMs turns) (buffered : 1 ≤ bufferMs)
    (enough : ⌊1000 * timeout / bufferMs⌋₊ + 1 ≤ turns) :
    ∃ world verdict, state.settled.outcome = some (world, verdict) ∧
      (sleeps world.events).length ≤ ⌊1000 * timeout / bufferMs⌋₊ + 1 := by
  cases state with
  | turning world item delay =>
      obtain ⟨onBudget, _unadmitted, _slept, spaced⟩ := budget
      have early := onBudget.early
      have fits : (turns : ℚ) * bufferMs ≤ 1000 * timeout := by linarith
      have few := turns_le_floor buffered fits
      omega
  | left world verdict =>
      obtain ⟨_onBudget, _answer, full, slept, spaced⟩ := budget
      rw [add_sub_cancel_left] at spaced
      have few := turns_le_floor buffered spaced
      exact ⟨world, verdict.catchTimeout, rfl, by omega⟩

/-- A blocking acquire with a timeout keeps to it whatever the bucket answers, and with a
buffer it ends after a bounded number of sleeps. -/
theorem blocking_acquire_keeps_deadline {Bucket : Type} (ops : BucketOps Bucket)
    (bufferMs : Nat) (bucket : Bucket) (monotonic : ℚ) (now : Int) (name : String)
    (weight : Int) (timeout : ℚ) (weighted : weight ≠ 0) (nonneg : 0 ≤ timeout) :
    (∀ turns,
      tryAcquire ops bufferMs turns (World.start bucket monotonic) now name weight true timeout =
        (blockingCall ops bufferMs turns (World.start bucket monotonic) now name weight
          timeout).settled.outcome ∧
      (blockingCall ops bufferMs turns (World.start bucket monotonic) now name weight
        timeout).settled.KeepsDeadline monotonic timeout) ∧
    (1 ≤ bufferMs → ∀ turns, ⌊1000 * timeout / bufferMs⌋₊ + 1 ≤ turns →
      ∃ world verdict,
        tryAcquire ops bufferMs turns (World.start bucket monotonic) now name weight true
          timeout = some (world, verdict) ∧
        (sleeps world.events).length ≤ ⌊1000 * timeout / bufferMs⌋₊ + 1) := by
  have budget := fun turns =>
    inBudget_blockingCall ops bufferMs nonneg turns bucket monotonic now name weighted
  refine ⟨fun turns => ⟨tryAcquire_eq_blockingCall ops bufferMs nonneg turns _ now name weight,
    (budget turns).keepsDeadline⟩, ?_⟩
  intro buffered turns enough
  rw [tryAcquire_eq_blockingCall ops bufferMs nonneg turns _ now name weight]
  exact (budget turns).ended buffered enough

end Call

/-- One unit is stored when a call with half a second and a buffer of 50 begins. -/
theorem blocking_acquire_keeps_deadline_half :
    ∃ world verdict,
      tryAcquire InMemoryBucket.ops 50 11 oneUnitStored 10 "key" 1 true (1 / 2) =
        some (world, verdict) ∧
      (sleeps world.events).length ≤ 11 := by
  have turns : ⌊1000 * (1 / 2 : ℚ) / (50 : ℕ)⌋₊ = 10 := by
    norm_num [Nat.floor_eq_iff]
  have ends := (blocking_acquire_keeps_deadline InMemoryBucket.ops 50 oneUnitStored.bucket 0 10
    "key" 1 (1 / 2) (by decide) (by norm_num)).2 (by decide) 11 (by rw [turns])
  rw [turns] at ends
  exact ends

end PyrateLimiter

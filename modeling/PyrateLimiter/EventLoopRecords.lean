/-
The calls of one event loop as threads that no other thread overtakes.

A call of `try_acquire_async` does what a thread with the limiter lock does, but
keeps the others of its loop out also while it sleeps.  So every run of a loop
is one of threads in which each retry comes after all recorded stamps and no
item is admitted while another call waits for its retry.
-/

import PyrateLimiter.EventLoop
import PyrateLimiter.DeadlineBudget
import PyrateLimiter.RetryProgress

namespace PyrateLimiter

open Foundations.FairLocks
open Foundations.TransitionSystem
open Foundations.WindowLog

/-- A call that has been refused will retry no earlier than the recorded stamps. -/
def Phase.Newest (log : List Int) : Phase → Prop
  | .refused item | .planned item _ | .resumed item =>
      ∀ stamp, stamp ∈ log → stamp ≤ item.timestamp
  | .sleeping item sleepMs _ => ∀ stamp, stamp ∈ log → stamp ≤ item.timestamp + sleepMs
  | .idle | .entered _ | .stamped _ _ | .leaving _ | .finished _ => True

namespace Phase

variable {clock : Int} {log : List Int} {phase : Phase}

theorem Newest.fewer {kept : List Int} (newest : phase.Newest log)
    (subset : ∀ stamp, stamp ∈ kept → stamp ∈ log) : phase.Newest kept := by
  cases phase with
  | refused item => exact fun stamp member => newest stamp (subset stamp member)
  | planned item waitMs => exact fun stamp member => newest stamp (subset stamp member)
  | resumed item => exact fun stamp member => newest stamp (subset stamp member)
  | sleeping item sleepMs wakeAt => exact fun stamp member => newest stamp (subset stamp member)
  | _ => trivial

theorem newest_enter (request : Request) (now : Int) : (request.enter now).Newest log := by
  rcases request.enter_cases now with ⟨verdict, entered⟩ | ⟨item, blocking, entered⟩
  · rw [entered]
    trivial
  · rw [entered]
    trivial

theorem newest_afterPut {item : RateItem} (acquired blocking : Bool)
    (newest : ∀ stamp, stamp ∈ log → stamp ≤ item.timestamp) :
    (afterPut item acquired blocking).Newest log := by
  rcases afterPut_cases item acquired blocking with ⟨verdict, ended⟩ | refused
  · rw [ended]
    trivial
  · rw [refused]
    exact newest

theorem newest_afterWaiting {item : RateItem} (answer : Except PyError Int)
    (newest : ∀ stamp, stamp ∈ log → stamp ≤ item.timestamp) :
    (afterWaiting item answer).Newest log := by
  unfold afterWaiting
  cases answer with
  | error raised => trivial
  | ok waitMs => exact newest

theorem newest_afterPlanning {item : RateItem} (bufferMs : Nat) (waitMs : Int)
    (newest : ∀ stamp, stamp ∈ log → stamp ≤ item.timestamp) :
    (afterPlanning bufferMs clock item waitMs).Newest log := by
  unfold afterPlanning
  cases slept : delayToSleepMs bufferMs waitMs with
  | none => trivial
  | some sleepMs =>
      have later := buffer_le_delayToSleepMs slept
      intro stamp member
      have before := newest stamp member
      omega

end Phase

namespace Progress

variable {Thread : Type} [DecidableEq Thread]

theorem step_of_system {bufferMs : Nat} {before : Progress Thread} {action : Action Thread}
    {system : System Thread} (moved : before.system.step bufferMs action = some system) :
    before.step bufferMs action = some { system := system, tally := before.charge action } := by
  unfold step
  rw [moved]

end Progress

namespace LoopSystem

variable {Coroutine Loop : Type}

def RecordsKept (rates : RateList) (system : LoopSystem Coroutine Loop) : Prop :=
  system.bucket.Sorted ∧ ∀ rate, rate ∈ rates → ∀ finish,
    (countBetween system.bucket.stamps (finish - rate.interval) finish : Int) ≤ rate.limit

/-- No call has been refused more than once for each rate. -/
def RefusedOncePerRate (rates : RateList) (system : LoopSystem Coroutine Loop) : Prop :=
  ∀ coroutine, system.refusals coroutine ≤ rates.toList.length

/-- The threads are where the coroutines inside the lock are, and no thread's item has been
admitted during the call of another that is there. -/
structure Follows (rates : RateList) (loop : LoopSystem Coroutine Loop)
    (threads : Progress Coroutine) : Prop where
  clock : threads.system.clock = loop.clock
  bucket : threads.system.bucket = loop.bucket
  leaker : threads.system.leaker = loop.leaker
  admitted : threads.system.admitted = loop.admitted
  phases : ∀ coroutine, (loop.thread.locks.place coroutine).isInside = true →
    threads.system.phase coroutine = loop.phase coroutine
  tallies : ∀ coroutine, (loop.thread.locks.place coroutine).isInside = true →
    threads.tally coroutine = { refusals := loop.refusals coroutine, others := 0 }
  away : ∀ coroutine, (loop.thread.locks.place coroutine).isInside = false →
    (threads.system.phase coroutine).away = true
  held : ∀ coroutine, threads.system.holder = some coroutine →
    (threads.system.phase coroutine).holds = true
  newest : ∀ coroutine, (loop.thread.locks.place coroutine).isInside = true →
    (loop.phase coroutine).Newest loop.bucket.stamps
  unrefused : ∀ coroutine lock, loop.thread.locks.place coroutine = .waiting lock →
    loop.refusals coroutine = 0
  refusedOncePerRate : loop.RefusedOncePerRate rates
  advances : threads.RetriesAdvance rates

namespace Follows

variable {rates : RateList} {loop : LoopSystem Coroutine Loop} {threads next : Progress Coroutine}
  {coroutine : Coroutine}

theorem start (clock : Int) :
    Follows rates (LoopSystem.start rates clock : LoopSystem Coroutine Loop)
      (Progress.start rates clock) where
  clock := rfl
  bucket := rfl
  leaker := rfl
  admitted := rfl
  phases := fun _coroutine impossible => by cases impossible
  tallies := fun _coroutine impossible => by cases impossible
  away := fun _coroutine _outside => rfl
  held := fun _coroutine impossible => by cases impossible
  newest := fun _coroutine impossible => by cases impossible
  unrefused := fun _coroutine _lock _waits => rfl
  refusedOncePerRate := fun _coroutine => Nat.zero_le _
  advances := .start clock

theorem recordsKept (follows : loop.Follows rates threads) : loop.RecordsKept rates := by
  have kept := follows.advances.records.recordsKept
  unfold RecordsKept
  rw [← follows.bucket]
  exact ⟨kept.sorted, kept.within⟩

/-- A thread that holds the limiter lock is that of the coroutine inside. -/
theorem holder_inside (follows : loop.Follows rates threads)
    (held : threads.system.holder = some coroutine) :
    (loop.thread.locks.place coroutine).isInside = true := by
  cases inside : (loop.thread.locks.place coroutine).isInside with
  | true => rfl
  | false =>
      have holds := follows.held coroutine held
      rw [Phase.holds_of_away (follows.away coroutine inside)] at holds
      cases holds

/-- Where nobody is inside, or only a coroutine that sleeps, no thread holds the lock. -/
theorem unheld (follows : loop.Follows rates threads)
    (free : ∀ other, (loop.thread.locks.place other).isInside = true →
      (loop.phase other).holds = false) : threads.system.holder = none := by
  cases held : threads.system.holder with
  | none => rfl
  | some other =>
      have inside := follows.holder_inside held
      have holds := follows.held other held
      rw [follows.phases other inside, free other inside] at holds
      cases holds

/-- The put of the coroutine inside comes after all that is recorded. -/
theorem newest_of_pending (follows : loop.Follows rates threads) {item : RateItem}
    {blocking : Bool} (inside : (loop.thread.locks.place coroutine).isInside = true)
    (current : (loop.phase coroutine).pending = some (item, blocking)) :
    ∀ stamp, stamp ∈ loop.bucket.stamps → stamp ≤ item.timestamp := by
  have sound := follows.advances.records.sound coroutine
  have newest := follows.newest coroutine inside
  rw [follows.phases coroutine inside, follows.bucket] at sound
  cases phase : loop.phase coroutine with
  | stamped stamped first =>
      rw [phase] at current sound
      cases current
      exact sound.2.2
  | resumed resumed =>
      rw [phase] at current newest
      cases current
      exact newest
  | _ => rw [phase] at current; cases current

/-- So every retry is fresh. -/
theorem fresh (follows : loop.Follows rates threads)
    (inside : (loop.thread.locks.place coroutine).isInside = true) :
    threads.FreshRetry (.put coroutine) := by
  intro item current _room
  rw [follows.phases coroutine inside] at current
  rw [follows.bucket]
  exact follows.newest_of_pending inside (by rw [current]; rfl)

variable [DecidableEq Coroutine]

/-- The holder stays, and is not the coroutine that moves unless its new phase holds. -/
theorem stillHeld (follows : loop.Follows rates threads) {phase : Phase}
    (updated : next.system.phase = Function.update threads.system.phase coroutine phase)
    (holder : next.system.holder = threads.system.holder)
    (still : threads.system.holder = some coroutine → phase.holds = true) :
    ∀ other, next.system.holder = some other → (next.system.phase other).holds = true := by
  intro other held
  rw [holder] at held
  rw [updated]
  by_cases same : other = coroutine
  · subst same
    rw [Function.update_self]
    exact still held
  · rw [Function.update_of_ne same]
    exact follows.held other held

/-- The coroutine inside and its thread go on to another phase. -/
theorem goesOn (follows : loop.Follows rates threads) {phase : Phase}
    (inside : (loop.thread.locks.place coroutine).isInside = true)
    (advances : next.RetriesAdvance rates)
    (clock : next.system.clock = threads.system.clock)
    (bucket : next.system.bucket = threads.system.bucket)
    (leaker : next.system.leaker = threads.system.leaker)
    (admitted : next.system.admitted = threads.system.admitted)
    (updated : next.system.phase = Function.update threads.system.phase coroutine phase)
    (tally : next.tally = threads.tally)
    (held : ∀ other, next.system.holder = some other →
      (next.system.phase other).holds = true)
    (newest : phase.Newest loop.bucket.stamps) :
    (loop.move coroutine phase).Follows rates next where
  clock := clock.trans follows.clock
  bucket := bucket.trans follows.bucket
  leaker := leaker.trans follows.leaker
  admitted := admitted.trans follows.admitted
  phases := by
    intro other otherInside
    change next.system.phase other = Function.update loop.phase coroutine phase other
    rw [updated]
    by_cases same : other = coroutine
    · rw [same, Function.update_self, Function.update_self]
    · rw [Function.update_of_ne same, Function.update_of_ne same]
      exact follows.phases other otherInside
  tallies := by rw [tally]; exact follows.tallies
  away := by
    intro other outside
    have apart : other ≠ coroutine := by
      intro same
      rw [same] at outside
      exact Bool.noConfusion (inside.symm.trans outside)
    rw [updated, Function.update_of_ne apart]
    exact follows.away other outside
  held := held
  newest := by
    intro other otherInside
    change (Function.update loop.phase coroutine phase other).Newest loop.bucket.stamps
    by_cases same : other = coroutine
    · rw [same, Function.update_self]
      exact newest
    · rw [Function.update_of_ne same]
      exact follows.newest other otherInside
  unrefused := follows.unrefused
  refusedOncePerRate := follows.refusedOncePerRate
  advances := advances

/-- A coroutine goes out of the lock or stays out, and its thread has no call under way. -/
theorem wentOut (follows : loop.Follows rates threads) {after : LoopSystem Coroutine Loop}
    (out : (after.thread.locks.place coroutine).isInside = false)
    (others : ∀ other, other ≠ coroutine →
      after.thread.locks.place other = loop.thread.locks.place other ∧
        after.phase other = loop.phase other ∧ after.refusals other = loop.refusals other ∧
        next.system.phase other = threads.system.phase other)
    (sameLoop : after.clock = loop.clock ∧ after.bucket = loop.bucket ∧
      after.leaker = loop.leaker ∧ after.admitted = loop.admitted)
    (sameThreads : next.system.clock = threads.system.clock ∧
      next.system.bucket = threads.system.bucket ∧ next.system.leaker = threads.system.leaker ∧
      next.system.admitted = threads.system.admitted ∧ next.tally = threads.tally)
    (unrefused : ∀ lock, after.thread.locks.place coroutine = .waiting lock →
      after.refusals coroutine = 0)
    (bounded : after.refusals coroutine ≤ rates.toList.length)
    (away : (next.system.phase coroutine).away = true)
    (held : ∀ other, next.system.holder = some other →
      (next.system.phase other).holds = true)
    (advances : next.RetriesAdvance rates) : after.Follows rates next := by
  obtain ⟨clock, bucket, leaker, admitted⟩ := sameLoop
  obtain ⟨threadsClock, threadsBucket, threadsLeaker, threadsAdmitted, tally⟩ := sameThreads
  have apart : ∀ other, (after.thread.locks.place other).isInside = true →
      other ≠ coroutine := by
    intro other inside same
    rw [same] at inside
    exact Bool.noConfusion (out.symm.trans inside)
  refine
    { clock := by rw [threadsClock, clock]; exact follows.clock
      bucket := by rw [threadsBucket, bucket]; exact follows.bucket
      leaker := by rw [threadsLeaker, leaker]; exact follows.leaker
      admitted := by rw [threadsAdmitted, admitted]; exact follows.admitted
      phases := ?_
      tallies := ?_
      away := ?_
      held := held
      newest := ?_
      unrefused := ?_
      refusedOncePerRate := ?_
      advances := advances }
  · intro other inside
    obtain ⟨place, phase, _refusals, threadPhase⟩ := others other (apart other inside)
    rw [place] at inside
    rw [threadPhase, phase]
    exact follows.phases other inside
  · intro other inside
    obtain ⟨place, _phase, refusals, _threadPhase⟩ := others other (apart other inside)
    rw [place] at inside
    rw [tally, refusals]
    exact follows.tallies other inside
  · intro other outside
    by_cases same : other = coroutine
    · rw [same]
      exact away
    · obtain ⟨place, _phase, _refusals, threadPhase⟩ := others other same
      rw [place] at outside
      rw [threadPhase]
      exact follows.away other outside
  · intro other inside
    obtain ⟨place, phase, _refusals, _threadPhase⟩ := others other (apart other inside)
    rw [place] at inside
    rw [phase, bucket]
    exact follows.newest other inside
  · intro other lock waits
    by_cases same : other = coroutine
    · subst same
      exact unrefused lock waits
    · obtain ⟨place, _phase, refusals, _threadPhase⟩ := others other same
      rw [place] at waits
      rw [refusals]
      exact follows.unrefused other lock waits
  · intro other
    by_cases same : other = coroutine
    · rw [same]
      exact bounded
    · obtain ⟨_place, _phase, refusals, _threadPhase⟩ := others other same
      rw [refusals]
      exact follows.refusedOncePerRate other

/-- A coroutine comes into the lock, and its thread takes the limiter lock. -/
theorem arrived (follows : loop.Follows rates threads) {loopOf : Coroutine → Loop}
    {after : LoopSystem Coroutine Loop} {request : Request} (inOrder : after.InOrder loopOf)
    (outside : (loop.thread.locks.place coroutine).isInside = false)
    (inside : (after.thread.locks.place coroutine).isInside = true)
    (others : ∀ other, other ≠ coroutine →
      after.thread.locks.place other = loop.thread.locks.place other)
    (phase : after.phase = Function.update loop.phase coroutine (.entered request))
    (refusals : after.refusals = Function.update loop.refusals coroutine 0)
    (same : after.clock = loop.clock ∧ after.bucket = loop.bucket ∧
      after.leaker = loop.leaker ∧ after.admitted = loop.admitted) :
    ∃ next, after.Follows rates next := by
  obtain ⟨clock, bucket, leaker, admitted⟩ := same
  have lone : ∀ other, (after.thread.locks.place other).isInside = true → other = coroutine :=
    fun other otherInside => inOrder.alone otherInside inside
  have free : threads.system.holder = none := by
    apply follows.unheld
    intro other otherInside
    have apart : other ≠ coroutine := by
      intro equal
      rw [equal] at otherInside
      exact Bool.noConfusion (outside.symm.trans otherInside)
    rw [← others other apart] at otherInside
    exact absurd (lone other otherInside) apart
  have idle := follows.away coroutine outside
  have moved : threads.system.step 0 (.acquireLock coroutine request) =
      some { threads.system.move coroutine (.entered request) with
        holder := some coroutine } := by
    simp only [System.step, free]
    cases current : threads.system.phase coroutine with
    | idle => rfl
    | finished verdict => rfl
    | _ => rw [current] at idle; cases idle
  refine ⟨_,
    { clock := by rw [clock]; exact follows.clock
      bucket := by rw [bucket]; exact follows.bucket
      leaker := by rw [leaker]; exact follows.leaker
      admitted := by rw [admitted]; exact follows.admitted
      phases := ?_
      tallies := ?_
      away := ?_
      held := ?_
      newest := ?_
      unrefused := ?_
      refusedOncePerRate := ?_
      advances := follows.advances.step
        (show threads.FreshRetry (.acquireLock coroutine request) from trivial)
        (Progress.step_of_system moved) }⟩
  · intro other otherInside
    rw [lone other otherInside, phase, Function.update_self]
    exact Function.update_self _ _ _
  · intro other otherInside
    rw [lone other otherInside, refusals, Function.update_self]
    exact Function.update_self _ _ _
  · intro other otherOutside
    have apart : other ≠ coroutine := by
      intro equal
      rw [equal] at otherOutside
      exact Bool.noConfusion (inside.symm.trans otherOutside)
    change (Function.update threads.system.phase coroutine (.entered request) other).away = true
    rw [Function.update_of_ne apart]
    rw [others other apart] at otherOutside
    exact follows.away other otherOutside
  · rintro other ⟨⟩
    change (Function.update threads.system.phase coroutine (.entered request) coroutine).holds =
      true
    rw [Function.update_self]
    rfl
  · intro other otherInside
    rw [lone other otherInside, phase, Function.update_self]
    trivial
  · intro other lock waits
    have apart : other ≠ coroutine := by
      intro equal
      rw [equal] at waits
      rw [waits] at inside
      cases inside
    rw [others other apart] at waits
    rw [refusals, Function.update_of_ne apart]
    exact follows.unrefused other lock waits
  · intro other
    rw [refusals]
    by_cases equal : other = coroutine
    · rw [equal, Function.update_self]
      exact Nat.zero_le _
    · rw [Function.update_of_ne equal]
      exact follows.refusedOncePerRate other

/-- The coroutine inside puts its item, and so does its thread. -/
theorem put (follows : loop.Follows rates threads) {loopOf : Coroutine → Loop}
    (inOrder : loop.InOrder loopOf) {item : RateItem} {blocking : Bool}
    (inside : (loop.thread.locks.place coroutine).isInside = true)
    (current : (loop.phase coroutine).pending = some (item, blocking)) :
    ∃ next, (loop.recorded coroutine item blocking).Follows rates next := by
  have newest := follows.newest_of_pending inside current
  have threadPhase := follows.phases coroutine inside
  have lone : ∀ other, (loop.thread.locks.place other).isInside = true → other = coroutine :=
    fun other otherInside => inOrder.alone otherInside inside
  have moved : threads.system.step 0 (.put coroutine) =
      some
        { threads.system.move coroutine
            (Phase.afterPut item (loop.bucket.put item).1 blocking) with
          bucket := (loop.bucket.put item).2
          admitted :=
            if (loop.bucket.put item).1 then loop.admitted ++ [item] else loop.admitted } := by
    simp only [System.step, threadPhase, current, follows.bucket, follows.admitted]
  have advances := follows.advances.step (follows.fresh inside)
    (Progress.step_of_system moved)
  have tally : threads.charge (.put coroutine) coroutine =
      { refusals := (loop.recorded coroutine item blocking).refusals coroutine
        others := 0 } := by
    have before := follows.tallies coroutine inside
    cases acquired : (loop.bucket.put item).1 with
    | true =>
        simp only [Progress.charge, threadPhase, current, follows.bucket, acquired, recorded,
          if_true, Function.update_self]
        exact before
    | false =>
        simp only [Progress.charge, threadPhase, current, follows.bucket, acquired, recorded,
          Bool.false_eq_true, if_false, Function.update_self, before]
        rfl
  have refusals : ∀ other, other ≠ coroutine →
      (loop.recorded coroutine item blocking).refusals other = loop.refusals other := by
    intro other apart
    simp only [recorded]
    split
    · rfl
    · exact Function.update_of_ne apart _ _
  refine ⟨{ system := _, tally := threads.charge (.put coroutine) },
    { clock := ?_
      bucket := ?_
      leaker := ?_
      admitted := ?_
      phases := ?_
      tallies := ?_
      away := ?_
      held := ?_
      newest := ?_
      unrefused := ?_
      refusedOncePerRate := ?_
      advances := advances }⟩
  · exact follows.clock
  · rfl
  · exact follows.leaker
  · rfl
  · intro other otherInside
    rw [lone other otherInside]
    change Function.update threads.system.phase coroutine _ coroutine =
      Function.update loop.phase coroutine
        (Phase.afterPut item (loop.bucket.put item).1 blocking) coroutine
    rw [Function.update_self, Function.update_self]
  · intro other otherInside
    rw [lone other otherInside]
    exact tally
  · intro other outside
    have apart : other ≠ coroutine := by
      intro same
      rw [same] at outside
      exact Bool.noConfusion (inside.symm.trans outside)
    change (Function.update threads.system.phase coroutine _ other).away = true
    rw [Function.update_of_ne apart]
    exact follows.away other outside
  · refine follows.stillHeld rfl rfl ?_
    intro _held
    rcases Phase.afterPut_cases item (loop.bucket.put item).1 blocking with
      ⟨verdict, ended⟩ | refused
    · rw [ended]
      rfl
    · rw [refused]
      rfl
  · intro other otherInside
    rw [lone other otherInside]
    change (Function.update loop.phase coroutine
      (Phase.afterPut item (loop.bucket.put item).1 blocking) coroutine).Newest
        (loop.bucket.put item).2.stamps
    rw [Function.update_self]
    cases acquired : (loop.bucket.put item).1 with
    | true => trivial
    | false =>
        apply Phase.newest_afterPut
        obtain ⟨positive, _past⟩ :=
          (follows.advances.records.sound coroutine).pending (by rw [threadPhase]; exact current)
        have sorted := follows.advances.records.sorted
        rw [follows.bucket] at sorted
        rcases InMemoryBucket.put_cases sorted item positive with
          ⟨_room, outcome⟩ | ⟨rate, _refusing, outcome⟩
        · rw [outcome] at acquired
          cases acquired
        · rw [outcome]
          exact newest
  · intro other lock waits
    have apart : other ≠ coroutine := by
      intro same
      rw [same] at waits
      change loop.thread.locks.place coroutine = _ at waits
      rw [waits] at inside
      cases inside
    rw [refusals other apart]
    exact follows.unrefused other lock waits
  · intro other
    by_cases same : other = coroutine
    · subst same
      have paid := advances.refusalsPaid other
      simp only [Tally.Paid, tally, Nat.add_zero, Nat.mul_one] at paid
      exact paid
    · rw [refusals other same]
      exact follows.refusedOncePerRate other

/-- Each step of the loop is met by its threads. -/
theorem step (follows : loop.Follows rates threads) [DecidableEq Loop]
    {loopOf : Coroutine → Loop} (inOrder : loop.InOrder loopOf)
    {after : LoopSystem Coroutine Loop} (afterInOrder : after.InOrder loopOf) {bufferMs : Nat}
    {action : LoopSystemAction Coroutine Loop}
    (taken : loop.step loopOf bufferMs action = some after) :
    ∃ next, after.Follows rates next := by
  cases step_cases taken with
  | tick now later =>
      have moved : threads.system.step bufferMs (.tick now) =
          some { threads.system with clock := now } := by
        simp only [System.step, follows.clock, if_pos later]
      have advances := follows.advances.step (show threads.FreshRetry (.tick now) from trivial)
        (Progress.step_of_system moved)
      exact ⟨{ threads with system := { threads.system with clock := now } },
        { follows with clock := rfl, advances := advances }⟩
  | runLoop loop => exact ⟨threads, { follows with }⟩
  | passBy coroutine request weightless outside =>
      refine ⟨threads, follows.wentOut ?_ ?_ ⟨rfl, rfl, rfl, rfl⟩ ⟨rfl, rfl, rfl, rfl, rfl⟩
        ?_ (follows.refusedOncePerRate coroutine) ?_ follows.held follows.advances⟩
      · exact congrArg Place.isInside outside
      · intro other apart
        exact ⟨rfl, Function.update_of_ne apart _ _, rfl, rfl⟩
      · exact follows.unrefused coroutine
      · exact follows.away coroutine (congrArg Place.isInside outside)
  | call coroutine request thread weighty moved =>
      obtain ⟨outside, lock, _cached, acquired⟩ := LoopThread.step_enter moved
      have out : (loop.thread.locks.place coroutine).isInside = false :=
        congrArg Place.isInside outside
      have others : ∀ other, other ≠ coroutine →
          thread.locks.place other = loop.thread.locks.place other := by
        intro other apart
        rw [acquired]
        exact Locks.place_acquire_of_ne apart
      cases inside : (thread.locks.place coroutine).isInside with
      | true =>
          have entered : (loop.called coroutine request thread).phase =
              Function.update loop.phase coroutine (.entered request) := by
            simp only [called, inside, if_true]
            rfl
          exact follows.arrived afterInOrder out inside others entered rfl ⟨rfl, rfl, rfl, rfl⟩
      | false =>
          refine ⟨threads, follows.wentOut inside ?_ ⟨rfl, rfl, rfl, rfl⟩
            ⟨rfl, rfl, rfl, rfl, rfl⟩ ?_ ?_ (follows.away coroutine out) follows.held
            follows.advances⟩
          · intro other apart
            exact ⟨others other apart, Function.update_of_ne apart _ _,
              Function.update_of_ne apart _ _, rfl⟩
          · intro _lock _waits
            exact Function.update_self _ _ _
          · change Function.update loop.refusals coroutine 0 coroutine ≤ _
            rw [Function.update_self]
            exact Nat.zero_le _
  | enter coroutine thread moved =>
      obtain ⟨locks, resumed, rfl⟩ := LoopThread.step_resume moved
      obtain ⟨lock, rest, waits, _free, _queue, rfl⟩ := Locks.resume_cases resumed
      have refusals := follows.unrefused coroutine lock waits
      refine follows.arrived afterInOrder (congrArg Place.isInside waits) ?_ ?_ rfl ?_
        ⟨rfl, rfl, rfl, rfl⟩
      · change (Function.update loop.thread.locks.place coroutine (.inside lock)
          coroutine).isInside = true
        rw [Function.update_self]
        rfl
      · intro other apart
        exact Function.update_of_ne apart _ _
      · rw [← refusals, Function.update_eq_self]
        rfl
  | giveUp coroutine thread moved =>
      obtain ⟨locks, cancelled, rfl⟩ := LoopThread.step_cancel moved
      obtain ⟨lock, waits, rfl⟩ := Locks.cancel_cases cancelled
      refine ⟨threads, follows.wentOut ?_ ?_ ⟨rfl, rfl, rfl, rfl⟩ ⟨rfl, rfl, rfl, rfl, rfl⟩
        ?_ (follows.refusedOncePerRate coroutine) ?_ follows.held follows.advances⟩
      · change (Function.update loop.thread.locks.place coroutine .outside
          coroutine).isInside = false
        rw [Function.update_self]
        rfl
      · intro other apart
        exact ⟨Function.update_of_ne apart _ _, Function.update_of_ne apart _ _, rfl, rfl⟩
      · intro other impossible
        exact follows.unrefused coroutine lock waits
      · exact follows.away coroutine (congrArg Place.isInside waits)
  | wrapItem coroutine request current =>
      have inside := inOrder.busy coroutine (by rw [current]; rfl)
      have threadPhase := (follows.phases coroutine inside).trans current
      have moved : threads.system.step bufferMs (.wrapItem coroutine) =
          some (threads.system.move coroutine (request.enter loop.clock)) := by
        simp only [System.step, threadPhase, follows.clock]
      have advances := follows.advances.step
        (show threads.FreshRetry (.wrapItem coroutine) from trivial)
        (Progress.step_of_system moved)
      refine ⟨_, follows.goesOn inside advances rfl rfl rfl rfl rfl rfl
        (follows.stillHeld rfl rfl ?_) (Phase.newest_enter request loop.clock)⟩
      intro _held
      rcases request.enter_cases loop.clock with
        ⟨verdict, entered⟩ | ⟨item, blocking, entered⟩
      · rw [entered]
        rfl
      · rw [entered]
        rfl
  | put coroutine item blocking current =>
      exact follows.put inOrder (inOrder.busy coroutine (Phase.ended_of_pending current).2) current
  | computeWait coroutine item current =>
      have inside := inOrder.busy coroutine (by rw [current]; rfl)
      have threadPhase := (follows.phases coroutine inside).trans current
      have newest := follows.newest coroutine inside
      rw [current] at newest
      have moved : threads.system.step bufferMs (.computeWait coroutine) =
          some (threads.system.move coroutine
            (Phase.afterWaiting item (loop.bucket.waiting item))) := by
        simp only [System.step, threadPhase, follows.bucket]
      have advances := follows.advances.step
        (show threads.FreshRetry (.computeWait coroutine) from trivial)
        (Progress.step_of_system moved)
      refine ⟨_, follows.goesOn inside advances rfl rfl rfl rfl rfl rfl
        (follows.stillHeld rfl rfl ?_) (Phase.newest_afterWaiting _ newest)⟩
      intro _held
      unfold Phase.afterWaiting
      cases loop.bucket.waiting item <;> rfl
  | sleep coroutine item waitMs current =>
      have inside := inOrder.busy coroutine (by rw [current]; rfl)
      have threadPhase := (follows.phases coroutine inside).trans current
      have newest := follows.newest coroutine inside
      rw [current] at newest
      have moved : threads.system.step bufferMs (.releaseLock coroutine) =
          some { threads.system.move coroutine
              (Phase.afterPlanning bufferMs loop.clock item waitMs) with holder := none } := by
        simp only [System.step, threadPhase, follows.clock]
      have advances := follows.advances.step
        (show threads.FreshRetry (.releaseLock coroutine) from trivial)
        (Progress.step_of_system moved)
      exact ⟨_, follows.goesOn inside advances rfl rfl rfl rfl rfl rfl
        (fun _other impossible => by cases impossible)
        (Phase.newest_afterPlanning bufferMs waitMs newest)⟩
  | wake coroutine item sleepMs wakeAt current awake =>
      have inside := inOrder.busy coroutine (by rw [current]; rfl)
      have threadPhase := (follows.phases coroutine inside).trans current
      have newest := follows.newest coroutine inside
      rw [current] at newest
      have free : threads.system.holder = none := by
        apply follows.unheld
        intro other otherInside
        rw [inOrder.alone otherInside inside, current]
        rfl
      have moved : threads.system.step bufferMs (.resume coroutine) =
          some { threads.system.move coroutine (.resumed (item.delay sleepMs)) with
            holder := some coroutine } := by
        simp only [System.step, threadPhase, free, follows.clock, if_pos awake]
      have advances := follows.advances.step
        (show threads.FreshRetry (.resume coroutine) from trivial)
        (Progress.step_of_system moved)
      refine ⟨_, follows.goesOn inside advances rfl rfl rfl rfl rfl rfl ?_ newest⟩
      rintro other ⟨⟩
      change (Function.update threads.system.phase coroutine _ coroutine).holds = true
      rw [Function.update_self]
      rfl
  | timeOut coroutine item sleepMs wakeAt current =>
      have inside := inOrder.busy coroutine (by rw [current]; rfl)
      have threadPhase := (follows.phases coroutine inside).trans current
      have moved : threads.system.step bufferMs (.timeOut coroutine) =
          some (threads.system.move coroutine (.finished (.returned false))) := by
        simp only [System.step, threadPhase]
      have advances := follows.advances.step
        (show threads.FreshRetry (.timeOut coroutine) from trivial)
        (Progress.step_of_system moved)
      refine ⟨_, follows.goesOn inside advances rfl rfl rfl rfl rfl rfl
        (follows.stillHeld rfl rfl ?_) trivial⟩
      intro held
      have holds := follows.held coroutine held
      rw [threadPhase] at holds
      cases holds
  | leave coroutine verdict thread ending moved =>
      obtain ⟨locks, released, rfl⟩ := LoopThread.step_leave moved
      obtain ⟨lock, entered, rfl⟩ := Locks.release_cases released
      have inside : (loop.thread.locks.place coroutine).isInside = true :=
        congrArg Place.isInside entered
      have threadPhase := follows.phases coroutine inside
      have out : (Function.update loop.thread.locks.place coroutine .outside
          coroutine).isInside = false := by
        rw [Function.update_self]
        rfl
      rcases ending with leaving | finished
      · rw [leaving] at threadPhase
        have released : threads.system.step bufferMs (.releaseLock coroutine) =
            some { threads.system.move coroutine (.finished verdict) with holder := none } := by
          simp only [System.step, threadPhase]
        have advances := follows.advances.step
          (show threads.FreshRetry (.releaseLock coroutine) from trivial)
          (Progress.step_of_system released)
        refine ⟨{ threads with system :=
            { threads.system.move coroutine (.finished verdict) with holder := none } },
          follows.wentOut out ?_ ⟨rfl, rfl, rfl, rfl⟩ ⟨rfl, rfl, rfl, rfl, rfl⟩
          ?_ (follows.refusedOncePerRate coroutine) ?_
          (fun _other impossible => by cases impossible) advances⟩
        · intro other apart
          exact ⟨Function.update_of_ne apart _ _, Function.update_of_ne apart _ _, rfl,
            Function.update_of_ne apart _ _⟩
        · intro otherLock waits
          change Function.update loop.thread.locks.place coroutine .outside coroutine = _ at waits
          rw [Function.update_self] at waits
          cases waits
        · change (Function.update threads.system.phase coroutine _ coroutine).away = true
          rw [Function.update_self]
          rfl
      · rw [finished] at threadPhase
        refine ⟨threads, follows.wentOut out ?_ ⟨rfl, rfl, rfl, rfl⟩ ⟨rfl, rfl, rfl, rfl, rfl⟩
          ?_ (follows.refusedOncePerRate coroutine) (by rw [threadPhase]; rfl) follows.held
          follows.advances⟩
        · intro other apart
          exact ⟨Function.update_of_ne apart _ _, Function.update_of_ne apart _ _, rfl, rfl⟩
        · intro otherLock waits
          change Function.update loop.thread.locks.place coroutine .outside coroutine = _ at waits
          rw [Function.update_self] at waits
          cases waits
  | leakerNow =>
      have moved : threads.system.step bufferMs .leakerNow =
          some { threads.system with leaker := some loop.clock } := by
        simp only [System.step, follows.clock]
      have advances := follows.advances.step (show threads.FreshRetry .leakerNow from trivial)
        (Progress.step_of_system moved)
      exact ⟨{ threads with system := { threads.system with leaker := some loop.clock } },
        { follows with leaker := rfl, advances := advances }⟩
  | leakerLeak now reading =>
      have moved : threads.system.step bufferMs .leakerLeak =
          some { threads.system with bucket := (loop.bucket.leak now).2, leaker := none } := by
        simp only [System.step, follows.leaker, reading, follows.bucket]
      have advances := follows.advances.step (show threads.FreshRetry .leakerLeak from trivial)
        (Progress.step_of_system moved)
      have sorted := follows.advances.records.sorted
      rw [follows.bucket] at sorted
      obtain ⟨forgotten, split, _below⟩ := InMemoryBucket.leak_splits sorted now
      refine ⟨{ threads with system :=
          { threads.system with bucket := (loop.bucket.leak now).2, leaker := none } },
        { follows with bucket := rfl, leaker := rfl, newest := ?_, advances := advances }⟩
      intro other inside
      refine (follows.newest other inside).fewer (fun stamp member => ?_)
      rw [split]
      exact List.mem_append_right forgotten member

end Follows

theorem always_followed [DecidableEq Coroutine] [DecidableEq Loop] (loopOf : Coroutine → Loop)
    (bufferMs : Nat) (rates : RateList) (clock : Int)
    (actions : List (LoopSystemAction Coroutine Loop))
    (lone : StepsMeet (step loopOf bufferMs) (EntersAlone loopOf) (start rates clock) actions) :
    Always (step loopOf bufferMs)
      (fun loop => loop.InOrder loopOf ∧ ∃ threads, loop.Follows rates threads)
      (start rates clock) actions := by
  refine Always.of_invariant ?_ ⟨InOrder.start rates clock, _, Follows.start clock⟩ lone
  rintro before action after ⟨inOrder, threads, follows⟩ alone taken
  have afterInOrder := inOrder.step alone taken
  exact ⟨afterInOrder, follows.step inOrder afterInOrder taken⟩

end LoopSystem

/-- However long the calls of `try_acquire_async` sleep and whichever of them time out, the
recorded units stay sorted and every window of them within its limit, as long as only one
loop at a time has calls under way. -/
theorem async_calls_keep_records {Coroutine Loop : Type} [DecidableEq Coroutine]
    [DecidableEq Loop] (loopOf : Coroutine → Loop) (bufferMs : Nat) (rates : RateList)
    (clock : Int) (actions : List (LoopSystemAction Coroutine Loop))
    (lone : StepsMeet (LoopSystem.step loopOf bufferMs) (LoopSystem.EntersAlone loopOf)
      (LoopSystem.start rates clock) actions) :
    Always (LoopSystem.step loopOf bufferMs) (LoopSystem.RecordsKept rates)
      (LoopSystem.start rates clock) actions :=
  (LoopSystem.always_followed loopOf bufferMs rates clock actions lone).imp
    (fun _loop ⟨_inOrder, _threads, follows⟩ => follows.recordsKept)

theorem async_calls_keep_records_lateWake :
    (exec (LoopSystem.step Option.isSome 0) (LoopSystem.start threeRequestsIn100 0)
        lateWake).map (fun final => final.bucket.stamps) = some [0, 0, 0, 101, 150, 205] ∧
      Always (LoopSystem.step Option.isSome 0) (LoopSystem.RecordsKept threeRequestsIn100)
        (LoopSystem.start threeRequestsIn100 0) lateWake :=
  ⟨by decide, async_calls_keep_records Option.isSome 0 threeRequestsIn100 0 lateWake
    (by decide)⟩

/-- However many calls share the loop, each of them is refused at most once for each rate. -/
theorem async_calls_refused_once_per_rate {Coroutine Loop : Type} [DecidableEq Coroutine]
    [DecidableEq Loop] (loopOf : Coroutine → Loop) (bufferMs : Nat) (rates : RateList)
    (clock : Int) (actions : List (LoopSystemAction Coroutine Loop))
    (lone : StepsMeet (LoopSystem.step loopOf bufferMs) (LoopSystem.EntersAlone loopOf)
      (LoopSystem.start rates clock) actions) :
    Always (LoopSystem.step loopOf bufferMs) (LoopSystem.RefusedOncePerRate rates)
      (LoopSystem.start rates clock) actions :=
  (LoopSystem.always_followed loopOf bufferMs rates clock actions lone).imp
    (fun _loop ⟨_inOrder, _threads, follows⟩ => follows.refusedOncePerRate)

/-- The first call fills the shorter rate, and the second one, of two units, is refused by that
rate at 0 and by the longer one at 101. -/
def refusedByBoth : List (LoopSystemAction (Option Bool) Bool) :=
  [.runLoop true,
    .call (some false) ⟨"first", 2, true⟩, .wrapItem (some false), .put (some false),
    .call (some true) ⟨"second", 2, true⟩, .leave (some false),
    .call (some false) ⟨"third", 1, true⟩, .enter (some true), .wrapItem (some true),
    .put (some true), .computeWait (some true), .sleep (some true), .tick 101,
    .wake (some true), .put (some true), .computeWait (some true), .sleep (some true),
    .tick 1001, .wake (some true), .put (some true), .leave (some true)]

theorem async_calls_refused_once_per_rate_both :
    (exec (LoopSystem.step Option.isSome 0) (LoopSystem.start twoIn100ThreeIn1000 0)
        refusedByBoth).map (fun final => (final.refusals (some true), final.served)) =
      some (2, [0, 1]) ∧
      Always (LoopSystem.step Option.isSome 0)
        (LoopSystem.RefusedOncePerRate twoIn100ThreeIn1000)
        (LoopSystem.start twoIn100ThreeIn1000 0) refusedByBoth :=
  ⟨by decide, async_calls_refused_once_per_rate Option.isSome 0 twoIn100ThreeIn1000 0
    refusedByBoth (by decide)⟩

end PyrateLimiter

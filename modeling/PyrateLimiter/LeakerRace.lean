/-
The leaker and the non-blocking acquires that share one in-memory bucket.

The leaker reads the clock and leaks without the limiter lock, so its reading
can be later than the stamp of a put that is still to come.  What it forgets is
then still inside the widest window of that put.  As long as no leak forgets a
unit that a pending put would count, the admitted history stays traced by the
bucket and no window of it ever exceeds its limit.
-/

import Mathlib.Data.Fintype.Basic
import PyrateLimiter.LimiterThreads

namespace PyrateLimiter

open Foundations.TransitionSystem

def Phase.stamped? : Phase → Option RateItem
  | .stamped item _ => some item
  | _ => none

def Phase.Immediate (clock : Int) : Phase → Prop
  | .entered request => request.blocking = false
  | .stamped item blocking => blocking = false ∧ 1 ≤ item.weight ∧ item.timestamp ≤ clock
  | .idle | .leaving _ | .finished _ => True
  | .refused _ | .planned _ _ | .sleeping _ _ _ | .resumed _ => False

namespace Phase

variable {clock : Int} {phase : Phase}

theorem Immediate.later {now : Int} (immediate : phase.Immediate clock) (reached : clock ≤ now) :
    phase.Immediate now := by
  cases phase with
  | stamped item blocking =>
      exact ⟨immediate.1, immediate.2.1, Int.le_trans immediate.2.2 reached⟩
  | _ => exact immediate

theorem holds_of_stamped {item : RateItem} (current : item ∈ phase.stamped?) :
    phase.holds = true := by
  cases phase with
  | stamped item blocking => rfl
  | _ => cases current

theorem immediate_enter {request : Request} (nonBlocking : request.blocking = false) :
    (request.enter clock).Immediate clock := by
  unfold Request.enter
  split
  · trivial
  · split
    · trivial
    · refine ⟨nonBlocking, ?_, Int.le_refl clock⟩
      simp only [wrapItem]
      omega

theorem afterPut_nonBlocking (item : RateItem) (acquired : Bool) :
    afterPut item acquired false = .leaving (.returned acquired) := by
  cases acquired <;> rfl

theorem stamped_enter {request : Request} {item : RateItem}
    (current : item ∈ (request.enter clock).stamped?) : clock ≤ item.timestamp := by
  unfold Request.enter at current
  split at current
  · cases current
  · split at current
    · cases current
    · cases current
      exact Int.le_refl clock

end Phase

namespace System

variable {Thread : Type}

def AdmittedKept (rates : RateList) (system : System Thread) : Prop :=
  ∀ rate, rate ∈ rates → ∀ finish,
    weightBetween system.admitted (finish - rate.interval) finish ≤ rate.limit

/-- What a leak forgets is outside the widest window of every pending put. -/
def LeaksBehind (system : System Thread) (action : Action Thread) : Prop :=
  action = .leakerLeak → ∀ now, now ∈ system.leaker → ∀ thread item,
    item ∈ (system.phase thread).stamped? → ∀ old, old ∈ system.bucket.stamps →
      old < leakBound system.bucket.rates now →
        old < leakBound system.bucket.rates item.timestamp

instance [Fintype Thread] [DecidableEq Thread] (system : System Thread)
    (action : Action Thread) : Decidable (system.LeaksBehind action) :=
  inferInstanceAs (Decidable (action = .leakerLeak → ∀ now, now ∈ system.leaker →
    ∀ thread item, item ∈ (system.phase thread).stamped? → ∀ old, old ∈ system.bucket.stamps →
      old < leakBound system.bucket.rates now →
        old < leakBound system.bucket.rates item.timestamp))

def Coming (system : System Thread) (stamp : Int) : Prop :=
  system.clock ≤ stamp ∨
    ∃ thread item, item ∈ (system.phase thread).stamped? ∧ item.timestamp = stamp

structure LeakInvariant (rates : RateList) (system : System Thread) : Prop where
  exclusive : system.Exclusive
  rates_eq : system.bucket.rates = rates
  traces : Traces system.bucket system.admitted system.Coming
  reading : ∀ now, now ∈ system.leaker → now ≤ system.clock
  immediate : ∀ thread, (system.phase thread).Immediate system.clock

namespace LeakInvariant

variable {rates : RateList} {before after : System Thread}

theorem start (clock : Int) : LeakInvariant rates (System.start rates clock : System Thread) where
  exclusive := fun _thread impossible => by cases impossible
  rates_eq := rfl
  traces := Traces.empty rates
  reading := fun _now impossible => by cases impossible
  immediate := fun _thread => trivial

theorem admittedKept (invariant : LeakInvariant rates before) : before.AdmittedKept rates := by
  intro rate member finish
  apply invariant.traces.weightBetween_le
  rw [invariant.rates_eq]
  exact member

/-- The leaker's reading is never ahead of the clock, so only pending puts can
have stamps that precede it. -/
theorem leak (invariant : LeakInvariant rates before) {now : Int}
    (reading : before.leaker = some now) (behind : before.LeaksBehind .leakerLeak)
    (exclusive : after.Exclusive) (bucket : after.bucket = (before.bucket.leak now).2)
    (sameAdmitted : after.admitted = before.admitted) (sameClock : after.clock = before.clock)
    (samePhase : after.phase = before.phase) (spent : after.leaker = none) :
    LeakInvariant rates after where
  exclusive := exclusive
  rates_eq := by
    rw [bucket, InMemoryBucket.leak_rates]
    exact invariant.rates_eq
  traces := by
    have same : ∀ stamp, after.Coming stamp → before.Coming stamp := by
      intro stamp coming
      unfold Coming at coming ⊢
      rw [sameClock, samePhase] at coming
      exact coming
    rw [bucket, sameAdmitted]
    apply Traces.leak (invariant.traces.narrow same)
    intro stamp coming old present expired
    rcases same stamp coming with reached | ⟨thread, item, pending, rfl⟩
    · have past := invariant.reading now reading
      simp only [leakBound] at expired ⊢
      omega
    · exact behind rfl now reading thread item pending old present expired
  reading := by
    intro reading impossible
    rw [spent] at impossible
    cases impossible
  immediate := by rw [sameClock, samePhase]; exact invariant.immediate

variable [DecidableEq Thread]

theorem coming_moved {thread : Thread} {phase : Phase} (sameClock : after.clock = before.clock)
    (updated : after.phase = Function.update before.phase thread phase)
    (current : ∀ item, item ∈ phase.stamped? → before.clock ≤ item.timestamp) (stamp : Int)
    (coming : after.Coming stamp) : before.Coming stamp := by
  rcases coming with reached | ⟨other, item, pending, same⟩
  · rw [sameClock] at reached
    exact Or.inl reached
  · rw [updated] at pending
    by_cases own : other = thread
    · rw [own, Function.update_self] at pending
      rw [← same]
      exact Or.inl (current item pending)
    · rw [Function.update_of_ne own] at pending
      exact Or.inr ⟨other, item, pending, same⟩

theorem moved (invariant : LeakInvariant rates before) {thread : Thread} {phase : Phase}
    (exclusive : after.Exclusive) (sameBucket : after.bucket = before.bucket)
    (sameAdmitted : after.admitted = before.admitted) (sameClock : after.clock = before.clock)
    (sameLeaker : after.leaker = before.leaker)
    (updated : after.phase = Function.update before.phase thread phase)
    (immediate : phase.Immediate before.clock)
    (current : ∀ item, item ∈ phase.stamped? → before.clock ≤ item.timestamp) :
    LeakInvariant rates after where
  exclusive := exclusive
  rates_eq := by rw [sameBucket]; exact invariant.rates_eq
  traces := by
    rw [sameBucket, sameAdmitted]
    exact invariant.traces.narrow (coming_moved sameClock updated current)
  reading := by rw [sameLeaker, sameClock]; exact invariant.reading
  immediate := by
    rw [sameClock, updated, Function.forall_update_iff before.phase
      (fun _other phase => phase.Immediate before.clock)]
    exact ⟨immediate, fun other _different => invariant.immediate other⟩

theorem put (invariant : LeakInvariant rates before) {thread : Thread} {item : RateItem}
    {blocking : Bool} (current : before.phase thread = .stamped item blocking)
    (exclusive : after.Exclusive) (bucket : after.bucket = (before.bucket.put item).2)
    (admitted : after.admitted =
      if (before.bucket.put item).1 then before.admitted ++ [item] else before.admitted)
    (sameClock : after.clock = before.clock) (sameLeaker : after.leaker = before.leaker)
    (updated : after.phase = Function.update before.phase thread
      (Phase.afterPut item (before.bucket.put item).1 blocking)) :
    LeakInvariant rates after := by
  have known := invariant.immediate thread
  rw [current] at known
  obtain ⟨nonBlocking, positive, past⟩ := known
  rw [nonBlocking, Phase.afterPut_nonBlocking] at updated
  have inside : (before.phase thread).holds = true := by rw [current]; rfl
  have pending : before.Coming item.timestamp := Or.inr ⟨thread, item, by rw [current]; rfl, rfl⟩
  have alone : ∀ stamp, after.Coming stamp → before.clock ≤ stamp := by
    rintro stamp (reached | ⟨other, otherItem, otherPending, _same⟩)
    · rw [sameClock] at reached
      exact reached
    · rw [updated] at otherPending
      by_cases own : other = thread
      · rw [own, Function.update_self] at otherPending
        cases otherPending
      · rw [Function.update_of_ne own] at otherPending
        have held := Phase.holds_of_stamped otherPending
        rw [invariant.exclusive.outside inside own] at held
        cases held
  exact
    { exclusive := exclusive
      rates_eq := by
        rw [bucket, InMemoryBucket.put_rates]
        exact invariant.rates_eq
      traces := by
        rw [bucket, admitted]
        apply invariant.traces.put positive pending
        intro stamp coming
        have reached := alone stamp coming
        exact ⟨Or.inl reached, Int.le_trans past reached⟩
      reading := by rw [sameLeaker, sameClock]; exact invariant.reading
      immediate := by
        rw [sameClock, updated, Function.forall_update_iff before.phase
          (fun _other phase => phase.Immediate before.clock)]
        exact ⟨trivial, fun other _different => invariant.immediate other⟩ }

theorem step {bufferMs : Nat} {action : Action Thread} (invariant : LeakInvariant rates before)
    (nonBlocking : ∀ thread request, action = .acquireLock thread request →
      request.blocking = false)
    (behind : before.LeaksBehind action) (taken : before.step bufferMs action = some after) :
    LeakInvariant rates after := by
  have exclusive := invariant.exclusive.step taken
  have noStamp : ∀ item : RateItem, item ∈ (none : Option RateItem) →
      before.clock ≤ item.timestamp := fun _item impossible => by cases impossible
  cases step_cases taken with
  | tick now later =>
      exact
        { exclusive := exclusive
          rates_eq := invariant.rates_eq
          traces := by
            apply invariant.traces.narrow
            rintro stamp (reached | pending)
            · exact Or.inl (Int.le_trans later reached)
            · exact Or.inr pending
          reading := fun reading member => Int.le_trans (invariant.reading reading member) later
          immediate := fun thread => (invariant.immediate thread).later later }
  | acquireLock thread request outside free =>
      exact invariant.moved exclusive rfl rfl rfl rfl rfl (nonBlocking thread request rfl) noStamp
  | failLock thread outside =>
      exact invariant.moved exclusive rfl rfl rfl rfl rfl trivial noStamp
  | wrapItem thread request current =>
      have known := invariant.immediate thread
      rw [current] at known
      exact invariant.moved exclusive rfl rfl rfl rfl rfl (Phase.immediate_enter known)
        (fun _item pending => Phase.stamped_enter pending)
  | put thread item blocking current =>
      have known := invariant.immediate thread
      cases phase : before.phase thread with
      | stamped stamped first =>
          rw [phase] at current known
          cases current
          exact invariant.put phase exclusive rfl rfl rfl rfl rfl
      | resumed resumed => rw [phase] at known; cases known
      | _ => rw [phase] at current; cases current
  | computeWait thread item current =>
      have known := invariant.immediate thread
      rw [current] at known
      cases known
  | leave thread verdict current =>
      exact invariant.moved exclusive rfl rfl rfl rfl rfl trivial noStamp
  | plan thread item waitMs current =>
      have known := invariant.immediate thread
      rw [current] at known
      cases known
  | resume thread item sleepMs wakeAt current free awake =>
      have known := invariant.immediate thread
      rw [current] at known
      cases known
  | timeOut thread outside =>
      exact invariant.moved exclusive rfl rfl rfl rfl rfl trivial noStamp
  | leakerNow =>
      exact
        { exclusive := exclusive
          rates_eq := invariant.rates_eq
          traces := invariant.traces
          reading := fun now member => by cases member; exact Int.le_refl _
          immediate := invariant.immediate }
  | leakerLeak now reading =>
      exact invariant.leak reading behind exclusive rfl rfl rfl rfl rfl

end LeakInvariant

end System

/-- Non-blocking calls beside the leaker never admit more than a limit in any
window, as long as no leak forgets a unit that a pending put would still count. -/
theorem leaker_keeps_admitted {Thread : Type} [DecidableEq Thread] (bufferMs : Nat)
    (rates : RateList) (clock : Int) (actions : List (Action Thread))
    (nonBlocking : ∀ thread request, Action.acquireLock thread request ∈ actions →
      request.blocking = false)
    (behind : StepsMeet (System.step bufferMs) System.LeaksBehind
      (System.start rates clock) actions) :
    Always (System.step bufferMs) (System.AdmittedKept rates)
      (System.start rates clock) actions := by
  have met := behind.and_forall_mem
    (fun action member => show ∀ thread request, action = .acquireLock thread request →
      request.blocking = false from
        fun thread request same => nonBlocking thread request (same ▸ member))
  have kept : Always (System.step bufferMs) (System.LeakInvariant rates)
      (System.start rates clock) actions :=
    Always.of_invariant
      (fun _before _action _after invariant both taken => invariant.step both.1 both.2 taken)
      (System.LeakInvariant.start clock) met
  exact kept.imp (fun _system invariant => invariant.admittedKept)

/-- The leaker reads the clock after the second call is stamped, and leaks before
its put, which still counts the unit at 0. -/
def leakBetweenStampAndPut : List (Action (Fin 2)) :=
  [.acquireLock 0 ⟨"first", 1, false⟩, .wrapItem 0, .put 0, .releaseLock 0,
    .tick 100,
    .acquireLock 1 ⟨"second", 1, false⟩, .wrapItem 1,
    .tick 101, .leakerNow, .leakerLeak,
    .put 1, .releaseLock 1]

def leakAfterPut : List (Action (Fin 2)) :=
  [.acquireLock 0 ⟨"first", 1, false⟩, .wrapItem 0, .put 0, .releaseLock 0,
    .tick 100,
    .acquireLock 1 ⟨"second", 1, false⟩, .wrapItem 1, .put 1, .releaseLock 1,
    .tick 101, .leakerNow, .leakerLeak,
    .acquireLock 1 ⟨"third", 1, false⟩, .wrapItem 1, .put 1, .releaseLock 1]

theorem leaker_keeps_admitted_leakAfterPut :
    (exec (System.step 0) (System.start oneRequestIn100 0) leakAfterPut).map
        (fun final => (final.bucket.stamps, final.admitted.length)) = some ([101], 2) ∧
      Always (System.step 0) (System.AdmittedKept oneRequestIn100)
        (System.start oneRequestIn100 0) leakAfterPut := by
  refine ⟨by decide, leaker_keeps_admitted 0 oneRequestIn100 0 leakAfterPut ?_ (by decide)⟩
  intro thread request member
  simp only [leakAfterPut, List.mem_cons, List.not_mem_nil, reduceCtorEq, false_or, or_false,
    Action.acquireLock.injEq] at member
  rcases member with ⟨_, rfl⟩ | ⟨_, rfl⟩ | ⟨_, rfl⟩ <;> rfl

theorem leakBetweenStampAndPut_overfills_window :
    (∀ thread request, Action.acquireLock thread request ∈ leakBetweenStampAndPut →
      request.blocking = false) ∧
      (∃ final, exec (System.step 0) (System.start oneRequestIn100 0) leakBetweenStampAndPut =
        some final ∧ weightBetween final.admitted 0 100 = 2) ∧
      ¬Always (System.step 0) (System.AdmittedKept oneRequestIn100)
        (System.start oneRequestIn100 0) leakBetweenStampAndPut := by
  have ran : (exec (System.step 0) (System.start oneRequestIn100 0) leakBetweenStampAndPut).map
      (fun final => final.admitted) = some [⟨"first", 0, 1⟩, ⟨"second", 100, 1⟩] := by
    decide
  obtain ⟨final, run, admitted⟩ := Option.map_eq_some_iff.mp ran
  have overfull : weightBetween final.admitted 0 100 = 2 := by
    rw [admitted]
    decide
  refine ⟨?_, ⟨final, run, overfull⟩, ?_⟩
  · intro thread request member
    simp only [leakBetweenStampAndPut, List.mem_cons, List.not_mem_nil, reduceCtorEq, false_or,
      or_false, Action.acquireLock.injEq] at member
    rcases member with ⟨_, rfl⟩ | ⟨_, rfl⟩ <;> rfl
  · intro always
    have kept := always.reached run oneRequestIn100.first oneRequestIn100.first_mem 100
    change weightBetween final.admitted 0 100 ≤ 1 at kept
    omega

end PyrateLimiter

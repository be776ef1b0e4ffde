/-
The order of the recorded units when threads retry blocking acquires.

A retry puts its item at the planned wake-up time, not at a new reading of the
clock.  While the lock was free for the sleep another thread may have recorded
a later stamp, and an admitted retry then breaks the order that every search in
the bucket relies on.  That is the only way the order is lost: the runs in which
it does not happen are exactly those that keep the list sorted and every window
within its limit.
-/

import PyrateLimiter.LimiterThreads

namespace PyrateLimiter

open Foundations.WindowLog
open Foundations.TransitionSystem

/-- What a phase knows of its item: stamps come from the past, and the first put
of a call is stamped while the lock keeps everybody else out. -/
def Phase.Sound (clock : Int) (log : List Int) : Phase → Prop
  | .stamped item _ =>
      1 ≤ item.weight ∧ item.timestamp ≤ clock ∧
        ∀ stamp, stamp ∈ log → stamp ≤ item.timestamp
  | .refused item | .planned item _ | .resumed item =>
      1 ≤ item.weight ∧ item.timestamp ≤ clock
  | .sleeping item sleepMs wakeAt => 1 ≤ item.weight ∧ item.timestamp + sleepMs ≤ wakeAt
  | .idle | .entered _ | .leaving _ | .finished _ => True

namespace Phase

variable {clock : Int} {log : List Int} {phase : Phase}

theorem Sound.later {now : Int} (sound : phase.Sound clock log) (reached : clock ≤ now) :
    phase.Sound now log := by
  cases phase with
  | stamped item blocking => exact ⟨sound.1, Int.le_trans sound.2.1 reached, sound.2.2⟩
  | refused item => exact ⟨sound.1, Int.le_trans sound.2 reached⟩
  | planned item waitMs => exact ⟨sound.1, Int.le_trans sound.2 reached⟩
  | resumed item => exact ⟨sound.1, Int.le_trans sound.2 reached⟩
  | _ => exact sound

theorem Sound.fewer {kept : List Int} (sound : phase.Sound clock log)
    (part : ∀ stamp, stamp ∈ kept → stamp ∈ log) : phase.Sound clock kept := by
  cases phase with
  | stamped item blocking =>
      exact ⟨sound.1, sound.2.1, fun stamp member => sound.2.2 stamp (part stamp member)⟩
  | _ => exact sound

theorem Sound.outside {grown : List Int} (sound : phase.Sound clock log)
    (outside : phase.holds = false) : phase.Sound clock grown := by
  cases phase with
  | stamped item blocking => cases outside
  | _ => exact sound

theorem Sound.pending {item : RateItem} {blocking : Bool} (sound : phase.Sound clock log)
    (current : phase.pending = some (item, blocking)) :
    1 ≤ item.weight ∧ item.timestamp ≤ clock := by
  cases phase with
  | stamped stamped first =>
      cases current
      exact ⟨sound.1, sound.2.1⟩
  | resumed resumed =>
      cases current
      exact sound
  | _ => cases current

theorem sound_enter (request : Request) (past : ∀ stamp, stamp ∈ log → stamp ≤ clock) :
    (request.enter clock).Sound clock log := by
  unfold Request.enter
  split
  · trivial
  · split
    · trivial
    · refine ⟨?_, Int.le_refl clock, past⟩
      simp only [wrapItem]
      omega

theorem sound_afterPut {item : RateItem} (positive : 1 ≤ item.weight)
    (past : item.timestamp ≤ clock) (acquired blocking : Bool) :
    (afterPut item acquired blocking).Sound clock log := by
  unfold afterPut
  split
  · trivial
  · split
    · exact ⟨positive, past⟩
    · trivial

theorem sound_afterWaiting {item : RateItem} (positive : 1 ≤ item.weight)
    (past : item.timestamp ≤ clock) (answer : Except PyError Int) :
    (afterWaiting item answer).Sound clock log := by
  unfold afterWaiting
  cases answer with
  | error raised => trivial
  | ok waitMs => exact ⟨positive, past⟩

theorem sound_afterPlanning {item : RateItem} (positive : 1 ≤ item.weight)
    (past : item.timestamp ≤ clock) (bufferMs : Nat) (waitMs : Int) :
    (afterPlanning bufferMs clock item waitMs).Sound clock log := by
  unfold afterPlanning
  cases delayToSleepMs bufferMs waitMs with
  | none => trivial
  | some sleepMs => exact ⟨positive, Int.add_le_add_right past sleepMs⟩

end Phase

namespace System

variable {Thread : Type}

structure RecordsKept (rates : RateList) (system : System Thread) : Prop where
  sorted : system.bucket.Sorted
  within : ∀ rate, rate ∈ rates → ∀ finish,
    (countBetween system.bucket.stamps (finish - rate.interval) finish : Int) ≤ rate.limit

/-- A retry that finds room carries a stamp no older than the recorded ones. -/
def FreshRetry (system : System Thread) : Action Thread → Prop
  | .put thread => ∀ item, system.phase thread = .resumed item →
      Room system.bucket.rates.windows system.bucket.stamps item.timestamp item.weight →
        ∀ stamp, stamp ∈ system.bucket.stamps → stamp ≤ item.timestamp
  | _ => True

structure RetryInvariant (rates : RateList) (system : System Thread) : Prop where
  exclusive : system.Exclusive
  rates_eq : system.bucket.rates = rates
  sorted : system.bucket.Sorted
  within : Within rates.windows system.bucket.stamps
  past : ∀ stamp, stamp ∈ system.bucket.stamps → stamp ≤ system.clock
  sound : ∀ thread, (system.phase thread).Sound system.clock system.bucket.stamps

namespace RetryInvariant

variable {rates : RateList} {before after : System Thread}

theorem start (clock : Int) : RetryInvariant rates (System.start rates clock : System Thread) where
  exclusive := fun _thread impossible => by cases impossible
  rates_eq := rfl
  sorted := .nil
  within := rates.within_nil
  past := fun _stamp impossible => by cases impossible
  sound := fun _thread => trivial

theorem recordsKept (invariant : RetryInvariant rates before) : before.RecordsKept rates where
  sorted := invariant.sorted
  within := RateList.forall_windows.mp invariant.within

theorem leaked (invariant : RetryInvariant rates before) (now : Int)
    (exclusive : after.Exclusive) (bucket : after.bucket = (before.bucket.leak now).2)
    (sameClock : after.clock = before.clock) (samePhase : after.phase = before.phase) :
    RetryInvariant rates after := by
  obtain ⟨forgotten, split, _⟩ := InMemoryBucket.leak_splits invariant.sorted now
  have kept : after.bucket.stamps.Sublist before.bucket.stamps := by
    rw [split, bucket]
    exact List.sublist_append_right _ _
  exact
    { exclusive := exclusive
      rates_eq := by
        rw [bucket, InMemoryBucket.leak_rates]
        exact invariant.rates_eq
      sorted := invariant.sorted.sublist kept
      within := invariant.within.sublist kept
      past := by
        intro stamp member
        rw [sameClock]
        exact invariant.past stamp (kept.subset member)
      sound := by
        intro thread
        rw [sameClock, samePhase]
        exact (invariant.sound thread).fewer (fun _stamp member => kept.subset member) }

variable [DecidableEq Thread]

theorem moved (invariant : RetryInvariant rates before) {thread : Thread} {phase : Phase}
    (exclusive : after.Exclusive) (sameRates : after.bucket.rates = before.bucket.rates)
    (sameStamps : after.bucket.stamps = before.bucket.stamps)
    (sameClock : after.clock = before.clock)
    (updated : after.phase = Function.update before.phase thread phase)
    (sound : phase.Sound before.clock before.bucket.stamps) : RetryInvariant rates after where
  exclusive := exclusive
  rates_eq := sameRates.trans invariant.rates_eq
  sorted := by
    unfold InMemoryBucket.Sorted
    rw [sameStamps]
    exact invariant.sorted
  within := by rw [sameStamps]; exact invariant.within
  past := by rw [sameStamps, sameClock]; exact invariant.past
  sound := by
    rw [sameStamps, sameClock, updated, Function.forall_update_iff before.phase
      (fun _other phase => phase.Sound before.clock before.bucket.stamps)]
    exact ⟨sound, fun other _different => invariant.sound other⟩

theorem recorded (invariant : RetryInvariant rates before) {item : RateItem}
    (positive : 1 ≤ item.weight) (past : item.timestamp ≤ before.clock)
    (room : Room rates.windows before.bucket.stamps item.timestamp item.weight)
    (newest : ∀ stamp, stamp ∈ before.bucket.stamps → stamp ≤ item.timestamp)
    {thread : Thread} (inside : (before.phase thread).holds = true)
    (exclusive : after.Exclusive) (sameRates : after.bucket.rates = before.bucket.rates)
    (grown : after.bucket.stamps =
      before.bucket.stamps ++ List.replicate item.weight.toNat item.timestamp)
    (sameClock : after.clock = before.clock) {verdict : Verdict}
    (updated : after.phase = Function.update before.phase thread (.leaving verdict)) :
    RetryInvariant rates after where
  exclusive := exclusive
  rates_eq := by rw [sameRates]; exact invariant.rates_eq
  sorted := by
    unfold InMemoryBucket.Sorted
    rw [grown]
    exact sorted_append_replicate invariant.sorted newest item.weight.toNat
  within := by
    rw [grown]
    exact invariant.within.record room item.weight.toNat (by omega)
  past := by
    intro stamp member
    rw [grown] at member
    rw [sameClock]
    rcases List.mem_append.mp member with old | new
    · exact invariant.past stamp old
    · rw [List.eq_of_mem_replicate new]
      exact past
  sound := by
    rw [sameClock, updated, Function.forall_update_iff before.phase
      (fun _other phase => phase.Sound before.clock after.bucket.stamps)]
    refine ⟨trivial, ?_⟩
    intro other different
    exact (invariant.sound other).outside (invariant.exclusive.outside inside different)

theorem put (invariant : RetryInvariant rates before) {thread : Thread} {item : RateItem}
    {blocking : Bool} (current : (before.phase thread).pending = some (item, blocking))
    (newest : Room before.bucket.rates.windows before.bucket.stamps item.timestamp item.weight →
      ∀ stamp, stamp ∈ before.bucket.stamps → stamp ≤ item.timestamp)
    (exclusive : after.Exclusive) (bucket : after.bucket = (before.bucket.put item).2)
    (sameClock : after.clock = before.clock)
    (updated : after.phase = Function.update before.phase thread
      (Phase.afterPut item (before.bucket.put item).1 blocking)) :
    RetryInvariant rates after := by
  obtain ⟨positive, past⟩ := (invariant.sound thread).pending current
  have sameRates : after.bucket.rates = before.bucket.rates := by
    rw [bucket, InMemoryBucket.put_rates]
  rcases InMemoryBucket.put_cases invariant.sorted item positive with
    ⟨room, outcome⟩ | ⟨rate, _refused, outcome⟩
  · have grown : after.bucket.stamps =
        before.bucket.stamps ++ List.replicate item.weight.toNat item.timestamp := by
      rw [bucket, outcome, InMemoryBucket.stamps, InMemoryBucket.stamps, List.map_append,
        InMemoryBucket.stamps_unitsOf item positive]
    rw [outcome] at updated
    have roomNow := room
    rw [invariant.rates_eq] at roomNow
    exact invariant.recorded positive past roomNow (newest room)
      (Phase.holds_of_pending current) exclusive sameRates grown sameClock updated
  · have sameStamps : after.bucket.stamps = before.bucket.stamps := by
      rw [bucket, outcome]
      rfl
    exact invariant.moved exclusive sameRates sameStamps sameClock updated
      (Phase.sound_afterPut positive past _ blocking)

theorem step {bufferMs : Nat} {action : Action Thread} (invariant : RetryInvariant rates before)
    (fresh : before.FreshRetry action) (taken : before.step bufferMs action = some after) :
    RetryInvariant rates after := by
  have exclusive := invariant.exclusive.step taken
  cases step_cases taken with
  | tick now later =>
      exact
        { invariant with
          exclusive := exclusive
          past := fun stamp member => Int.le_trans (invariant.past stamp member) later
          sound := fun thread => (invariant.sound thread).later later }
  | acquireLock thread request outside free =>
      exact invariant.moved exclusive rfl rfl rfl rfl trivial
  | failLock thread outside => exact invariant.moved exclusive rfl rfl rfl rfl trivial
  | wrapItem thread request current =>
      exact invariant.moved exclusive rfl rfl rfl rfl (Phase.sound_enter request invariant.past)
  | put thread item blocking current =>
      refine invariant.put current ?_ exclusive rfl rfl rfl
      have known := invariant.sound thread
      cases phase : before.phase thread with
      | stamped stamped first =>
          rw [phase] at current known
          cases current
          exact fun _room => known.2.2
      | resumed resumed =>
          rw [phase] at current
          cases current
          exact fresh item phase
      | _ => rw [phase] at current; cases current
  | computeWait thread item current =>
      have known := invariant.sound thread
      rw [current] at known
      exact invariant.moved exclusive rfl rfl rfl rfl
        (Phase.sound_afterWaiting known.1 known.2 _)
  | leave thread verdict current => exact invariant.moved exclusive rfl rfl rfl rfl trivial
  | plan thread item waitMs current =>
      have known := invariant.sound thread
      rw [current] at known
      exact invariant.moved exclusive rfl rfl rfl rfl
        (Phase.sound_afterPlanning known.1 known.2 bufferMs waitMs)
  | resume thread item sleepMs wakeAt current free awake =>
      have known := invariant.sound thread
      rw [current] at known
      exact invariant.moved exclusive rfl rfl rfl rfl ⟨known.1, Int.le_trans known.2 awake⟩
  | timeOut thread outside => exact invariant.moved exclusive rfl rfl rfl rfl trivial
  | leakerNow => exact { invariant with exclusive := exclusive }
  | leakerLeak now reading => exact invariant.leaked now exclusive rfl rfl rfl

/-- A retry that finds room behind a recorded unit is recorded out of order. -/
theorem not_recordsKept_of_late {bufferMs : Nat} {action : Action Thread}
    (invariant : RetryInvariant rates before) (late : ¬before.FreshRetry action)
    (taken : before.step bufferMs action = some after) : ¬after.RecordsKept rates := by
  cases step_cases taken with
  | put thread item blocking current =>
      obtain ⟨positive, _past⟩ := (invariant.sound thread).pending current
      simp only [FreshRetry, not_forall] at late
      obtain ⟨resumed, phase, room, stamp, member, passed⟩ := late
      rw [phase] at current
      cases current
      have outcome : (before.bucket.put item).2.stamps =
          before.bucket.stamps ++ (InMemoryBucket.unitsOf item).map RateItem.timestamp := by
        rcases InMemoryBucket.put_cases invariant.sorted item positive with
          ⟨_room, outcome⟩ | ⟨rate, refused, _outcome⟩
        · rw [outcome]
          exact List.map_append
        · rw [RateList.refusing_eq_none_iff.mpr room] at refused
          cases refused
      intro kept
      have sorted := kept.sorted
      simp only [InMemoryBucket.Sorted, outcome] at sorted
      rw [InMemoryBucket.stamps_unitsOf item positive] at sorted
      have recorded : item.timestamp ∈ List.replicate item.weight.toNat item.timestamp :=
        List.mem_replicate.mpr ⟨by omega, rfl⟩
      exact passed ((List.pairwise_append.mp sorted).2.2 stamp member _ recorded)
  | _ => exact absurd trivial late

end RetryInvariant

end System

/-- Threads whose blocking calls share a limiter keep the recorded units sorted
and every window within its limit exactly as long as no retry that finds room
comes after a later stamp has been recorded. -/
theorem threads_keep_records_iff {Thread : Type} [DecidableEq Thread] (bufferMs : Nat)
    (rates : RateList) (clock : Int) (actions : List (Action Thread)) :
    Always (System.step bufferMs) (System.RecordsKept rates) (System.start rates clock) actions ↔
      StepsMeet (System.step bufferMs) System.FreshRetry (System.start rates clock) actions :=
  always_iff_stepsMeet
    (fun _before invariant => System.RetryInvariant.recordsKept invariant)
    (fun _before _action _after invariant fresh taken => invariant.step fresh taken)
    (fun _before _action _after invariant late taken =>
      invariant.not_recordsKept_of_late late taken)
    (System.RetryInvariant.start clock) actions

/-- The second caller is refused at 0 and plans to wake at 101.  It wakes late,
after the third caller was admitted at 150, and its unit is recorded at 101. -/
def lateRetry : List (Action (Fin 4)) :=
  [.acquireLock 0 ⟨"first", 3, true⟩, .wrapItem 0, .put 0, .releaseLock 0,
    .acquireLock 1 ⟨"second", 1, true⟩, .wrapItem 1, .put 1, .computeWait 1, .releaseLock 1,
    .tick 150,
    .acquireLock 2 ⟨"third", 1, true⟩, .wrapItem 2, .put 2, .releaseLock 2,
    .resume 1, .put 1, .releaseLock 1,
    .tick 205,
    .acquireLock 3 ⟨"fourth", 3, true⟩, .wrapItem 3, .put 3, .releaseLock 3]

/-- The late retry leaves the list unsorted, and the search of the fourth caller
then misses the unit at 150: four units end up in the window from 105 to 205. -/
theorem lateRetry_overfills_window :
    (∃ final, exec (System.step 0) (System.start threeRequestsIn100 0) lateRetry = some final ∧
      ¬final.bucket.Sorted ∧ countBetween final.bucket.stamps 105 205 = 4) ∧
      ¬Always (System.step 0) (System.RecordsKept threeRequestsIn100)
        (System.start threeRequestsIn100 0) lateRetry := by
  have ran : (exec (System.step 0) (System.start threeRequestsIn100 0) lateRetry).map
      (fun final => final.bucket.stamps) = some [0, 0, 0, 150, 101, 205, 205, 205] := by
    decide
  obtain ⟨final, run, recorded⟩ := Option.map_eq_some_iff.mp ran
  have unsorted : ¬final.bucket.Sorted := by
    unfold InMemoryBucket.Sorted
    rw [recorded]
    decide
  refine ⟨⟨final, run, unsorted, by rw [recorded]; decide⟩, ?_⟩
  intro always
  exact unsorted (always.reached run).sorted

end PyrateLimiter

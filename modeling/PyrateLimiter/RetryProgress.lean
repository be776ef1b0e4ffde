/-
No livelock among threads that retry blocking acquires.

A refused call sleeps until the refusing rate and all shorter ones have room, and while it
sleeps others may be admitted and take that room.  So every refusal of a call is paid for:
by one of the rates, each of which refuses once in a row and then a longer one, or by an
item that another thread has had admitted meanwhile.  The leaker can come between a refused
put and the wait computed for it.
-/

import PyrateLimiter.BlockingRetry
import PyrateLimiter.RetryOrder

namespace PyrateLimiter

open Foundations.WindowLog
open Foundations.TransitionSystem
open InMemoryBucket

/-! ### Tallies -/

/-- The refused puts of a thread's call, and the items that other threads have had
admitted since the call began. -/
structure Tally where
  refusals : Nat
  others : Nat
  deriving DecidableEq, Repr

namespace Tally

def Paid (rates : RateList) (tally : Tally) : Prop :=
  tally.refusals ≤ rates.toList.length * (1 + tally.others)

/-- With a refusal to come for each rate that is longer than the given one. -/
def PaidWith (rates : RateList) (tally : Tally) (rate : Rate) : Prop :=
  tally.refusals + longerRates rates rate ≤ rates.toList.length * (1 + tally.others)

/-- Another item has been admitted since the last refusal. -/
def PaidAnew (rates : RateList) (tally : Tally) : Prop :=
  tally.refusals ≤ rates.toList.length * tally.others

def refused (tally : Tally) : Tally := { tally with refusals := tally.refusals + 1 }

def overtaken (tally : Tally) : Tally := { tally with others := tally.others + 1 }

variable {rates : RateList} {tally : Tally}

theorem paid_zero (others : Nat) : Tally.Paid rates { refusals := 0, others := others } :=
  Nat.zero_le _

theorem PaidWith.paid {rate : Rate} (paid : tally.PaidWith rates rate) : tally.Paid rates :=
  Nat.le_trans (Nat.le_add_right _ _) paid

theorem PaidAnew.paid (paid : tally.PaidAnew rates) : tally.Paid rates :=
  Nat.le_trans paid (Nat.mul_le_mul_left _ (Nat.le_add_left _ _))

theorem Paid.overtaken (paid : tally.Paid rates) : tally.overtaken.PaidAnew rates := by
  unfold PaidAnew Tally.overtaken
  rw [Nat.add_comm]
  exact paid

/-- A first refusal after another item leaves one for each longer rate. -/
theorem PaidAnew.refused (paid : tally.PaidAnew rates) {rate : Rate} (member : rate ∈ rates) :
    tally.refused.PaidWith rates rate := by
  have fewer := longerRates_lt member
  unfold PaidAnew at paid
  unfold PaidWith Tally.refused
  rw [Nat.mul_add]
  simp only []
  omega

theorem PaidWith.refused {rate later : Rate} (paid : tally.PaidWith rates rate)
    (member : later ∈ rates) (longer : rate.interval < later.interval) :
    tally.refused.PaidWith rates later := by
  have fewer := longerRates_decreases member longer
  unfold PaidWith at paid ⊢
  unfold Tally.refused
  simp only []
  omega

end Tally

/-! ### What a waiting call knows -/

/-- The given rate and all shorter ones have room. -/
def RoomUpTo (rates : RateList) (log : List Int) (stamp weight : Int) (rate : Rate) : Prop :=
  ∀ shorter, shorter ∈ rates → shorter.interval ≤ rate.interval →
    (countSince log (stamp - shorter.interval) : Int) + weight ≤ shorter.limit

theorem RoomUpTo.fewer {rates : RateList} {log kept : List Int} {stamp weight : Int} {rate : Rate}
    (room : RoomUpTo rates log stamp weight rate) (part : kept.Sublist log) :
    RoomUpTo rates kept stamp weight rate := by
  intro shorter member narrower
  have bound := room shorter member narrower
  have counted : countSince kept (stamp - shorter.interval) ≤
      countSince log (stamp - shorter.interval) := part.countP_le
  omega

theorem RoomUpTo.later {rates : RateList} {log : List Int} {stamp late weight : Int} {rate : Rate}
    (room : RoomUpTo rates log stamp weight rate) (ordered : stamp ≤ late) :
    RoomUpTo rates log late weight rate := by
  intro shorter member narrower
  have bound := room shorter member narrower
  have counted := countSince_antitone log
    (show stamp - shorter.interval ≤ late - shorter.interval by omega)
  omega

/-- A retry at the stamp has been paid for, or only rates longer than one can refuse it. -/
def Tally.Paces (rates : RateList) (log : List Int) (stamp weight : Int) (tally : Tally) : Prop :=
  tally.PaidAnew rates ∨
    ∃ rate, rate ∈ rates ∧ tally.PaidWith rates rate ∧ RoomUpTo rates log stamp weight rate

namespace Tally.Paces

variable {rates : RateList} {log : List Int} {stamp weight : Int} {tally : Tally}

theorem paid (paces : tally.Paces rates log stamp weight) : tally.Paid rates := by
  rcases paces with anew | ⟨rate, _member, paid, _room⟩
  · exact anew.paid
  · exact paid.paid

theorem fewer {kept : List Int} (paces : tally.Paces rates log stamp weight)
    (part : kept.Sublist log) : tally.Paces rates kept stamp weight := by
  rcases paces with anew | ⟨rate, member, paid, room⟩
  · exact Or.inl anew
  · exact Or.inr ⟨rate, member, paid, room.fewer part⟩

/-- The refusal of such a retry is by a rate that it is still paid for. -/
theorem refused (paces : tally.Paces rates log stamp weight) {rate : Rate}
    (refusing : rates.refusing log stamp weight = some rate) :
    tally.refused.PaidWith rates rate := by
  have member := RateList.refusing_mem refusing
  have full := (RateList.refusing_spec refusing).1
  rcases paces with anew | ⟨settled, _settledMember, paid, room⟩
  · exact anew.refused member
  · apply paid.refused member
    apply Int.not_le.mp
    intro narrower
    have bound := room rate member narrower
    omega

end Tally.Paces

/-- After a refusal: the rate that refused is the bucket's failing rate, the shorter ones
have room, and its window is full unless a leak has left less than would fill it. -/
structure Denied (rates : RateList) (bucket : InMemoryBucket) (item : RateItem) (tally : Tally)
    (rate : Rate) : Prop where
  member : rate ∈ rates
  failing : bucket.failingRate = some rate
  paid : tally.PaidWith rates rate
  shorter : ∀ shorter, shorter ∈ rates → shorter.interval < rate.interval →
    (countSince bucket.stamps (item.timestamp - shorter.interval) : Int) + item.weight ≤
      shorter.limit
  full : rate.limit < (countSince bucket.stamps (item.timestamp - rate.interval) : Int) +
      item.weight ∨ (bucket.items.length : Int) + item.weight ≤ rate.limit

def Phase.Advances (rates : RateList) (bucket : InMemoryBucket) (tally : Tally) : Phase → Prop
  | .entered _ | .stamped _ _ => tally.PaidAnew rates
  | .refused item => ∃ rate, Denied rates bucket item tally rate
  | .planned item waitMs =>
      waitMs = -1 ∧ rates.first.limit < item.weight ∧ tally.Paid rates ∨
      0 ≤ waitMs ∧ ∃ rate, rate ∈ rates ∧ tally.PaidWith rates rate ∧
        RoomUpTo rates bucket.stamps (item.timestamp + waitMs) item.weight rate
  | .sleeping item sleepMs _ =>
      tally.Paces rates bucket.stamps (item.timestamp + sleepMs) item.weight
  | .resumed item => tally.Paces rates bucket.stamps item.timestamp item.weight
  | .idle | .leaving _ | .finished _ => tally.Paid rates

/-! ### The wait of a denied call -/

namespace InMemoryBucket

/-- Where fewer units are left than leave room, there is nothing to wait for. -/
theorem waiting_of_few {bucket : InMemoryBucket} {item : RateItem} {rate : Rate}
    (failing : bucket.failingRate = some rate) (positive : 1 ≤ item.weight)
    (few : (bucket.items.length : Int) + item.weight ≤ rate.limit) :
    bucket.waiting item = .ok 0 := by
  have weighty : ¬item.weight ≤ 0 := by omega
  have light : ¬rate.limit < item.weight := by omega
  have started : bucket.waiting item =
      waitingFinish (some rate) item (bucket.peek (rate.limit - item.weight)) := by
    simp only [waiting, PyrateLimiter.waiting, waitingStart, failing, if_neg weighty,
      if_neg light]
    rfl
  rw [started, peek_eq (by omega), if_neg (by omega)]
  rfl

end InMemoryBucket

namespace Denied

variable {rates : RateList} {bucket : InMemoryBucket} {item : RateItem} {tally : Tally}
  {rate : Rate}

theorem of_refusing (refusing : rates.refusing bucket.stamps item.timestamp item.weight =
      some rate) (paid : tally.PaidWith rates rate) :
    Denied rates { bucket with failingRate := some rate } item tally rate := by
  obtain ⟨full, shorter⟩ := RateList.refusing_spec refusing
  exact ⟨RateList.refusing_mem refusing, rfl, paid, shorter, Or.inl full⟩

/-- A leak takes the oldest units: either the window is still full, or all that is left
does not fill it. -/
theorem leak (denied : Denied rates bucket item tally rate) (sorted : bucket.Sorted)
    (now : Int) : Denied rates (bucket.leak now).2 item tally rate := by
  obtain ⟨forgotten, split, _below⟩ := leak_splits sorted now
  have part : (bucket.leak now).2.stamps.Sublist bucket.stamps := by
    rw [split]
    exact List.sublist_append_right _ _
  have lengths : ∀ other : InMemoryBucket, other.items.length = other.stamps.length :=
    fun other => (List.length_map _).symm
  refine ⟨denied.member, ?_, denied.paid, ?_, ?_⟩
  · rw [leak_eq sorted]
    exact denied.failing
  · intro shorter member narrower
    have bound := denied.shorter shorter member narrower
    have counted : countSince (bucket.leak now).2.stamps (item.timestamp - shorter.interval) ≤
        countSince bucket.stamps (item.timestamp - shorter.interval) := part.countP_le
    omega
  · rcases denied.full with full | few
    · rw [split, countSince_append] at full
      by_cases old : ∀ stamp, stamp ∈ forgotten → stamp < item.timestamp - rate.interval
      · rw [countSince_eq_zero old] at full
        exact Or.inl (by omega)
      · -- A forgotten unit of the window is older than all that are left.
        push Not at old
        obtain ⟨stamp, member, inside⟩ := old
        have ordered := sorted
        unfold Sorted at ordered
        rw [split] at ordered
        have whole : countSince (bucket.leak now).2.stamps (item.timestamp - rate.interval) =
            (bucket.leak now).2.stamps.length := by
          apply List.countP_eq_length.mpr
          intro later kept
          have newer := (List.pairwise_append.mp ordered).2.2 stamp member later kept
          exact decide_eq_true (Int.le_trans inside newer)
        have same := lengths (bucket.leak now).2
        rw [whole, same]
        omega
    · have fewer := part.length_le
      rw [← lengths, ← lengths] at fewer
      exact Or.inr (by omega)

/-- The wait computed for a denied call is enough for the refusing rate, which alone can
make it the answer for what never fits. -/
theorem answered (denied : Denied rates bucket item tally rate) (sorted : bucket.Sorted)
    (positive : 1 ≤ item.weight) :
    ∃ waitMs, bucket.waiting item = .ok waitMs ∧
      (Phase.planned item waitMs).Advances rates bucket tally := by
  by_cases heavy : rate.limit < item.weight
  · have smallest := rates.first_limit_le rate denied.member
    exact ⟨-1, waiting_of_heavy denied.failing positive heavy,
      Or.inl ⟨rfl, by omega, denied.paid.paid⟩⟩
  · obtain ⟨waitMs, answered, least⟩ :=
      waiting_spec sorted item denied.failing positive (Int.not_lt.mp heavy)
    have nonneg : 0 ≤ waitMs := by
      rcases denied.full with full | few
      · have atOnce := least 0 (Int.le_refl 0)
        rw [Int.add_zero] at atOnce
        omega
      · rw [waiting_of_few denied.failing positive few] at answered
        cases answered
        exact Int.le_refl 0
    refine ⟨waitMs, answered, Or.inr ⟨nonneg, rate, denied.member, denied.paid, ?_⟩⟩
    intro shorter member narrower
    rcases Int.lt_or_eq_of_le narrower with below | same
    · have bound := denied.shorter shorter member below
      have counted := countSince_antitone bucket.stamps
        (show item.timestamp - shorter.interval ≤ item.timestamp + waitMs - shorter.interval by
          omega)
      omega
    · rw [RateList.eq_of_interval_eq member denied.member same]
      exact (least waitMs nonneg).mpr (Int.le_refl _)

end Denied

/-! ### Tallies in a run -/

instance System.FreshRetry.decidable {Thread : Type} (system : System Thread) :
    ∀ action, Decidable (system.FreshRetry action)
  | .put thread =>
      match current : system.phase thread with
      | .resumed item =>
          decidable_of_iff
            (Room system.bucket.rates.windows system.bucket.stamps item.timestamp item.weight →
              ∀ stamp, stamp ∈ system.bucket.stamps → stamp ≤ item.timestamp)
            ⟨fun fresh _other same => by rw [current] at same; cases same; exact fresh,
              fun fresh => fresh item current⟩
      | .idle | .entered _ | .stamped _ _ | .refused _ | .planned _ _ | .leaving _
      | .sleeping _ _ _ | .finished _ =>
          .isTrue (fun _item same => by rw [current] at same; cases same)
  | .tick _ | .acquireLock _ _ | .failLock _ | .wrapItem _ | .computeWait _ | .releaseLock _
  | .resume _ | .timeOut _ | .leakerNow | .leakerLeak => .isTrue trivial

/-- The system of threads with a tally for each thread's current call. -/
structure Progress (Thread : Type) where
  system : System Thread
  tally : Thread → Tally

namespace Progress

variable {Thread : Type}

def start (rates : RateList) (clock : Int) : Progress Thread :=
  { system := System.start rates clock
    tally := fun _ => { refusals := 0, others := 0 } }

/-- Every call has been refused at most once for each rate before the first item of
another thread, and as often again for each such item. -/
def RefusalsPaid (rates : RateList) (progress : Progress Thread) : Prop :=
  ∀ thread, (progress.tally thread).Paid rates

def FreshRetry (progress : Progress Thread) (action : Action Thread) : Prop :=
  progress.system.FreshRetry action

instance (progress : Progress Thread) (action : Action Thread) :
    Decidable (progress.FreshRetry action) :=
  inferInstanceAs (Decidable (progress.system.FreshRetry action))

/-- The tallies are right for the phases that their threads are in. -/
structure RetriesAdvance (rates : RateList) (progress : Progress Thread) : Prop where
  records : progress.system.RetryInvariant rates
  advances : ∀ thread, (progress.system.phase thread).Advances rates progress.system.bucket
    (progress.tally thread)

variable [DecidableEq Thread]

/-- A call is opened when it asks for the lock.  An admitted put overtakes the calls of all
other threads, a refused one counts for its own. -/
def charge (progress : Progress Thread) : Action Thread → Thread → Tally
  | .acquireLock thread _ | .failLock thread =>
      Function.update progress.tally thread { refusals := 0, others := 0 }
  | .put thread =>
      match (progress.system.phase thread).pending with
      | some (item, _) =>
          if (progress.system.bucket.put item).1 then
            Function.update (fun other => (progress.tally other).overtaken) thread
              (progress.tally thread)
          else Function.update progress.tally thread (progress.tally thread).refused
      | none => progress.tally
  | _ => progress.tally

def step (bufferMs : Nat) (progress : Progress Thread) (action : Action Thread) :
    Option (Progress Thread) :=
  match progress.system.step bufferMs action with
  | none => none
  | some system => some { system := system, tally := progress.charge action }

theorem step_eq {bufferMs : Nat} {before after : Progress Thread} {action : Action Thread}
    (taken : before.step bufferMs action = some after) :
    before.system.step bufferMs action = some after.system ∧
      after.tally = before.charge action := by
  unfold step at taken
  cases moved : before.system.step bufferMs action with
  | none =>
      rw [moved] at taken
      cases taken
  | some system =>
      rw [moved] at taken
      cases taken
      exact ⟨rfl, rfl⟩

end Progress

namespace Phase

variable {rates : RateList} {bucket : InMemoryBucket} {tally : Tally} {phase : Phase}

theorem Advances.paid (advances : phase.Advances rates bucket tally) : tally.Paid rates := by
  cases phase with
  | entered request => exact Tally.PaidAnew.paid advances
  | stamped item blocking => exact Tally.PaidAnew.paid advances
  | refused item =>
      obtain ⟨rate, denied⟩ := advances
      exact denied.paid.paid
  | planned item waitMs =>
      rcases advances with ⟨_never, _heavy, paid⟩ | ⟨_nonneg, rate, _member, paid, _room⟩
      · exact paid
      · exact paid.paid
  | sleeping item sleepMs wakeAt => exact Tally.Paces.paid advances
  | resumed item => exact Tally.Paces.paid advances
  | idle => exact advances
  | leaving verdict => exact advances
  | finished verdict => exact advances

theorem Advances.overtaken {grown : InMemoryBucket} (advances : phase.Advances rates bucket tally)
    (outside : phase.holds = false) : phase.Advances rates grown tally.overtaken := by
  have anew := advances.paid.overtaken
  cases phase with
  | idle => exact anew.paid
  | sleeping item sleepMs wakeAt => exact Or.inl anew
  | finished verdict => exact anew.paid
  | _ => cases outside

theorem Advances.leak (advances : phase.Advances rates bucket tally) (sorted : bucket.Sorted)
    (now : Int) : phase.Advances rates (bucket.leak now).2 tally := by
  obtain ⟨forgotten, split, _below⟩ := leak_splits sorted now
  have part : (bucket.leak now).2.stamps.Sublist bucket.stamps := by
    rw [split]
    exact List.sublist_append_right _ _
  cases phase with
  | refused item =>
      obtain ⟨rate, denied⟩ := advances
      exact ⟨rate, denied.leak sorted now⟩
  | planned item waitMs =>
      rcases advances with never | ⟨nonneg, rate, member, paid, room⟩
      · exact Or.inl never
      · exact Or.inr ⟨nonneg, rate, member, paid, room.fewer part⟩
  | sleeping item sleepMs wakeAt => exact Tally.Paces.fewer advances part
  | resumed item => exact Tally.Paces.fewer advances part
  | _ => exact advances

theorem advances_enter (request : Request) (now : Int) (anew : tally.PaidAnew rates) :
    (request.enter now).Advances rates bucket tally := by
  unfold Request.enter
  split
  · exact anew.paid
  · split
    · exact anew.paid
    · exact anew

theorem advances_afterPlanning {item : RateItem} {waitMs : Int} (bufferMs : Nat) (clock : Int)
    (advances : (Phase.planned item waitMs).Advances rates bucket tally) :
    (Phase.afterPlanning bufferMs clock item waitMs).Advances rates bucket tally := by
  have paid := advances.paid
  rcases advances with ⟨never, _heavy, _paid⟩ | ⟨nonneg, rate, member, settled, room⟩
  · rw [never]
    exact paid
  · unfold Phase.afterPlanning
    rw [delayToSleepMs_of_nonneg bufferMs nonneg]
    exact Or.inr ⟨rate, member, settled, room.later (by omega)⟩

/-- A refused put is charged to the rate that refuses it. -/
theorem Advances.refused {item : RateItem} {blocking : Bool} {rate : Rate}
    (advances : phase.Advances rates bucket tally)
    (current : phase.pending = some (item, blocking))
    (refusing : rates.refusing bucket.stamps item.timestamp item.weight = some rate) :
    tally.refused.PaidWith rates rate := by
  cases phase with
  | stamped stamped first =>
      cases current
      exact Tally.PaidAnew.refused advances (RateList.refusing_mem refusing)
  | resumed resumed =>
      cases current
      exact Tally.Paces.refused advances refusing
  | _ => cases current

end Phase

namespace Progress.RetriesAdvance

variable {Thread : Type} {rates : RateList}

theorem start (clock : Int) :
    RetriesAdvance rates (Progress.start rates clock : Progress Thread) where
  records := System.RetryInvariant.start clock
  advances := fun _thread => Tally.paid_zero 0

theorem refusalsPaid {progress : Progress Thread} (holds : progress.RetriesAdvance rates) :
    progress.RefusalsPaid rates :=
  fun thread => (holds.advances thread).paid

variable [DecidableEq Thread] {before after : Progress Thread}

/-- A step that leaves the bucket and the tallies of all other threads alone. -/
theorem moved (holds : before.RetriesAdvance rates) {thread : Thread} {phase : Phase}
    {tally : Tally} (records : after.system.RetryInvariant rates)
    (sameBucket : after.system.bucket = before.system.bucket)
    (updated : after.system.phase = Function.update before.system.phase thread phase)
    (charged : after.tally = Function.update before.tally thread tally)
    (advances : phase.Advances rates before.system.bucket tally) :
    after.RetriesAdvance rates where
  records := records
  advances := by
    intro other
    rw [sameBucket, updated, charged]
    by_cases same : other = thread
    · subst same
      simp only [Function.update_self]
      exact advances
    · simp only [Function.update_of_ne same]
      exact holds.advances other

/-- Such a step without a charge. -/
theorem kept (holds : before.RetriesAdvance rates) {thread : Thread} {phase : Phase}
    (records : after.system.RetryInvariant rates)
    (sameBucket : after.system.bucket = before.system.bucket)
    (updated : after.system.phase = Function.update before.system.phase thread phase)
    (charged : after.tally = before.tally)
    (advances : phase.Advances rates before.system.bucket (before.tally thread)) :
    after.RetriesAdvance rates :=
  holds.moved records sameBucket updated
    (charged.trans (Function.update_eq_self thread before.tally).symm) advances

/-- An admitted put ends its call's waiting and overtakes all other calls. -/
theorem admitted (holds : before.RetriesAdvance rates) {thread : Thread} {verdict : Verdict}
    (inside : (before.system.phase thread).holds = true)
    (records : after.system.RetryInvariant rates)
    (updated : after.system.phase =
      Function.update before.system.phase thread (.leaving verdict))
    (charged : after.tally = Function.update (fun other => (before.tally other).overtaken) thread
      (before.tally thread)) :
    after.RetriesAdvance rates where
  records := records
  advances := by
    intro other
    rw [updated, charged]
    by_cases same : other = thread
    · subst same
      simp only [Function.update_self]
      exact (holds.advances other).paid
    · simp only [Function.update_of_ne same]
      exact (holds.advances other).overtaken
        (holds.records.exclusive.outside inside same)

/-- A refused put of a blocking call leaves its waiting charged to the rate that refused. -/
theorem refused (holds : before.RetriesAdvance rates) {thread : Thread} {item : RateItem}
    {blocking : Bool} {rate : Rate}
    (current : (before.system.phase thread).pending = some (item, blocking))
    (refusing : rates.refusing before.system.bucket.stamps item.timestamp item.weight = some rate)
    (records : after.system.RetryInvariant rates)
    (bucket : after.system.bucket = { before.system.bucket with failingRate := some rate })
    (updated : after.system.phase =
      Function.update before.system.phase thread (Phase.afterPut item false blocking))
    (charged : after.tally =
      Function.update before.tally thread (before.tally thread).refused) :
    after.RetriesAdvance rates where
  records := records
  advances := by
    intro other
    have paid := (holds.advances thread).refused current refusing
    rw [bucket, updated, charged]
    by_cases same : other = thread
    · subst same
      simp only [Function.update_self, Phase.afterPut, Bool.false_eq_true, if_false]
      split
      · exact ⟨rate, Denied.of_refusing refusing paid⟩
      · exact paid.paid
    · simp only [Function.update_of_ne same]
      have outside := holds.records.exclusive.outside (Phase.holds_of_pending current) same
      have known := holds.advances other
      cases phase : before.system.phase other with
      | idle => rw [phase] at known; exact known
      | sleeping item sleepMs wakeAt => rw [phase] at known; exact known
      | finished verdict => rw [phase] at known; exact known
      | _ => rw [phase] at outside; cases outside

theorem step {bufferMs : Nat} {action : Action Thread} (holds : before.RetriesAdvance rates)
    (fresh : before.FreshRetry action) (taken : before.step bufferMs action = some after) :
    after.RetriesAdvance rates := by
  obtain ⟨moved, charged⟩ := step_eq taken
  have records := holds.records.step fresh moved
  have sorted := holds.records.sorted
  have known := holds.advances
  obtain ⟨system, tally⟩ := after
  subst charged
  cases System.step_cases moved with
  | tick now later => exact { records := records, advances := known }
  | acquireLock thread request outside free =>
      exact holds.moved records rfl rfl rfl (Nat.zero_le _)
  | failLock thread outside => exact holds.moved records rfl rfl rfl (Tally.paid_zero 0)
  | wrapItem thread request current =>
      have here := known thread
      rw [current] at here
      exact holds.kept records rfl rfl rfl (Phase.advances_enter request _ here)
  | put thread item blocking current =>
      obtain ⟨positive, _past⟩ := (holds.records.sound thread).pending current
      have sameRates := holds.records.rates_eq
      rcases InMemoryBucket.put_cases sorted item positive with
        ⟨room, outcome⟩ | ⟨rate, refusing, outcome⟩
      · have updated : Phase.afterPut item (before.system.bucket.put item).1 blocking =
            .leaving (.returned true) := by
          rw [outcome]
          rfl
        refine holds.admitted (Phase.holds_of_pending current) records
          (congrArg (Function.update before.system.phase thread) updated) ?_
        simp only [charge, current, outcome, if_true]
      · rw [sameRates] at refusing
        refine holds.refused current refusing records ?_ ?_ ?_
        · simp only [outcome]
        · simp only [outcome]
          rfl
        · simp only [charge, current, outcome, Bool.false_eq_true, if_false]
  | computeWait thread item current =>
      have here := known thread
      have weighty := holds.records.sound thread
      rw [current] at here weighty
      obtain ⟨rate, denied⟩ := here
      obtain ⟨waitMs, answered, advances⟩ := denied.answered sorted weighty.1
      refine holds.kept records rfl rfl rfl ?_
      rw [answered]
      exact advances
  | leave thread verdict current =>
      exact holds.kept records rfl rfl rfl (known thread).paid
  | plan thread item waitMs current =>
      have here := known thread
      rw [current] at here
      exact holds.kept records rfl rfl rfl (Phase.advances_afterPlanning bufferMs _ here)
  | resume thread item sleepMs wakeAt current free awake =>
      have here := known thread
      rw [current] at here
      exact holds.kept records rfl rfl rfl here
  | timeOut thread outside =>
      exact holds.kept records rfl rfl rfl (known thread).paid
  | leakerNow => exact { records := records, advances := known }
  | leakerLeak now reading =>
      exact { records := records, advances := fun thread => (known thread).leak sorted now }

end Progress.RetriesAdvance

/-- Threads that retry blocking acquires cannot keep each other waiting without progress: as
long as no retry comes after a later recorded stamp, a call is refused at most once for each
rate before the first item that another thread has admitted meanwhile, and at most as often
again for each such item, whatever the leaker does. -/
theorem refusals_paid {Thread : Type} [DecidableEq Thread] (bufferMs : Nat) (rates : RateList)
    (clock : Int) (actions : List (Action Thread))
    (fresh : StepsMeet (Progress.step bufferMs) Progress.FreshRetry
      (Progress.start rates clock) actions) :
    Always (Progress.step bufferMs) (Progress.RefusalsPaid rates)
      (Progress.start rates clock) actions :=
  (Always.of_invariant
    (fun _before _action _after holds met taken =>
      Progress.RetriesAdvance.step holds met taken)
    (Progress.RetriesAdvance.start clock) fresh).imp
    (fun _progress holds => holds.refusalsPaid)

/-- The second caller is refused at 0 by the shorter rate, with a leak before its wait is
computed.  When it wakes at 101 the third caller has taken the last unit of the longer rate. -/
def overtakenRetry : List (Action ℕ) :=
  [.acquireLock 0 ⟨"first", 2, true⟩, .wrapItem 0, .put 0, .releaseLock 0, .leakerNow,
    .acquireLock 1 ⟨"second", 1, true⟩, .wrapItem 1, .put 1, .leakerLeak, .computeWait 1,
    .releaseLock 1,
    .tick 101,
    .acquireLock 2 ⟨"third", 1, true⟩, .wrapItem 2, .put 2, .releaseLock 2,
    .resume 1, .put 1, .computeWait 1, .releaseLock 1,
    .tick 1001,
    .resume 1, .put 1, .releaseLock 1]

theorem refusals_paid_overtaken :
    (exec (Progress.step 0) (Progress.start twoIn100ThreeIn1000 0) overtakenRetry).map
        (fun final => final.tally 1) = some { refusals := 2, others := 1 } ∧
      Always (Progress.step 0) (Progress.RefusalsPaid twoIn100ThreeIn1000)
        (Progress.start twoIn100ThreeIn1000 0) overtakenRetry :=
  ⟨by decide, refusals_paid 0 twoIn100ThreeIn1000 0 overtakenRetry (by decide)⟩

end PyrateLimiter

/-
The asyncio lock in front of the limiter, on one thread.

The thread remembers one lock, together with the event loop it was made for.  A
call under another loop makes a new lock and forgets the old one, so that a
later call under the first loop makes a second lock for it.  As long as no call
of a loop is suspended at its lock when that happens, each loop has one lock.
-/

import Mathlib.Data.Fintype.Basic
import PyrateLimiter.Foundations.FairLocks
import PyrateLimiter.Foundations.TransitionSystem

namespace PyrateLimiter

open Foundations.FairLocks Foundations.TransitionSystem

/-- The running loop, what `_thread_local` holds, and the asyncio locks made so far. -/
structure LoopThread (Coroutine Loop : Type) where
  running : Option Loop
  asyncLock : Option (Nat × Loop)
  made : Nat
  locks : Locks Coroutine Nat

/-- The coroutines are those of `try_acquire_async` that have a weight. -/
inductive LoopAction (Coroutine Loop : Type) where
  | runLoop (loop : Loop)
  | enter (coroutine : Coroutine)
  | resume (coroutine : Coroutine)
  | leave (coroutine : Coroutine)
  | cancel (coroutine : Coroutine)

namespace LoopThread

variable {Coroutine Loop : Type}

def start : LoopThread Coroutine Loop :=
  { running := none
    asyncLock := none
    made := 0
    locks := .initial }

def makeLock (thread : LoopThread Coroutine Loop) (loop : Loop) :
    Nat × LoopThread Coroutine Loop :=
  (thread.made,
    { thread with
      asyncLock := some (thread.made, loop)
      made := thread.made + 1 })

section Steps

variable [DecidableEq Coroutine] [DecidableEq Loop]

/-- `_get_async_lock` under the running loop. -/
def getAsyncLock (thread : LoopThread Coroutine Loop) (loop : Loop) :
    Nat × LoopThread Coroutine Loop :=
  match thread.asyncLock with
  | some (lock, lockLoop) => if lockLoop = loop then (lock, thread) else thread.makeLock loop
  | none => thread.makeLock loop

variable (loopOf : Coroutine → Loop)

/-- A coroutine advances only while its own loop runs. -/
def step (thread : LoopThread Coroutine Loop) :
    LoopAction Coroutine Loop → Option (LoopThread Coroutine Loop)
  | .runLoop loop => some { thread with running := some loop }
  | .enter coroutine =>
      if thread.running = some (loopOf coroutine) ∧ thread.locks.place coroutine = .outside then
        let (lock, thread) := thread.getAsyncLock (loopOf coroutine)
        some { thread with locks := thread.locks.acquire lock coroutine }
      else none
  | .resume coroutine =>
      if thread.running = some (loopOf coroutine) then
        (thread.locks.resume coroutine).map (fun locks => { thread with locks := locks })
      else none
  | .leave coroutine =>
      if thread.running = some (loopOf coroutine) then
        (thread.locks.release coroutine).map (fun locks => { thread with locks := locks })
      else none
  | .cancel coroutine =>
      if thread.running = some (loopOf coroutine) then
        (thread.locks.cancel coroutine).map (fun locks => { thread with locks := locks })
      else none

end Steps

/-- No two coroutines of a loop are inside `async with lock`. -/
def Exclusive (loopOf : Coroutine → Loop) (thread : LoopThread Coroutine Loop) : Prop :=
  ∀ first second, (thread.locks.place first).isInside = true →
    (thread.locks.place second).isInside = true → loopOf first = loopOf second → first = second

/-- The remembered lock is that of the loop, or no coroutine of the loop is at a lock. -/
def Remembers (loopOf : Coroutine → Loop) (thread : LoopThread Coroutine Loop) (loop : Loop) :
    Prop :=
  thread.asyncLock.map Prod.snd = some loop ∨
    ∀ coroutine, loopOf coroutine = loop → thread.locks.place coroutine = .outside

def EntersRemembered (loopOf : Coroutine → Loop) (thread : LoopThread Coroutine Loop) :
    LoopAction Coroutine Loop → Prop
  | .enter coroutine => thread.Remembers loopOf (loopOf coroutine)
  | .runLoop _ | .resume _ | .leave _ | .cancel _ => True

instance EntersRemembered.decidable [Fintype Coroutine] [DecidableEq Loop]
    (loopOf : Coroutine → Loop) (thread : LoopThread Coroutine Loop) :
    ∀ action, Decidable (thread.EntersRemembered loopOf action)
  | .enter coroutine =>
      inferInstanceAs (Decidable (thread.asyncLock.map Prod.snd = some (loopOf coroutine) ∨
        ∀ other, loopOf other = loopOf coroutine → thread.locks.place other = .outside))
  | .runLoop _ | .resume _ | .leave _ | .cancel _ => .isTrue trivial

theorem getAsyncLock_cases [DecidableEq Loop] (thread : LoopThread Coroutine Loop) (loop : Loop) :
    (∃ lock, thread.asyncLock = some (lock, loop) ∧ thread.getAsyncLock loop = (lock, thread)) ∨
      (thread.asyncLock.map Prod.snd ≠ some loop ∧
        thread.getAsyncLock loop = thread.makeLock loop) := by
  unfold getAsyncLock
  cases cached : thread.asyncLock with
  | none => exact Or.inr ⟨Option.some_ne_none loop ∘ Eq.symm, rfl⟩
  | some entry =>
      obtain ⟨lock, lockLoop⟩ := entry
      by_cases same : lockLoop = loop
      · subst same
        exact Or.inl ⟨lock, rfl, if_pos rfl⟩
      · exact Or.inr ⟨fun equal => same (Option.some.inj equal), if_neg same⟩

/-! ### One lock for each loop -/

/-- The coroutines at locks use one lock for each loop, and the remembered one for its loop. -/
structure OneLockPerLoop (loopOf : Coroutine → Loop) (thread : LoopThread Coroutine Loop) :
    Prop where
  consistent : thread.locks.Consistent
  unmade : ∀ lock, thread.made ≤ lock →
    thread.locks.lock lock = { locked := false, waiters := [] }
  remembered : ∀ lock loop, thread.asyncLock = some (lock, loop) → lock < thread.made
  paired : ∀ first second firstLock secondLock,
    (thread.locks.place first).lock? = some firstLock →
    (thread.locks.place second).lock? = some secondLock →
    (loopOf first = loopOf second ↔ firstLock = secondLock)
  current : ∀ lock loop, thread.asyncLock = some (lock, loop) → ∀ coroutine other,
    (thread.locks.place coroutine).lock? = some other → (loopOf coroutine = loop ↔ other = lock)

namespace OneLockPerLoop

variable {loopOf : Coroutine → Loop} {thread : LoopThread Coroutine Loop}

theorem start : OneLockPerLoop loopOf (start : LoopThread Coroutine Loop) where
  consistent := .initial
  unmade := fun _lock _unmade => rfl
  remembered := fun _lock _loop impossible => by cases impossible
  paired := fun _first _second _firstLock _secondLock impossible => by cases impossible
  current := fun _lock _loop impossible => by cases impossible

theorem exclusive (one : OneLockPerLoop loopOf thread) : thread.Exclusive loopOf := by
  intro first second firstInside secondInside sameLoop
  obtain ⟨firstLock, firstPlace⟩ := Place.isInside_iff.mp firstInside
  obtain ⟨secondLock, secondPlace⟩ := Place.isInside_iff.mp secondInside
  have sameLock : firstLock = secondLock :=
    (one.paired first second firstLock secondLock (by rw [firstPlace]; rfl)
      (by rw [secondPlace]; rfl)).mp sameLoop
  rw [← sameLock] at secondPlace
  exact (one.consistent firstLock).alone first second firstPlace secondPlace

/-- A lock that some coroutine is at has been made. -/
theorem made_of_lock (one : OneLockPerLoop loopOf thread) {coroutine : Coroutine} {lock : Nat}
    (located : (thread.locks.place coroutine).lock? = some lock) : lock < thread.made := by
  by_contra late
  have unused := one.unmade lock (Nat.le_of_not_lt late)
  have consistent := one.consistent lock
  rw [unused] at consistent
  cases place : thread.locks.place coroutine with
  | outside =>
      rw [place] at located
      cases located
  | waiting other =>
      rw [place] at located
      cases located
      exact List.not_mem_nil ((consistent.queue coroutine).mpr place)
  | inside other =>
      rw [place] at located
      cases located
      exact consistent.free rfl coroutine place

variable [DecidableEq Coroutine]

/-- A coroutine moves at the lock of its loop, or goes out. -/
theorem set (one : OneLockPerLoop loopOf thread) {lock : Nat} {current : FairLock Coroutine}
    {coroutine : Coroutine} {place : Place Nat}
    (consistent : (thread.locks.set lock current coroutine place).Consistent)
    (made : lock < thread.made)
    (pairs : ∀ target, place.lock? = some target → ∀ other otherLock,
      (thread.locks.place other).lock? = some otherLock →
        (loopOf coroutine = loopOf other ↔ target = otherLock))
    (fits : ∀ target, place.lock? = some target → ∀ cached loop,
      thread.asyncLock = some (cached, loop) → (loopOf coroutine = loop ↔ target = cached)) :
    OneLockPerLoop loopOf
      { thread with locks := thread.locks.set lock current coroutine place } where
  consistent := consistent
  unmade := by
    intro other unmade
    have different : other ≠ lock := by
      change thread.made ≤ other at unmade
      omega
    change Function.update thread.locks.lock lock current other = _
    rw [Function.update_of_ne different]
    exact one.unmade other unmade
  remembered := one.remembered
  paired := by
    intro first second firstLock secondLock firstAt secondAt
    change (Function.update thread.locks.place coroutine place first).lock? = _ at firstAt
    change (Function.update thread.locks.place coroutine place second).lock? = _ at secondAt
    by_cases firstMoved : first = coroutine <;> by_cases secondMoved : second = coroutine
    · subst firstMoved
      subst secondMoved
      rw [firstAt] at secondAt
      exact iff_of_true rfl (Option.some.inj secondAt)
    · subst firstMoved
      rw [Function.update_self] at firstAt
      rw [Function.update_of_ne secondMoved] at secondAt
      exact pairs firstLock firstAt second secondLock secondAt
    · subst secondMoved
      rw [Function.update_of_ne firstMoved] at firstAt
      rw [Function.update_self] at secondAt
      rw [eq_comm, pairs secondLock secondAt first firstLock firstAt, eq_comm]
    · rw [Function.update_of_ne firstMoved] at firstAt
      rw [Function.update_of_ne secondMoved] at secondAt
      exact one.paired first second firstLock secondLock firstAt secondAt
  current := by
    intro cached loop remembered other otherLock otherAt
    change (Function.update thread.locks.place coroutine place other).lock? = _ at otherAt
    by_cases moved : other = coroutine
    · subst moved
      rw [Function.update_self] at otherAt
      exact fits otherLock otherAt cached loop remembered
    · rw [Function.update_of_ne moved] at otherAt
      exact one.current cached loop remembered other otherLock otherAt

/-- A coroutine stays at its lock. -/
theorem stay (one : OneLockPerLoop loopOf thread) {lock : Nat} {current : FairLock Coroutine}
    {coroutine : Coroutine} {place : Place Nat}
    (consistent : (thread.locks.set lock current coroutine place).Consistent)
    (before : (thread.locks.place coroutine).lock? = some lock)
    (after : place.lock? = some lock) :
    OneLockPerLoop loopOf
      { thread with locks := thread.locks.set lock current coroutine place } := by
  refine one.set consistent (one.made_of_lock before) ?_ ?_
  · intro target located other otherLock otherAt
    rw [after] at located
    cases located
    exact one.paired coroutine other lock otherLock before otherAt
  · intro target located cached loop remembered
    rw [after] at located
    cases located
    exact one.current cached loop remembered coroutine lock before

theorem goOut (one : OneLockPerLoop loopOf thread) {lock : Nat} {current : FairLock Coroutine}
    {coroutine : Coroutine}
    (consistent : (thread.locks.set lock current coroutine .outside).Consistent)
    (before : (thread.locks.place coroutine).lock? = some lock) :
    OneLockPerLoop loopOf
      { thread with locks := thread.locks.set lock current coroutine .outside } :=
  one.set consistent (one.made_of_lock before)
    (fun _target impossible => by cases impossible)
    (fun _target impossible => by cases impossible)

/-- A coroutine of the remembered loop comes to the remembered lock. -/
theorem join (one : OneLockPerLoop loopOf thread) {lock : Nat} {coroutine : Coroutine}
    (remembered : thread.asyncLock = some (lock, loopOf coroutine))
    {current : FairLock Coroutine} {place : Place Nat}
    (consistent : (thread.locks.set lock current coroutine place).Consistent)
    (after : place.lock? = some lock) :
    OneLockPerLoop loopOf
      { thread with locks := thread.locks.set lock current coroutine place } := by
  refine one.set consistent (one.remembered lock _ remembered) ?_ ?_
  · intro target located other otherLock otherAt
    rw [after] at located
    cases located
    rw [eq_comm, one.current lock _ remembered other otherLock otherAt, eq_comm]
  · intro target located cached loop cachedHere
    rw [after] at located
    cases located
    rw [remembered] at cachedHere
    cases cachedHere
    exact iff_of_true rfl rfl

theorem acquire (one : OneLockPerLoop loopOf thread) {lock : Nat} {coroutine : Coroutine}
    (remembered : thread.asyncLock = some (lock, loopOf coroutine))
    (outside : thread.locks.place coroutine = .outside) :
    OneLockPerLoop loopOf { thread with locks := thread.locks.acquire lock coroutine } := by
  have consistent := one.consistent.acquire outside lock
  rcases thread.locks.acquire_cases lock coroutine with ⟨_free, _unawaited, granted⟩ | queued
  · rw [granted] at consistent ⊢
    exact one.join remembered consistent rfl
  · rw [queued] at consistent ⊢
    exact one.join remembered consistent rfl

variable [DecidableEq Loop]

omit [DecidableEq Coroutine] in
/-- `_get_async_lock`, when the lock of the loop is remembered or not in use. -/
theorem getAsyncLock (one : OneLockPerLoop loopOf thread) {loop : Loop}
    (remembers : thread.Remembers loopOf loop) :
    OneLockPerLoop loopOf (thread.getAsyncLock loop).2 ∧
      (thread.getAsyncLock loop).2.asyncLock = some ((thread.getAsyncLock loop).1, loop) ∧
      (thread.getAsyncLock loop).2.locks = thread.locks := by
  rcases getAsyncLock_cases thread loop with ⟨lock, cached, same⟩ | ⟨forgotten, made⟩
  · rw [same]
    exact ⟨one, cached, rfl⟩
  · rw [made]
    have idle := remembers.resolve_left forgotten
    refine ⟨⟨one.consistent, ?_, ?_, one.paired, ?_⟩, rfl, rfl⟩
    · intro lock unmade
      exact one.unmade lock (Nat.le_of_succ_le unmade)
    · rintro _lock _loop ⟨⟩
      exact Nat.lt_succ_self thread.made
    · rintro _lock _loop ⟨⟩ coroutine other otherAt
      refine iff_of_false ?_ (Nat.ne_of_lt (one.made_of_lock otherAt))
      intro own
      change (thread.locks.place coroutine).lock? = some other at otherAt
      rw [idle coroutine own] at otherAt
      cases otherAt

/-- One step. -/
theorem step {action : LoopAction Coroutine Loop} {after : LoopThread Coroutine Loop}
    (one : OneLockPerLoop loopOf thread) (remembered : thread.EntersRemembered loopOf action)
    (taken : thread.step loopOf action = some after) : OneLockPerLoop loopOf after := by
  cases action with
  | runLoop loop =>
      cases taken
      exact ⟨one.consistent, one.unmade, one.remembered, one.paired, one.current⟩
  | enter coroutine =>
      simp only [LoopThread.step] at taken
      split at taken
      · rename_i ready
        cases taken
        obtain ⟨stillOne, cached, sameLocks⟩ := one.getAsyncLock remembered
        exact stillOne.acquire cached (by rw [sameLocks]; exact ready.2)
      · cases taken
  | resume coroutine =>
      simp only [LoopThread.step] at taken
      split at taken
      · obtain ⟨locks, resumed, rfl⟩ := Option.map_eq_some_iff.mp taken
        have consistent := one.consistent.resume resumed
        obtain ⟨lock, rest, waits, _free, _queue, rfl⟩ := Locks.resume_cases resumed
        exact one.stay consistent (by rw [waits]; rfl) rfl
      · cases taken
  | leave coroutine =>
      simp only [LoopThread.step] at taken
      split at taken
      · obtain ⟨locks, released, rfl⟩ := Option.map_eq_some_iff.mp taken
        have consistent := one.consistent.release released
        obtain ⟨lock, entered, rfl⟩ := Locks.release_cases released
        exact one.goOut consistent (by rw [entered]; rfl)
      · cases taken
  | cancel coroutine =>
      simp only [LoopThread.step] at taken
      split at taken
      · obtain ⟨locks, cancelled, rfl⟩ := Option.map_eq_some_iff.mp taken
        have consistent := one.consistent.cancel cancelled
        obtain ⟨lock, waits, rfl⟩ := Locks.cancel_cases cancelled
        exact one.goOut consistent (by rw [waits]; rfl)
      · cases taken

end OneLockPerLoop

/-! ### Two locks for one loop -/

/-- A coroutine is inside a lock while another one of its loop is at a second lock. -/
structure TwoLocks (loopOf : Coroutine → Loop) (thread : LoopThread Coroutine Loop)
    (coroutine other : Coroutine) (own second : Nat) : Prop where
  consistent : thread.locks.Consistent
  running : thread.running = some (loopOf coroutine)
  entered : thread.locks.place coroutine = .inside own
  located : (thread.locks.place other).lock? = some second
  different : own ≠ second
  sameLoop : ∀ present, (thread.locks.place present).lock? = some second →
    loopOf present = loopOf coroutine

namespace TwoLocks

variable {loopOf : Coroutine → Loop} {thread : LoopThread Coroutine Loop}
  {coroutine other : Coroutine} {own second : Nat}

theorem apart (two : TwoLocks loopOf thread coroutine other own second) {present : Coroutine}
    (located : (thread.locks.place present).lock? = some second) : present ≠ coroutine := by
  intro same
  rw [same, two.entered] at located
  exact two.different (Option.some.inj located)

theorem not_exclusive (two : TwoLocks loopOf thread coroutine other own second)
    {present : Coroutine} (inside : thread.locks.place present = .inside second) :
    ¬thread.Exclusive loopOf := by
  intro exclusive
  have located : (thread.locks.place present).lock? = some second := by rw [inside]; rfl
  exact two.apart located (exclusive present coroutine (by rw [inside]; rfl)
    (by rw [two.entered]; rfl) (two.sameLoop present located))

variable [DecidableEq Coroutine] [DecidableEq Loop]

theorem of_forgotten {after : LoopThread Coroutine Loop} (one : OneLockPerLoop loopOf thread)
    (forgotten : ¬thread.Remembers loopOf (loopOf coroutine))
    (taken : thread.step loopOf (.enter coroutine) = some after) :
    ∃ other second, TwoLocks loopOf after coroutine other thread.made second := by
  obtain ⟨uncached, occupied⟩ := not_or.mp forgotten
  obtain ⟨other, busy⟩ := not_forall.mp occupied
  obtain ⟨sameLoop, located⟩ := Classical.not_imp.mp busy
  obtain ⟨second, otherAt⟩ := Place.lock?_of_ne_outside located
  simp only [step] at taken
  split at taken
  · rename_i ready
    have made := (getAsyncLock_cases thread (loopOf coroutine)).resolve_left
      (fun ⟨lock, cached, _same⟩ => uncached (by rw [cached]; rfl))
    rw [made.2] at taken
    cases taken
    have granted := Locks.acquire_fresh (one.unmade thread.made le_rfl) coroutine
    have kept : ∀ present, present ≠ coroutine →
        (thread.locks.acquire thread.made coroutine).place present =
          thread.locks.place present := by
      intro present apart
      rw [granted]
      exact Function.update_of_ne apart _ _
    have entered : (thread.locks.acquire thread.made coroutine).place coroutine =
        .inside thread.made := by
      rw [granted]
      exact Function.update_self _ _ _
    have older := one.made_of_lock otherAt
    refine ⟨other, second, one.consistent.acquire ready.2 thread.made, ready.1, entered, ?_,
      Nat.ne_of_gt older, ?_⟩
    · have apart : other ≠ coroutine := by
        intro same
        rw [same] at located
        exact located ready.2
      exact (congrArg Place.lock? (kept other apart)).trans otherAt
    · intro present presentAt
      change ((thread.locks.acquire thread.made coroutine).place present).lock? = _ at presentAt
      by_cases same : present = coroutine
      · rw [same]
      · rw [kept present same] at presentAt
        rw [← sameLoop]
        exact (one.paired present other second second presentAt otherAt).mpr rfl
  · cases taken

/-- Somebody is inside the second lock, or the next one there can go on. -/
theorem broken (two : TwoLocks loopOf thread coroutine other own second) :
    ∃ later final, StepsMeet (step loopOf) (EntersRemembered loopOf) thread later ∧
      exec (step loopOf) thread later = some final ∧ ¬final.Exclusive loopOf := by
  have present : (∃ present, thread.locks.place present = .inside second) ∨
      ∃ present rest, thread.locks.place present = .waiting second ∧
        thread.locks.resume present =
          some (thread.locks.set second { locked := true, waiters := rest } present
            (.inside second)) := by
    have located := two.located
    cases place : thread.locks.place other with
    | outside =>
        rw [place] at located
        cases located
    | inside lock =>
        rw [place] at located
        cases located
        exact Or.inl ⟨other, place⟩
    | waiting lock =>
        rw [place] at located
        cases located
        exact two.consistent.inside_or_resumes place
  rcases present with ⟨present, inside⟩ | ⟨present, rest, waits, resumed⟩
  · exact ⟨[], thread, trivial, rfl, two.not_exclusive inside⟩
  · have located : (thread.locks.place present).lock? = some second := by rw [waits]; rfl
    have apart := two.apart located
    have run : thread.step loopOf (.resume present) =
        some { thread with
          locks := thread.locks.set second { locked := true, waiters := rest } present
            (.inside second) } := by
      simp only [step]
      rw [two.sameLoop present located, if_pos two.running, resumed]
      rfl
    refine ⟨[.resume present], _, fun _next _taken => ⟨trivial, trivial⟩,
      by simp only [exec]; rw [run], ?_⟩
    intro exclusive
    refine apart (exclusive present coroutine ?_ ?_ (two.sameLoop present located))
    · change (Function.update thread.locks.place present (.inside second) present).isInside = true
      rw [Function.update_self]
      rfl
    · change (Function.update thread.locks.place present (.inside second) coroutine).isInside =
        true
      rw [Function.update_of_ne apart.symm, two.entered]
      rfl

end TwoLocks

end LoopThread

open LoopThread in
/-- As long as every call finds the lock of its loop remembered, or no other call of its loop at
a lock, the section of each loop is exclusive; after the first call that does not, a run can go
on so that two calls of one loop are inside. -/
theorem async_section_exclusive {Coroutine Loop : Type} [DecidableEq Coroutine]
    [DecidableEq Loop] (loopOf : Coroutine → Loop) (actions : List (LoopAction Coroutine Loop)) :
    (StepsMeet (step loopOf) (EntersRemembered loopOf) start actions →
      Always (step loopOf) (Exclusive loopOf) start actions) ∧
    ∀ before action after,
      StepsMeet (step loopOf) (EntersRemembered loopOf) start actions →
      exec (step loopOf) start actions = some before →
      ¬before.EntersRemembered loopOf action → before.step loopOf action = some after →
        ∃ later final, StepsMeet (step loopOf) (EntersRemembered loopOf) after later ∧
          exec (step loopOf) after later = some final ∧ ¬final.Exclusive loopOf := by
  have always : StepsMeet (step loopOf) (EntersRemembered loopOf) start actions →
      Always (step loopOf) (OneLockPerLoop loopOf) start actions :=
    Always.of_invariant (fun _before _action _after one remembered taken =>
      one.step remembered taken) OneLockPerLoop.start
  refine ⟨fun met => (always met).imp (fun _thread one => one.exclusive), ?_⟩
  intro before action after met run forgotten taken
  have one := (always met).reached run
  cases action with
  | enter coroutine =>
      obtain ⟨other, second, two⟩ := TwoLocks.of_forgotten one forgotten taken
      exact two.broken
  | _ => exact absurd trivial forgotten

/-- The first and the last of three coroutines are of one loop, the middle one of another. -/
def aroundLoop (coroutine : Fin 3) : Bool := coroutine = 1

/-- Each call comes when the calls of its loop are at no lock or its lock is remembered. -/
def queuedCalls : List (LoopAction (Fin 3) Bool) :=
  [.runLoop false, .enter 0, .enter 2, .leave 0, .resume 2, .leave 2, .runLoop true, .enter 1,
    .runLoop false, .enter 0]

theorem async_section_exclusive_queued :
    (∃ final, exec (LoopThread.step aroundLoop) LoopThread.start queuedCalls = some final ∧
      (final.locks.place 0).isInside = true ∧ (final.locks.place 1).isInside = true) ∧
      Always (LoopThread.step aroundLoop) (LoopThread.Exclusive aroundLoop) LoopThread.start
        queuedCalls := by
  refine ⟨?_, (async_section_exclusive aroundLoop queuedCalls).1 (by decide)⟩
  have ran : (exec (LoopThread.step aroundLoop) LoopThread.start queuedCalls).map
      (fun final => ((final.locks.place 0).isInside, (final.locks.place 1).isInside)) =
        some (true, true) := by
    decide
  obtain ⟨final, run, places⟩ := Option.map_eq_some_iff.mp ran
  obtain ⟨first, second⟩ := Prod.mk.inj places
  exact ⟨final, run, first, second⟩

/-- The first call is suspended inside when the other loop runs and makes its own lock. -/
def suspendedInside : List (LoopAction (Fin 3) Bool) :=
  [.runLoop false, .enter 0, .runLoop true, .enter 1, .leave 1, .runLoop false, .enter 2]

theorem suspendedInside_not_exclusive :
    (∃ final, exec (LoopThread.step aroundLoop) LoopThread.start suspendedInside = some final ∧
      (final.locks.place 0).isInside = true ∧ (final.locks.place 2).isInside = true ∧
      aroundLoop 0 = aroundLoop 2) ∧
    ¬Always (LoopThread.step aroundLoop) (LoopThread.Exclusive aroundLoop) LoopThread.start
      suspendedInside := by
  have ran : (exec (LoopThread.step aroundLoop) LoopThread.start suspendedInside).map
      (fun final => (final.locks.place 0, final.locks.place 2)) =
        some (.inside 0, .inside 2) := by
    decide
  obtain ⟨final, run, places⟩ := Option.map_eq_some_iff.mp ran
  injection places with first last
  have firstInside : (final.locks.place 0).isInside = true := by rw [first]; rfl
  have lastInside : (final.locks.place 2).isInside = true := by rw [last]; rfl
  refine ⟨⟨final, run, firstInside, lastInside, rfl⟩, ?_⟩
  intro always
  have same := always.reached run 0 2 firstInside lastInside rfl
  cases same

end PyrateLimiter

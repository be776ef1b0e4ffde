/-
Threads that share one limiter over many buckets.

A factory routes every item to the bucket of a key, or to none, and all keys share the
limiter lock.  A call is cut as one on a limiter over a single bucket is, and is routed when
its item is wrapped.  The leaker goes from bucket to bucket.
-/

import PyrateLimiter.LimiterThreads

namespace PyrateLimiter

open Foundations

inductive RoutedAction (Thread Key : Type) where
  | tick (now : Int)
  | acquireLock (thread : Thread) (request : Request)
  | failLock (thread : Thread)
  | wrapItem (thread : Thread)
  | put (thread : Thread)
  | computeWait (thread : Thread)
  | releaseLock (thread : Thread)
  | resume (thread : Thread)
  | timeOut (thread : Thread)
  | leakerNow (key : Key)
  | leakerLeak
  deriving DecidableEq, Repr

/-- The key of a thread is that of the bucket which `get` gave its current call. -/
structure RoutedSystem (Thread Key : Type) where
  clock : Int
  bucket : Key → InMemoryBucket
  holder : Option Thread
  phase : Thread → Phase
  key : Thread → Option Key
  leaker : Option (Key × Int)
  /-- The items of each key admitted so far, which its bucket may have leaked. -/
  admitted : Key → List RateItem

namespace RoutedSystem

variable {Thread Key : Type}

def start (rates : Key → RateList) (clock : Int) : RoutedSystem Thread Key :=
  { clock := clock
    bucket := fun key => InMemoryBucket.empty (rates key)
    holder := none
    phase := fun _ => .idle
    key := fun _ => none
    leaker := none
    admitted := fun _ => [] }

def Exclusive (system : RoutedSystem Thread Key) : Prop :=
  ExclusiveLock.Exclusive Phase.holds system.phase system.holder

variable [DecidableEq Thread]

def move (system : RoutedSystem Thread Key) (thread : Thread) (phase : Phase) :
    RoutedSystem Thread Key :=
  { system with phase := Function.update system.phase thread phase }

/-- `get` has a bucket for the wrapped item, or the assertion on what it returns fails. -/
def routed (route : RateItem → Option Key) (system : RoutedSystem Thread Key) (thread : Thread)
    (item : RateItem) (blocking : Bool) : RoutedSystem Thread Key :=
  match route item with
  | some key =>
      { system.move thread (.stamped item blocking) with
        key := Function.update system.key thread (some key) }
  | none =>
      system.move thread
        (.leaving (.raised (.assertionError s!"Invalid bucket: item: {item.name}")))

variable [DecidableEq Key]

/-- One atomic step of a thread, of the leaker, which goes from bucket to bucket, or of the
clock. -/
def step (bufferMs : Nat) (route : RateItem → Option Key) (system : RoutedSystem Thread Key) :
    RoutedAction Thread Key → Option (RoutedSystem Thread Key)
  | .tick now => if system.clock ≤ now then some { system with clock := now } else none
  | .acquireLock thread request =>
      match system.phase thread, system.holder with
      | .idle, none | .finished _, none =>
          some
            { system.move thread (.entered request) with
              holder := some thread
              key := Function.update system.key thread none }
      | _, _ => none
  | .failLock thread =>
      match system.phase thread with
      | .idle | .finished _ =>
          some
            { system.move thread (.finished (.returned false)) with
              key := Function.update system.key thread none }
      | _ => none
  | .wrapItem thread =>
      match system.phase thread with
      | .entered request =>
          match request.enter system.clock with
          | .stamped item blocking => some (system.routed route thread item blocking)
          | phase => some (system.move thread phase)
      | _ => none
  | .put thread =>
      match system.key thread, (system.phase thread).pending with
      | some key, some (item, blocking) =>
          let (acquired, bucket) := (system.bucket key).put item
          some
            { system.move thread (Phase.afterPut item acquired blocking) with
              bucket := Function.update system.bucket key bucket
              admitted :=
                if acquired then
                  Function.update system.admitted key (system.admitted key ++ [item])
                else system.admitted }
      | _, _ => none
  | .computeWait thread =>
      match system.key thread, system.phase thread with
      | some key, .refused item =>
          some (system.move thread
            (Phase.afterWaiting item ((system.bucket key).waiting item)))
      | _, _ => none
  | .releaseLock thread =>
      match system.phase thread with
      | .leaving verdict =>
          some { system.move thread (.finished verdict) with holder := none }
      | .planned item waitMs =>
          some
            { system.move thread (Phase.afterPlanning bufferMs system.clock item waitMs) with
              holder := none }
      | _ => none
  | .resume thread =>
      match system.phase thread, system.holder with
      | .sleeping item sleepMs wakeAt, none =>
          if wakeAt ≤ system.clock then
            some
              { system.move thread (.resumed (item.delay sleepMs)) with holder := some thread }
          else none
      | _, _ => none
  | .timeOut thread =>
      match system.phase thread with
      | .sleeping _ _ _ => some (system.move thread (.finished (.returned false)))
      | _ => none
  | .leakerNow key =>
      match system.leaker with
      | none => some { system with leaker := some (key, system.clock) }
      | some _ => none
  | .leakerLeak =>
      match system.leaker with
      | some (key, now) =>
          some
            { system with
              bucket := Function.update system.bucket key ((system.bucket key).leak now).2
              leaker := none }
      | none => none

/-! ### What a step can do -/

inductive Taken (bufferMs : Nat) (route : RateItem → Option Key)
    (before : RoutedSystem Thread Key) :
    RoutedAction Thread Key → RoutedSystem Thread Key → Prop
  | tick (now : Int) (later : before.clock ≤ now) :
      Taken bufferMs route before (.tick now) { before with clock := now }
  | acquireLock (thread : Thread) (request : Request)
      (away : (before.phase thread).away = true) (free : before.holder = none) :
      Taken bufferMs route before (.acquireLock thread request)
        { before.move thread (.entered request) with
          holder := some thread
          key := Function.update before.key thread none }
  | failLock (thread : Thread) (away : (before.phase thread).away = true) :
      Taken bufferMs route before (.failLock thread)
        { before.move thread (.finished (.returned false)) with
          key := Function.update before.key thread none }
  | wrapItem (thread : Thread) (request : Request) (item : RateItem) (blocking : Bool)
      (current : before.phase thread = .entered request)
      (entered : request.enter before.clock = .stamped item blocking) :
      Taken bufferMs route before (.wrapItem thread) (before.routed route thread item blocking)
  | passBy (thread : Thread) (request : Request) (verdict : Verdict)
      (current : before.phase thread = .entered request)
      (entered : request.enter before.clock = .leaving verdict) :
      Taken bufferMs route before (.wrapItem thread) (before.move thread (.leaving verdict))
  | put (thread : Thread) (key : Key) (item : RateItem) (blocking : Bool)
      (routed : before.key thread = some key)
      (current : (before.phase thread).pending = some (item, blocking)) :
      Taken bufferMs route before (.put thread)
        { before.move thread (Phase.afterPut item ((before.bucket key).put item).1 blocking) with
          bucket := Function.update before.bucket key ((before.bucket key).put item).2
          admitted :=
            if ((before.bucket key).put item).1 then
              Function.update before.admitted key (before.admitted key ++ [item])
            else before.admitted }
  | computeWait (thread : Thread) (key : Key) (item : RateItem)
      (routed : before.key thread = some key) (current : before.phase thread = .refused item) :
      Taken bufferMs route before (.computeWait thread)
        (before.move thread (Phase.afterWaiting item ((before.bucket key).waiting item)))
  | leave (thread : Thread) (verdict : Verdict)
      (current : before.phase thread = .leaving verdict) :
      Taken bufferMs route before (.releaseLock thread)
        { before.move thread (.finished verdict) with holder := none }
  | plan (thread : Thread) (item : RateItem) (waitMs : Int)
      (current : before.phase thread = .planned item waitMs) :
      Taken bufferMs route before (.releaseLock thread)
        { before.move thread (Phase.afterPlanning bufferMs before.clock item waitMs) with
          holder := none }
  | resume (thread : Thread) (item : RateItem) (sleepMs wakeAt : Int)
      (current : before.phase thread = .sleeping item sleepMs wakeAt)
      (free : before.holder = none) (awake : wakeAt ≤ before.clock) :
      Taken bufferMs route before (.resume thread)
        { before.move thread (.resumed (item.delay sleepMs)) with holder := some thread }
  | timeOut (thread : Thread) (item : RateItem) (sleepMs wakeAt : Int)
      (current : before.phase thread = .sleeping item sleepMs wakeAt) :
      Taken bufferMs route before (.timeOut thread)
        (before.move thread (.finished (.returned false)))
  | leakerNow (key : Key) (done : before.leaker = none) :
      Taken bufferMs route before (.leakerNow key)
        { before with leaker := some (key, before.clock) }
  | leakerLeak (key : Key) (now : Int) (reading : before.leaker = some (key, now)) :
      Taken bufferMs route before .leakerLeak
        { before with
          bucket := Function.update before.bucket key ((before.bucket key).leak now).2
          leaker := none }

theorem step_cases {bufferMs : Nat} {route : RateItem → Option Key}
    {before after : RoutedSystem Thread Key} {action : RoutedAction Thread Key}
    (taken : before.step bufferMs route action = some after) :
    Taken bufferMs route before action after := by
  cases action with
  | tick now =>
      simp only [step] at taken
      split at taken
      · rename_i later
        cases taken
        exact .tick now later
      · cases taken
  | acquireLock thread request =>
      simp only [step] at taken
      split at taken
      · rename_i idle free
        cases taken
        exact .acquireLock thread request (by rw [idle]; rfl) free
      · rename_i finished free
        cases taken
        exact .acquireLock thread request (by rw [finished]; rfl) free
      · cases taken
  | failLock thread =>
      simp only [step] at taken
      split at taken
      · rename_i idle
        cases taken
        exact .failLock thread (by rw [idle]; rfl)
      · rename_i finished
        cases taken
        exact .failLock thread (by rw [finished]; rfl)
      · cases taken
  | wrapItem thread =>
      simp only [step] at taken
      split at taken
      · rename_i request current
        rcases Request.enter_cases request before.clock with
          ⟨verdict, entered⟩ | ⟨item, blocking, entered⟩
        · rw [entered] at taken
          cases taken
          exact .passBy thread request verdict current entered
        · rw [entered] at taken
          cases taken
          exact .wrapItem thread request item blocking current entered
      · cases taken
  | put thread =>
      simp only [step] at taken
      split at taken
      · rename_i key item blocking routed current
        cases taken
        exact .put thread key item blocking routed current
      · cases taken
  | computeWait thread =>
      simp only [step] at taken
      split at taken
      · rename_i key item routed current
        cases taken
        exact .computeWait thread key item routed current
      · cases taken
  | releaseLock thread =>
      simp only [step] at taken
      split at taken
      · rename_i verdict current
        cases taken
        exact .leave thread verdict current
      · rename_i item waitMs current
        cases taken
        exact .plan thread item waitMs current
      · cases taken
  | resume thread =>
      simp only [step] at taken
      split at taken
      · rename_i item sleepMs wakeAt current free
        split at taken
        · rename_i awake
          cases taken
          exact .resume thread item sleepMs wakeAt current free awake
        · cases taken
      · cases taken
  | timeOut thread =>
      simp only [step] at taken
      split at taken
      · rename_i item sleepMs wakeAt current
        cases taken
        exact .timeOut thread item sleepMs wakeAt current
      · cases taken
  | leakerNow key =>
      simp only [step] at taken
      split at taken
      · rename_i done
        cases taken
        exact .leakerNow key done
      · cases taken
  | leakerLeak =>
      simp only [step] at taken
      split at taken
      · rename_i key now reading
        cases taken
        exact .leakerLeak key now reading
      · cases taken

omit [DecidableEq Key] in
theorem Exclusive.routed {before : RoutedSystem Thread Key} (exclusive : before.Exclusive)
    (route : RateItem → Option Key) {thread : Thread} (item : RateItem) (blocking : Bool)
    (holding : before.holder = some thread) :
    (before.routed route thread item blocking).Exclusive := by
  unfold RoutedSystem.routed
  split
  · exact exclusive.move (fun _ => holding)
  · exact exclusive.move (fun _ => holding)

theorem Exclusive.step {bufferMs : Nat} {route : RateItem → Option Key}
    {before after : RoutedSystem Thread Key} {action : RoutedAction Thread Key}
    (exclusive : before.Exclusive) (taken : before.step bufferMs route action = some after) :
    after.Exclusive := by
  cases step_cases taken with
  | tick now later => exact exclusive
  | acquireLock thread request away free => exact exclusive.acquire free thread _
  | failLock thread away => exact exclusive.move (fun impossible => by cases impossible)
  | wrapItem thread request item blocking current entered =>
      exact exclusive.routed route item blocking (exclusive thread (by rw [current]; rfl))
  | passBy thread request verdict current entered =>
      exact exclusive.move (fun _ => exclusive thread (by rw [current]; rfl))
  | put thread key item blocking routed current =>
      exact exclusive.move (fun _ => exclusive thread (Phase.holds_of_pending current))
  | computeWait thread key item routed current =>
      exact exclusive.move (fun _ => exclusive thread (by rw [current]; rfl))
  | leave thread verdict current => exact exclusive.release (by rw [current]; rfl) rfl
  | plan thread item waitMs current =>
      exact exclusive.release (by rw [current]; rfl)
        (Phase.afterPlanning_outside bufferMs before.clock item waitMs)
  | resume thread item sleepMs wakeAt current free awake => exact exclusive.acquire free thread _
  | timeOut thread item sleepMs wakeAt current =>
      exact exclusive.move (fun impossible => by cases impossible)
  | leakerNow key done => exact exclusive
  | leakerLeak key now reading => exact exclusive

/-- The lock is held by whoever is in a locked section, and a call that has just taken it
is not routed yet. -/
structure LockKept (system : RoutedSystem Thread Key) : Prop where
  exclusive : system.Exclusive
  holding : ∀ thread, system.holder = some thread → (system.phase thread).holds = true
  unrouted : ∀ thread request, system.phase thread = .entered request → system.key thread = none

namespace LockKept

variable {before after : RoutedSystem Thread Key}

omit [DecidableEq Thread] [DecidableEq Key] in
theorem start (rates : Key → RateList) (clock : Int) :
    LockKept (RoutedSystem.start rates clock : RoutedSystem Thread Key) where
  exclusive := fun _thread impossible => by cases impossible
  holding := fun _thread impossible => by cases impossible
  unrouted := fun _thread _request _current => rfl

omit [DecidableEq Key] in
theorem moved (kept : before.LockKept) {thread : Thread} {phase : Phase}
    (exclusive : after.Exclusive)
    (updated : after.phase = Function.update before.phase thread phase)
    (holder : ∀ other, other ≠ thread → after.holder = some other → before.holder = some other)
    (own : after.holder = some thread → phase.holds = true)
    (sameKey : ∀ other, other ≠ thread → after.key other = before.key other)
    (entered : ∀ request, phase = .entered request → after.key thread = none) :
    after.LockKept where
  exclusive := exclusive
  holding := by
    intro other held
    rw [updated]
    by_cases same : other = thread
    · subst same
      rw [Function.update_self]
      exact own held
    · rw [Function.update_of_ne same]
      exact kept.holding other (holder other same held)
  unrouted := by
    intro other request current
    rw [updated] at current
    by_cases same : other = thread
    · subst same
      rw [Function.update_self] at current
      exact entered request current
    · rw [Function.update_of_ne same] at current
      rw [sameKey other same]
      exact kept.unrouted other request current

theorem step {bufferMs : Nat} {route : RateItem → Option Key} {action : RoutedAction Thread Key}
    (kept : before.LockKept) (taken : before.step bufferMs route action = some after) :
    after.LockKept := by
  have exclusive := kept.exclusive.step taken
  cases step_cases taken with
  | tick now later => exact { kept with exclusive := exclusive }
  | acquireLock thread request away free =>
      refine kept.moved exclusive rfl ?_ (fun _held => rfl)
        (fun other different => Function.update_of_ne different _ _)
        (fun _request _same => Function.update_self _ _ _)
      intro other different held
      cases held
      exact absurd rfl different
  | failLock thread away =>
      refine kept.moved exclusive rfl (fun _other _different held => held) ?_
        (fun other different => Function.update_of_ne different _ _)
        (fun _request impossible => by cases impossible)
      intro held
      have inside := kept.holding thread held
      rw [Phase.holds_of_away away] at inside
      cases inside
  | wrapItem thread request item blocking current entered =>
      unfold RoutedSystem.routed
      unfold RoutedSystem.routed at exclusive
      split at exclusive
      · exact kept.moved exclusive rfl (fun _other _different held => held) (fun _held => rfl)
          (fun other different => Function.update_of_ne different _ _)
          (fun _request impossible => by cases impossible)
      · exact kept.moved exclusive rfl (fun _other _different held => held) (fun _held => rfl)
          (fun _other _different => rfl) (fun _request impossible => by cases impossible)
  | passBy thread request verdict current entered =>
      exact kept.moved exclusive rfl (fun _other _different held => held) (fun _held => rfl)
        (fun _other _different => rfl) (fun _request impossible => by cases impossible)
  | put thread key item blocking routed current =>
      refine kept.moved exclusive rfl (fun _other _different held => held) ?_
        (fun _other _different => rfl) ?_
      · intro _held
        rcases Phase.afterPut_cases item ((before.bucket key).put item).1 blocking with
          ⟨verdict, leaves⟩ | refused
        · rw [leaves]
          rfl
        · rw [refused]
          rfl
      · intro request same
        rcases Phase.afterPut_cases item ((before.bucket key).put item).1 blocking with
          ⟨verdict, leaves⟩ | refused
        · rw [leaves] at same
          cases same
        · rw [refused] at same
          cases same
  | computeWait thread key item routed current =>
      refine kept.moved exclusive rfl (fun _other _different held => held) ?_
        (fun _other _different => rfl) ?_
      · intro _held
        cases (before.bucket key).waiting item <;> rfl
      · intro request impossible
        cases answered : (before.bucket key).waiting item with
        | error raised => rw [answered] at impossible; cases impossible
        | ok waitMs => rw [answered] at impossible; cases impossible
  | leave thread verdict current =>
      exact kept.moved exclusive rfl (fun _other _different impossible => by cases impossible)
        (fun impossible => by cases impossible) (fun _other _different => rfl)
        (fun _request impossible => by cases impossible)
  | plan thread item waitMs current =>
      refine kept.moved exclusive rfl (fun _other _different impossible => by cases impossible)
        (fun impossible => by cases impossible) (fun _other _different => rfl) ?_
      intro request same
      have outside := Phase.afterPlanning_outside bufferMs before.clock item waitMs
      rw [same] at outside
      cases outside
  | resume thread item sleepMs wakeAt current free awake =>
      refine kept.moved exclusive rfl ?_ (fun _held => rfl) (fun _other _different => rfl)
        (fun _request impossible => by cases impossible)
      intro other different held
      cases held
      exact absurd rfl different
  | timeOut thread item sleepMs wakeAt current =>
      refine kept.moved exclusive rfl (fun _other _different held => held) ?_
        (fun _other _different => rfl) (fun _request impossible => by cases impossible)
      intro held
      have inside := kept.holding thread held
      rw [current] at inside
      cases inside
  | leakerNow key done => exact { kept with exclusive := exclusive }
  | leakerLeak key now reading => exact { kept with exclusive := exclusive }

end LockKept

end RoutedSystem

end PyrateLimiter

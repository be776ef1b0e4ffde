/-
Threads that share one limiter over any of the backends.

What the limiter and the leaker do between two accesses to the bucket does not
depend on the backend: it is kept apart from the stored data, and asks the
backend to put an item, for a wait or to leak.  Each access is one step, so the
table lock of Postgres is granted to every put.  As long as no item is put
before an admitted one or before a leak, the backends answer all threads alike,
and the admitted items, leaked or not, keep every window within its limit.
-/

import PyrateLimiter.BackendSessions
import PyrateLimiter.RetryOrder

namespace PyrateLimiter

open Foundations
open Foundations.TransitionSystem
open Foundations.WindowLog

/-- The item that was put last and refused. -/
def Phase.refusedItem : Phase → Option RateItem
  | .refused item => some item
  | _ => none

/-- The limiter and the leaker without the stored data. -/
structure Control (Thread : Type) where
  clock : Int
  holder : Option Thread
  phase : Thread → Phase
  leaker : Option Int
  /-- The items admitted so far, which the bucket may have leaked. -/
  admitted : List RateItem
  /-- When the leaks ran. -/
  leakedAt : List Int

/-- What a step asks of the backend, and how it goes on with the answer. -/
inductive Ask (Thread : Type) where
  | nothing (next : Control Thread)
  | put (item : RateItem) (next : Bool → Control Thread)
  | waiting (item : RateItem) (next : Except PyError Int → Control Thread)
  | leak (now : Int) (next : Control Thread)

namespace Control

variable {Thread : Type}

def start (clock : Int) : Control Thread :=
  { clock := clock
    holder := none
    phase := fun _ => .idle
    leaker := none
    admitted := []
    leakedAt := [] }

/-- No item is put before an admitted one, and none is put, and no wait for it computed,
before a leak that has run. -/
def InClockOrder (margin : Int) (control : Control Thread) : Action Thread → Prop
  | .put thread => ∀ entry, entry ∈ (control.phase thread).pending →
      (∀ old, old ∈ control.admitted → old.timestamp ≤ entry.1.timestamp) ∧
        ∀ now, now ∈ control.leakedAt → now + margin ≤ entry.1.timestamp
  | .computeWait thread => ∀ item, item ∈ (control.phase thread).refusedItem →
      ∀ now, now ∈ control.leakedAt → now + margin ≤ item.timestamp
  | _ => True

instance (margin : Int) (control : Control Thread) :
    ∀ action : Action Thread, Decidable (control.InClockOrder margin action)
  | .put thread =>
      inferInstanceAs (Decidable (∀ entry, entry ∈ (control.phase thread).pending → _ ∧ _))
  | .computeWait thread =>
      inferInstanceAs (Decidable (∀ item, item ∈ (control.phase thread).refusedItem → _))
  | .tick _ | .acquireLock _ _ | .failLock _ | .wrapItem _ | .releaseLock _ | .resume _
  | .timeOut _ | .leakerNow | .leakerLeak => .isTrue trivial

variable [DecidableEq Thread]

def move (control : Control Thread) (thread : Thread) (phase : Phase) : Control Thread :=
  { control with phase := Function.update control.phase thread phase }

def ask (bufferMs : Nat) (control : Control Thread) : Action Thread → Option (Ask Thread)
  | .tick now =>
      if control.clock ≤ now then some (.nothing { control with clock := now }) else none
  | .acquireLock thread request =>
      match control.phase thread, control.holder with
      | .idle, none | .finished _, none =>
          some (.nothing { control.move thread (.entered request) with holder := some thread })
      | _, _ => none
  | .failLock thread =>
      match control.phase thread with
      | .idle | .finished _ => some (.nothing (control.move thread (.finished (.returned false))))
      | _ => none
  | .wrapItem thread =>
      match control.phase thread with
      | .entered request => some (.nothing (control.move thread (request.enter control.clock)))
      | _ => none
  | .put thread =>
      match (control.phase thread).pending with
      | some (item, blocking) =>
          some (.put item (fun acquired =>
            { control.move thread (Phase.afterPut item acquired blocking) with
              admitted := if acquired then control.admitted ++ [item] else control.admitted }))
      | none => none
  | .computeWait thread =>
      match control.phase thread with
      | .refused item =>
          some (.waiting item (fun answer => control.move thread (Phase.afterWaiting item answer)))
      | _ => none
  | .releaseLock thread =>
      match control.phase thread with
      | .leaving verdict =>
          some (.nothing { control.move thread (.finished verdict) with holder := none })
      | .planned item waitMs =>
          some (.nothing
            { control.move thread (Phase.afterPlanning bufferMs control.clock item waitMs) with
              holder := none })
      | _ => none
  | .resume thread =>
      match control.phase thread, control.holder with
      | .sleeping item sleepMs wakeAt, none =>
          if wakeAt ≤ control.clock then
            some (.nothing
              { control.move thread (.resumed (item.delay sleepMs)) with holder := some thread })
          else none
      | _, _ => none
  | .timeOut thread =>
      match control.phase thread with
      | .sleeping _ _ _ => some (.nothing (control.move thread (.finished (.returned false))))
      | _ => none
  | .leakerNow => some (.nothing { control with leaker := some control.clock })
  | .leakerLeak =>
      match control.leaker with
      | some now =>
          some (.leak now
            { control with
              leaker := none
              leakedAt := control.leakedAt ++ [now] })
      | none => none

end Control

structure SharedSystem (Thread Store : Type) where
  control : Control Thread
  store : Store

namespace SharedSystem

variable {Thread Store : Type}

def start (store : Store) (clock : Int) : SharedSystem Thread Store :=
  { control := .start clock
    store := store }

def answer (backend : Backend Store) (shared : SharedSystem Thread Store) :
    Ask Thread → SharedSystem Thread Store
  | .nothing next => { shared with control := next }
  | .put item next =>
      let (acquired, store) := backend.ops.put shared.store item
      { control := next acquired, store := store }
  | .waiting item next =>
      { shared with control := next (backend.ops.waiting shared.store item) }
  | .leak now next => { control := next, store := backend.leak shared.store now }

def InClockOrder (margin : Int) (shared : SharedSystem Thread Store) (action : Action Thread) :
    Prop :=
  shared.control.InClockOrder margin action

instance (margin : Int) (shared : SharedSystem Thread Store) (action : Action Thread) :
    Decidable (shared.InClockOrder margin action) :=
  inferInstanceAs (Decidable (shared.control.InClockOrder margin action))

def AdmittedKept (rates : RateList) (shared : SharedSystem Thread Store) : Prop :=
  ∀ rate, rate ∈ rates → ∀ finish,
    weightBetween shared.control.admitted (finish - rate.interval) finish ≤ rate.limit

variable [DecidableEq Thread]

def step (backend : Backend Store) (bufferMs : Nat) (shared : SharedSystem Thread Store)
    (action : Action Thread) : Option (SharedSystem Thread Store) :=
  (shared.control.ask bufferMs action).map (shared.answer backend)

/-! ### The system over the in-memory bucket -/

omit [DecidableEq Thread] in
def toSystem (shared : SharedSystem Thread InMemoryBucket) : System Thread :=
  { clock := shared.control.clock
    bucket := shared.store
    holder := shared.control.holder
    phase := shared.control.phase
    leaker := shared.control.leaker
    admitted := shared.control.admitted }

/-- In memory these are the threads that share an in-memory bucket. -/
theorem toSystem_step (bufferMs : Nat) (shared : SharedSystem Thread InMemoryBucket)
    (action : Action Thread) :
    (shared.step InMemoryBucket.backend bufferMs action).map toSystem =
      shared.toSystem.step bufferMs action := by
  obtain ⟨control, store⟩ := shared
  cases action with
  | tick now =>
      change Option.map toSystem (Option.map _ (if control.clock ≤ now then _ else none)) =
        if control.clock ≤ now then _ else none
      by_cases later : control.clock ≤ now
      · rw [if_pos later, if_pos later]
        rfl
      · rw [if_neg later, if_neg later]
        rfl
  | acquireLock thread request =>
      simp only [step, Control.ask, System.step, toSystem]
      cases control.phase thread <;> cases control.holder <;> rfl
  | failLock thread =>
      simp only [step, Control.ask, System.step, toSystem]
      cases control.phase thread <;> rfl
  | wrapItem thread =>
      simp only [step, Control.ask, System.step, toSystem]
      cases control.phase thread <;> rfl
  | put thread =>
      simp only [step, Control.ask, System.step, toSystem]
      cases (control.phase thread).pending <;> rfl
  | computeWait thread =>
      simp only [step, Control.ask, System.step, toSystem]
      cases control.phase thread <;> rfl
  | releaseLock thread =>
      simp only [step, Control.ask, System.step, toSystem]
      cases control.phase thread <;> rfl
  | resume thread =>
      simp only [step, Control.ask, System.step, toSystem]
      cases control.phase thread with
      | sleeping item sleepMs wakeAt =>
          cases control.holder with
          | none =>
              change Option.map toSystem
                  (Option.map _ (if wakeAt ≤ control.clock then _ else none)) =
                if wakeAt ≤ control.clock then _ else none
              by_cases awake : wakeAt ≤ control.clock
              · rw [if_pos awake, if_pos awake]
                rfl
              · rw [if_neg awake, if_neg awake]
                rfl
          | some holder => rfl
      | _ => rfl
  | timeOut thread =>
      simp only [step, Control.ask, System.step, toSystem]
      cases control.phase thread <;> rfl
  | leakerNow => rfl
  | leakerLeak =>
      simp only [step, Control.ask, System.step, toSystem]
      cases control.leaker <;> rfl

end SharedSystem

/-! ### What is asked of the backend -/

namespace Control

variable {Thread : Type} [DecidableEq Thread] {bufferMs : Nat} {control next : Control Thread}
  {action : Action Thread}

/-- A step that asks nothing admits and leaks nothing, and no call is refused in it. -/
theorem ask_nothing (asked : control.ask bufferMs action = some (.nothing next)) :
    next.admitted = control.admitted ∧ next.leakedAt = control.leakedAt ∧
      ∀ thread item, next.phase thread = .refused item →
        control.phase thread = .refused item := by
  have moved : ∀ {thread : Thread} {phase : Phase}, (∀ item, phase ≠ .refused item) →
      ∀ other item, Function.update control.phase thread phase other = .refused item →
        control.phase other = .refused item := by
    intro thread phase unrefused other item refused
    by_cases same : other = thread
    · rw [same, Function.update_self] at refused
      exact absurd refused (unrefused item)
    · rw [Function.update_of_ne same] at refused
      exact refused
  cases action with
  | tick now =>
      simp only [ask] at asked
      split at asked
      · cases asked
        exact ⟨rfl, rfl, fun _thread _item refused => refused⟩
      · cases asked
  | acquireLock thread request =>
      simp only [ask] at asked
      split at asked
      · cases asked
        exact ⟨rfl, rfl, moved (fun _item impossible => by cases impossible)⟩
      · cases asked
        exact ⟨rfl, rfl, moved (fun _item impossible => by cases impossible)⟩
      · cases asked
  | failLock thread =>
      simp only [ask] at asked
      split at asked
      · cases asked
        exact ⟨rfl, rfl, moved (fun _item impossible => by cases impossible)⟩
      · cases asked
        exact ⟨rfl, rfl, moved (fun _item impossible => by cases impossible)⟩
      · cases asked
  | wrapItem thread =>
      simp only [ask] at asked
      split at asked
      · rename_i request _current
        cases asked
        refine ⟨rfl, rfl, moved ?_⟩
        intro item impossible
        rcases request.enter_cases control.clock with
          ⟨verdict, entered⟩ | ⟨item, blocking, entered⟩
        · rw [entered] at impossible
          cases impossible
        · rw [entered] at impossible
          cases impossible
      · cases asked
  | put thread =>
      simp only [ask] at asked
      split at asked <;> cases asked
  | computeWait thread =>
      simp only [ask] at asked
      split at asked <;> cases asked
  | releaseLock thread =>
      simp only [ask] at asked
      split at asked
      · cases asked
        exact ⟨rfl, rfl, moved (fun _item impossible => by cases impossible)⟩
      · rename_i planned waitMs _current
        cases asked
        refine ⟨rfl, rfl, moved ?_⟩
        intro item impossible
        have outside := Phase.afterPlanning_outside bufferMs control.clock planned waitMs
        rw [impossible] at outside
        cases outside
      · cases asked
  | resume thread =>
      simp only [ask] at asked
      split at asked
      · split at asked
        · cases asked
          exact ⟨rfl, rfl, moved (fun _item impossible => by cases impossible)⟩
        · cases asked
      · cases asked
  | timeOut thread =>
      simp only [ask] at asked
      split at asked
      · cases asked
        exact ⟨rfl, rfl, moved (fun _item impossible => by cases impossible)⟩
      · cases asked
  | leakerNow =>
      cases asked
      exact ⟨rfl, rfl, fun _thread _item refused => refused⟩
  | leakerLeak =>
      simp only [ask] at asked
      split at asked <;> cases asked

theorem ask_put {item : RateItem} {onward : Bool → Control Thread}
    (asked : control.ask bufferMs action = some (.put item onward)) :
    ∃ thread blocking, action = .put thread ∧
      (control.phase thread).pending = some (item, blocking) ∧
      onward = fun acquired =>
        { control.move thread (Phase.afterPut item acquired blocking) with
          admitted := if acquired then control.admitted ++ [item] else control.admitted } := by
  cases action with
  | put thread =>
      simp only [ask] at asked
      split at asked
      · rename_i pending blocking current
        cases asked
        exact ⟨thread, blocking, rfl, current, rfl⟩
      · cases asked
  | leakerNow => cases asked
  | _ =>
      simp only [ask] at asked
      repeat' split at asked
      all_goals cases asked

theorem ask_waiting {item : RateItem} {onward : Except PyError Int → Control Thread}
    (asked : control.ask bufferMs action = some (.waiting item onward)) :
    ∃ thread, action = .computeWait thread ∧ control.phase thread = .refused item ∧
      onward = fun answer => control.move thread (Phase.afterWaiting item answer) := by
  cases action with
  | computeWait thread =>
      simp only [ask] at asked
      split at asked
      · rename_i refused current
        cases asked
        exact ⟨thread, rfl, current, rfl⟩
      · cases asked
  | leakerNow => cases asked
  | _ =>
      simp only [ask] at asked
      repeat' split at asked
      all_goals cases asked

theorem ask_leak {now : Int} (asked : control.ask bufferMs action = some (.leak now next)) :
    next = { control with leaker := none, leakedAt := control.leakedAt ++ [now] } := by
  cases action with
  | leakerLeak =>
      simp only [ask] at asked
      split at asked <;> cases asked
      rfl
  | leakerNow => cases asked
  | _ =>
      simp only [ask] at asked
      repeat' split at asked
      all_goals cases asked

end Control

/-! ### The same threads over another backend -/

/-- What the backend has been asked to remember. -/
def Control.history {Thread : Type} (rates : RateList) (control : Control Thread) :
    HistoryBucket :=
  { rates := rates
    admitted := control.admitted
    failingRate := none
    leakedAt := control.leakedAt }

/-- The rate that refuses an item by the whole history is the one that both backends name. -/
structure Control.Named {Thread First Second : Type} (rates : RateList) (first : Backend First)
    (second : Backend Second) (control : Control Thread) (left : First) (right : Second)
    (item : RateItem) (rate : Rate) : Prop where
  member : rate ∈ rates
  left : first.ops.failingRate left = some rate
  right : second.ops.failingRate right = some rate
  full : rate.limit < (countSince (units control.admitted) (item.timestamp - rate.interval) :
    Int) + item.weight

namespace SharedSystem

variable {Thread Store : Type}

/-- The same threads over the backend and in memory, both of which remember the history. -/
structure Mirrors (rates : RateList) (margin : Int) (backend : Backend Store)
    (log : Store → List Int) (sound : Store → Prop) (shared : SharedSystem Thread Store)
    (memory : SharedSystem Thread InMemoryBucket) : Prop where
  control : memory.control = shared.control
  store : Remembers rates margin log sound shared.store (shared.control.history rates)
  bucket : Remembers rates margin InMemoryBucket.stamps (fun bucket => bucket.rates = rates)
    memory.store (shared.control.history rates)
  named : ∀ thread item, shared.control.phase thread = .refused item →
    ∃ rate, shared.control.Named rates backend InMemoryBucket.backend shared.store memory.store
      item rate
  weighty : ∀ item, item ∈ shared.control.admitted → 1 ≤ item.weight
  within : Within rates.windows (units shared.control.admitted)
  records : memory.toSystem.RetryInvariant rates

namespace Mirrors

variable {rates : RateList} {margin : Int} {backend : Backend Store} {log : Store → List Int}
  {sound : Store → Prop} {shared : SharedSystem Thread Store}
  {memory : SharedSystem Thread InMemoryBucket}

theorem start {store : Store} (empty : log store = []) (soundStore : sound store) (clock : Int) :
    Mirrors rates margin backend log sound (start store clock : SharedSystem Thread Store)
      (SharedSystem.start (InMemoryBucket.empty rates) clock) where
  control := rfl
  store := Remembers.of_empty empty soundStore
  bucket := Remembers.of_empty rfl rfl
  named := fun _thread _item impossible => by cases impossible
  weighty := fun _item impossible => by cases impossible
  within := rates.within_nil
  records := System.RetryInvariant.start clock

theorem admittedKept (mirrors : Mirrors rates margin backend log sound shared memory) :
    shared.AdmittedKept rates := by
  intro rate member finish
  rw [weightBetween_eq mirrors.weighty]
  exact RateList.forall_windows.mp mirrors.within rate member finish

/-- A call that is refused, or about to put, holds the lock alone. -/
theorem alone (mirrors : Mirrors rates margin backend log sound shared memory)
    {thread other : Thread} (inside : (shared.control.phase thread).holds = true)
    (otherInside : (shared.control.phase other).holds = true) : other = thread := by
  rw [← mirrors.control] at inside otherInside
  by_contra apart
  have outside := mirrors.records.exclusive.outside inside apart
  exact Bool.noConfusion (otherInside.symm.trans outside)

variable [DecidableEq Thread] {thread : Thread} {item : RateItem}

/-- Both put the item to the same verdict, by the whole history. -/
theorem put (mirrors : Mirrors rates margin backend log sound shared memory)
    (logs : backend.Logs rates margin log sound) (nonneg : 0 ≤ margin) {blocking : Bool}
    (current : (shared.control.phase thread).pending = some (item, blocking))
    (positive : 1 ≤ item.weight)
    (newest : ∀ old, old ∈ shared.control.admitted → old.timestamp ≤ item.timestamp)
    (leaked : ∀ now, now ∈ shared.control.leakedAt → now + margin ≤ item.timestamp)
    {onward : Bool → Control Thread}
    (next : onward = fun acquired =>
      { shared.control.move thread (Phase.afterPut item acquired blocking) with
        admitted :=
          if acquired then shared.control.admitted ++ [item] else shared.control.admitted })
    (records : (memory.answer InMemoryBucket.backend (.put item onward)).toSystem.RetryInvariant
      rates) :
    Mirrors rates margin backend log sound (shared.answer backend (.put item onward))
      (memory.answer InMemoryBucket.backend (.put item onward)) := by
  have memoryLogs := (InMemoryBucket.logs rates).widen nonneg
  have ready : (shared.control.history rates).Ready margin item.timestamp := by
    refine ⟨?_, leaked⟩
    intro old member
    obtain ⟨entry, present, same⟩ := mem_units member
    rw [← same]
    exact newest entry present
  obtain ⟨verdict, stored, naming⟩ := mirrors.store.put logs ready positive
  obtain ⟨memoryVerdict, bucketed, memoryNaming⟩ := mirrors.bucket.put memoryLogs ready positive
  have within := HistoryBucket.put_within
    (show Within (shared.control.history rates).rates.windows
      (units (shared.control.history rates).admitted) from mirrors.within) positive
  have grown := HistoryBucket.admitted_put (shared.control.history rates) item
  have sameLeaks := HistoryBucket.put_leakedAt (shared.control.history rates) item
  have holds := Phase.holds_of_pending current
  have control : onward (InMemoryBucket.backend.ops.put memory.store item).1 =
      onward (backend.ops.put shared.store item).1 :=
    congrArg onward (memoryVerdict.trans verdict.symm)
  subst next
  rw [HistoryBucket.put_rates, grown, ← verdict] at within
  rw [← verdict] at grown
  refine
    { control := control
      store := stored.renamed rfl grown.symm sameLeaks.symm
      bucket := bucketed.renamed rfl grown.symm sameLeaks.symm
      named := ?_
      weighty := ?_
      within := within
      records := records }
  · intro other refused refusedPhase
    change Function.update shared.control.phase thread
      (Phase.afterPut item (backend.ops.put shared.store item).1 blocking) other = _ at refusedPhase
    by_cases same : other = thread
    · rw [same, Function.update_self] at refusedPhase
      cases acquired : (backend.ops.put shared.store item).1 with
      | true =>
          rw [acquired] at refusedPhase
          cases refusedPhase
      | false =>
          have item_eq : refused = item := by
            rw [acquired] at refusedPhase
            cases blocking <;> cases refusedPhase
            rfl
          subst item_eq
          rw [acquired] at verdict
          obtain ⟨rate, member, failing, failingHistory, full⟩ := naming verdict.symm
          obtain ⟨again, _member, memoryFailing, failingAgain, _full⟩ :=
            memoryNaming verdict.symm
          rw [failingHistory] at failingAgain
          cases failingAgain
          rw [grown, acquired] at full
          refine ⟨rate, member, failing, memoryFailing, ?_⟩
          change rate.limit < (countSince (units
            (if (backend.ops.put shared.store refused).1 then _ else _)) _ : Int) + _
          rw [acquired]
          exact full
    · rw [Function.update_of_ne same] at refusedPhase
      exact absurd (mirrors.alone holds (by rw [refusedPhase]; rfl)) same
  · intro entry member
    change entry ∈ (if (backend.ops.put shared.store item).1 then
      shared.control.admitted ++ [item] else shared.control.admitted) at member
    split at member
    · rcases List.mem_append.mp member with old | new
      · exact mirrors.weighty entry old
      · rw [List.mem_singleton.mp new]
        exact positive
    · exact mirrors.weighty entry member

/-- Both give the wait that the whole history calls for. -/
theorem waiting (mirrors : Mirrors rates margin backend log sound shared memory)
    (logs : backend.Logs rates margin log sound) (nonneg : 0 ≤ margin)
    (current : shared.control.phase thread = .refused item) (positive : 1 ≤ item.weight)
    (leaked : ∀ now, now ∈ shared.control.leakedAt → now + margin ≤ item.timestamp)
    {onward : Except PyError Int → Control Thread}
    (next : onward = fun answer =>
      shared.control.move thread (Phase.afterWaiting item answer))
    (records : (memory.answer InMemoryBucket.backend
      (.waiting item onward)).toSystem.RetryInvariant rates) :
    Mirrors rates margin backend log sound (shared.answer backend (.waiting item onward))
      (memory.answer InMemoryBucket.backend (.waiting item onward)) := by
  have memoryLogs := (InMemoryBucket.logs rates).widen nonneg
  obtain ⟨rate, member, failing, memoryFailing, full⟩ := mirrors.named thread item current
  have stored : Remembers rates margin log sound shared.store
      { shared.control.history rates with failingRate := some rate } :=
    mirrors.store.renamed rfl rfl rfl
  have bucketed : Remembers rates margin InMemoryBucket.stamps
      (fun bucket => bucket.rates = rates) memory.store
      { shared.control.history rates with failingRate := some rate } :=
    mirrors.bucket.renamed rfl rfl rfl
  have waited := stored.waiting logs member failing rfl full leaked positive
  have memoryWaited := bucketed.waiting memoryLogs member memoryFailing rfl full leaked positive
  have control : onward (InMemoryBucket.backend.ops.waiting memory.store item) =
      onward (backend.ops.waiting shared.store item) :=
    congrArg onward (memoryWaited.trans waited.symm)
  subst next
  refine
    { control := control
      store := mirrors.store
      bucket := mirrors.bucket
      named := ?_
      weighty := mirrors.weighty
      within := mirrors.within
      records := records }
  intro other refused refusedPhase
  change Function.update shared.control.phase thread
    (Phase.afterWaiting item (backend.ops.waiting shared.store item)) other = _ at refusedPhase
  by_cases same : other = thread
  · rw [same, Function.update_self] at refusedPhase
    unfold Phase.afterWaiting at refusedPhase
    split at refusedPhase <;> cases refusedPhase
  · rw [Function.update_of_ne same] at refusedPhase
    obtain ⟨rate, member, failing, memoryFailing, full⟩ :=
      mirrors.named other refused refusedPhase
    exact ⟨rate, member, failing, memoryFailing, full⟩

omit [DecidableEq Thread] in
/-- Both leak what is outside the windows of the items to come. -/
theorem leak (mirrors : Mirrors rates margin backend log sound shared memory)
    (logs : backend.Logs rates margin log sound) (nonneg : 0 ≤ margin) {now : Int}
    {next : Control Thread}
    (nextControl : next =
      { shared.control with leaker := none, leakedAt := shared.control.leakedAt ++ [now] })
    (records : (memory.answer InMemoryBucket.backend (.leak now next)).toSystem.RetryInvariant
      rates) :
    Mirrors rates margin backend log sound (shared.answer backend (.leak now next))
      (memory.answer InMemoryBucket.backend (.leak now next)) := by
  have memoryLogs := (InMemoryBucket.logs rates).widen nonneg
  subst nextControl
  refine
    { control := rfl
      store := mirrors.store.leak logs now
      bucket := mirrors.bucket.leak memoryLogs now
      named := ?_
      weighty := mirrors.weighty
      within := mirrors.within
      records := records }
  intro other refused refusedPhase
  obtain ⟨rate, member, failing, memoryFailing, full⟩ := mirrors.named other refused refusedPhase
  refine ⟨rate, member, ?_, ?_, full⟩
  · exact (logs.leakNames now mirrors.store.sound mirrors.store.log_sorted).trans failing
  · exact (memoryLogs.leakNames now mirrors.bucket.sound mirrors.bucket.log_sorted).trans
      memoryFailing

/-- Whatever a step asks, in clock order both answer alike. -/
theorem answer (mirrors : Mirrors rates margin backend log sound shared memory)
    (logs : backend.Logs rates margin log sound) (nonneg : 0 ≤ margin) {bufferMs : Nat}
    {action : Action Thread} {ask : Ask Thread} (ordered : shared.InClockOrder margin action)
    (asked : shared.control.ask bufferMs action = some ask) :
    memory.step InMemoryBucket.backend bufferMs action =
        some (memory.answer InMemoryBucket.backend ask) ∧
      Mirrors rates margin backend log sound (shared.answer backend ask)
        (memory.answer InMemoryBucket.backend ask) := by
  have memoryStep : memory.step InMemoryBucket.backend bufferMs action =
      some (memory.answer InMemoryBucket.backend ask) := by
    unfold step
    rw [mirrors.control, asked]
    rfl
  have systemStep : memory.toSystem.step bufferMs action =
      some (memory.answer InMemoryBucket.backend ask).toSystem := by
    rw [← toSystem_step, memoryStep]
    rfl
  have fresh : memory.toSystem.FreshRetry action := by
    cases action with
    | put thread =>
        intro item current _room stamp member
        change memory.control.phase thread = _ at current
        rw [mirrors.control] at current
        obtain ⟨entry, present, same⟩ := mem_units (mirrors.bucket.part.subset member)
        rw [← same]
        exact (ordered (item, true) (by rw [current]; rfl)).1 entry present
    | _ => trivial
  have records := mirrors.records.step fresh systemStep
  refine ⟨memoryStep, ?_⟩
  cases ask with
  | nothing next =>
      obtain ⟨admitted, leakedAt, refusals⟩ := Control.ask_nothing asked
      refine
        { control := rfl
          store := mirrors.store.renamed rfl admitted leakedAt
          bucket := mirrors.bucket.renamed rfl admitted leakedAt
          named := ?_
          weighty := ?_
          within := ?_
          records := records }
      · intro thread item refused
        obtain ⟨rate, member, failing, memoryFailing, full⟩ :=
          mirrors.named thread item (refusals thread item refused)
        refine ⟨rate, member, failing, memoryFailing, ?_⟩
        change rate.limit < (countSince (units next.admitted) _ : Int) + _
        rw [admitted]
        exact full
      · change ∀ item, item ∈ next.admitted → 1 ≤ item.weight
        rw [admitted]
        exact mirrors.weighty
      · change Within rates.windows (units next.admitted)
        rw [admitted]
        exact mirrors.within
  | put item onward =>
      obtain ⟨thread, blocking, rfl, current, next⟩ := Control.ask_put asked
      have sound := mirrors.records.sound thread
      obtain ⟨newest, leaked⟩ := ordered (item, blocking) current
      have pending : (memory.toSystem.phase thread).pending = some (item, blocking) := by
        change (memory.control.phase thread).pending = _
        rw [mirrors.control]
        exact current
      exact mirrors.put logs nonneg current (sound.pending pending).1 newest leaked next records
  | waiting item onward =>
      obtain ⟨thread, rfl, current, next⟩ := Control.ask_waiting asked
      have sound := mirrors.records.sound thread
      change (memory.control.phase thread).Sound _ _ at sound
      rw [mirrors.control, current] at sound
      have leaked := ordered item (by rw [current]; rfl)
      exact mirrors.waiting logs nonneg current sound.1 leaked next records
  | leak now next => exact mirrors.leak logs nonneg (Control.ask_leak asked) records

end Mirrors

/-! ### Interchangeable backends -/

/-- Both systems go through what the threads in memory go through. -/
def Together {First Second : Type} (rates : RateList) (margin : Int) (first : Backend First)
    (log : First → List Int) (sound : First → Prop) (second : Backend Second)
    (otherLog : Second → List Int) (otherSound : Second → Prop)
    (shared : SharedSystem Thread First) (other : SharedSystem Thread Second) : Prop :=
  ∃ memory, Mirrors rates margin first log sound shared memory ∧
    Mirrors rates margin second otherLog otherSound other memory

theorem Together.step [DecidableEq Thread] {First Second : Type} {rates : RateList} {margin : Int}
    {first : Backend First} {log : First → List Int} {sound : First → Prop}
    {second : Backend Second} {otherLog : Second → List Int} {otherSound : Second → Prop}
    (logs : first.Logs rates margin log sound)
    (otherLogs : second.Logs rates margin otherLog otherSound) (nonneg : 0 ≤ margin)
    {bufferMs : Nat} {shared next : SharedSystem Thread First}
    {other : SharedSystem Thread Second} {action : Action Thread}
    (together : Together rates margin first log sound second otherLog otherSound shared other)
    (ordered : shared.InClockOrder margin action)
    (taken : shared.step first bufferMs action = some next) :
    ∃ following, other.step second bufferMs action = some following ∧
      Together rates margin first log sound second otherLog otherSound next following := by
  obtain ⟨memory, mirrors, otherMirrors⟩ := together
  have control : other.control = shared.control :=
    otherMirrors.control.symm.trans mirrors.control
  obtain ⟨ask, asked, rfl⟩ := Option.map_eq_some_iff.mp taken
  have otherAsked : other.control.ask bufferMs action = some ask := by
    rw [control]
    exact asked
  have otherOrdered : other.InClockOrder margin action := by
    unfold InClockOrder
    rw [control]
    exact ordered
  refine ⟨other.answer second ask, ?_, memory.answer InMemoryBucket.backend ask,
    (mirrors.answer logs nonneg ordered asked).2,
    (otherMirrors.answer otherLogs nonneg otherOrdered otherAsked).2⟩
  unfold SharedSystem.step
  rw [otherAsked]
  rfl

end SharedSystem

open SharedSystem

/-- In clock order no thread can tell one backend from another: whatever the interleaving,
with timeouts and a leaker between a refused put and its wait, every call is in the same
phase and the same items are admitted. -/
theorem threads_backends_interchangeable {Thread : Type} [DecidableEq Thread] {rates : RateList}
    (first second : BackendKind rates) (bufferMs : Nat) (clock : Int)
    (actions : List (Action Thread))
    {reached : SharedSystem Thread first.Store}
    (ordered : StepsMeet (step first.backend bufferMs)
      (InClockOrder (max first.margin second.margin)) (start first.fresh clock) actions)
    (run : exec (step first.backend bufferMs) (start first.fresh clock) actions =
      some reached) :
    ∃ other, exec (step second.backend bufferMs) (start second.fresh clock) actions =
        some other ∧ other.control = reached.control := by
  obtain ⟨log, sound, logs, empty, soundFresh⟩ := first.logs
  obtain ⟨otherLog, otherSound, otherLogs, otherEmpty, otherSoundFresh⟩ := second.logs
  have wide := logs.widen (le_max_left first.margin second.margin)
  have otherWide := otherLogs.widen (le_max_right first.margin second.margin)
  have nonneg := le_trans first.margin_nonneg (le_max_left first.margin second.margin)
  have begun : Together rates (max first.margin second.margin) first.backend log sound
      second.backend otherLog otherSound
      (start first.fresh clock : SharedSystem Thread first.Store)
      (start second.fresh clock) :=
    ⟨start (InMemoryBucket.empty rates) clock, Mirrors.start empty soundFresh clock,
      Mirrors.start otherEmpty otherSoundFresh clock⟩
  obtain ⟨other, ran, memory, mirrors, otherMirrors⟩ := exec_simulated
    (fun _shared _action _next _other together ordered taken =>
      together.step wide otherWide nonneg ordered taken) begun ordered run
  exact ⟨other, ran, otherMirrors.control.symm.trans mirrors.control⟩

/-- A leak comes between the refused search and its wait, and an upload gives up waiting. -/
def waitingSearch : List (Action ℕ) :=
  [.acquireLock 0 ⟨"upload", 2, false⟩, .wrapItem 0, .put 0, .releaseLock 0, .leakerNow, .tick 40,
    .acquireLock 1 ⟨"search", 1, true⟩, .wrapItem 1, .put 1, .leakerLeak, .computeWait 1,
    .releaseLock 1, .acquireLock 0 ⟨"upload", 1, true⟩, .wrapItem 0, .put 0, .computeWait 0,
    .releaseLock 0, .tick 160, .resume 1, .put 1, .releaseLock 1, .timeOut 0]

theorem threads_backends_interchangeable_waitingSearch :
    ∃ other, exec (step twoRatesRedis.backend 50)
        (start twoRatesRedis.fresh 0) waitingSearch = some other ∧
      other.control.admitted = [⟨"upload", 0, 2⟩, ⟨"search", 151, 1⟩] := by
  have ran : (exec (step InMemoryBucket.backend 50)
      (start (InMemoryBucket.empty twoIn100ThreeIn1000) 0) waitingSearch).map
        (fun reached => reached.control.admitted) =
      some [⟨"upload", 0, 2⟩, ⟨"search", 151, 1⟩] := by
    decide +kernel
  obtain ⟨reached, run, admitted⟩ := Option.map_eq_some_iff.mp ran
  obtain ⟨other, otherRun, same⟩ :=
    threads_backends_interchangeable .inMemory twoRatesRedis 50 0 waitingSearch
      (by decide +kernel) run
  exact ⟨other, otherRun, (congrArg Control.admitted same).trans admitted⟩

/-- Over any backend, in every state of a run in clock order, the items admitted to all
threads, leaked or not, keep every window within its limit. -/
theorem threads_backends_keep_windows {Thread : Type} [DecidableEq Thread] {rates : RateList}
    (backend : BackendKind rates) (bufferMs : Nat) (clock : Int) (actions : List (Action Thread))
    (ordered : StepsMeet (step backend.backend bufferMs) (InClockOrder backend.margin)
      (start backend.fresh clock) actions) :
    Always (step backend.backend bufferMs) (AdmittedKept rates)
      (start backend.fresh clock) actions := by
  obtain ⟨log, sound, logs, empty, soundFresh⟩ := backend.logs
  have always : Always (step backend.backend bufferMs)
      (fun shared => ∃ memory, Mirrors rates backend.margin backend.backend log sound
        shared memory) (start backend.fresh clock) actions := by
    refine Always.of_invariant ?_ ⟨_, Mirrors.start empty soundFresh clock⟩ ordered
    rintro shared action next ⟨memory, mirrors⟩ ordered taken
    obtain ⟨ask, asked, rfl⟩ := Option.map_eq_some_iff.mp taken
    exact ⟨_, (mirrors.answer logs backend.margin_nonneg ordered asked).2⟩
  exact always.imp (fun _shared ⟨_memory, mirrors⟩ => mirrors.admittedKept)

theorem threads_backends_keep_windows_waitingSearch :
    (exec (step twoRatesPostgres.backend 50) (start twoRatesPostgres.fresh 0) waitingSearch).map
        (fun reached => reached.control.admitted) =
      some [⟨"upload", 0, 2⟩, ⟨"search", 151, 1⟩] ∧
      Always (step twoRatesPostgres.backend 50) (AdmittedKept twoIn100ThreeIn1000)
        (start twoRatesPostgres.fresh 0) waitingSearch :=
  ⟨by decide +kernel,
    threads_backends_keep_windows twoRatesPostgres 50 0 waitingSearch (by decide +kernel)⟩

end PyrateLimiter

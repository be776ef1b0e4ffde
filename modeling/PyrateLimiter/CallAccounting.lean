/-
What each call of a thread appends to the bucket.

An account of a thread's current call is kept beside the system of threads: the
weight it asked for, and how much the list has grown in the steps that the
thread took since.  The accounts are balanced on every exit of a call, whatever
the other threads do while the lock is free, and nothing is assumed of the
order of the recorded units.
-/

import PyrateLimiter.LimiterThreads

namespace PyrateLimiter

open Foundations.TransitionSystem

structure Account where
  weight : Int
  appended : Int

inductive AccountAction (Thread : Type) where
  | run (action : Action Thread)
  | checkArguments (thread : Thread) (request : Request) (timeout : ℚ)
  | flush

structure Accounts (Thread : Type) where
  system : System Thread
  account : Thread → Account

/-- The leaker's deletion and a flush take units out of the bucket. -/
def AccountAction.removes {Thread : Type} : AccountAction Thread → Bool
  | .run .leakerLeak | .flush => true
  | _ => false

namespace Accounts

variable {Thread : Type}

def start (rates : RateList) (clock : Int) : Accounts Thread :=
  { system := System.start rates clock
    account := fun _ => { weight := 0, appended := 0 } }

/-- Every call that is over appended its whole weight if it returned `True`, and
nothing if it returned `False` or raised. -/
def CallsExact (accounts : Accounts Thread) : Prop :=
  ∀ thread verdict, accounts.system.phase thread = .finished verdict →
    (accounts.account thread).appended =
      if verdict = .returned true then (accounts.account thread).weight else 0

/-- The count is the weight of all puts that succeeded. -/
def CountExact (accounts : Accounts Thread) : Prop :=
  accounts.system.bucket.count = totalWeight accounts.system.admitted

variable [DecidableEq Thread]

/-- A call is opened when it asks for the lock; its later steps are charged with
the growth of the list. -/
def charge (account : Thread → Account) (grown : Int) : Action Thread → Thread → Account
  | .acquireLock thread request =>
      Function.update account thread { weight := request.weight, appended := 0 }
  | .failLock thread => Function.update account thread { weight := 0, appended := 0 }
  | .wrapItem thread | .put thread | .computeWait thread | .releaseLock thread | .resume thread
  | .timeOut thread =>
      Function.update account thread
        { account thread with appended := (account thread).appended + grown }
  | .tick _ | .leakerNow | .leakerLeak => account

def step (bufferMs : Nat) (accounts : Accounts Thread) :
    AccountAction Thread → Option (Accounts Thread)
  | .run action =>
      match accounts.system.step bufferMs action with
      | none => none
      | some system =>
          let grown := system.bucket.count - accounts.system.bucket.count
          some
            { system := system
              account := charge accounts.account grown action }
  | .checkArguments thread request timeout =>
      match accounts.system.phase thread, checkArguments request.blocking timeout with
      | .idle, some raised | .finished _, some raised =>
          some
            { system := accounts.system.move thread (.finished (.raised raised))
              account := Function.update accounts.account thread
                { weight := request.weight, appended := 0 } }
      | _, _ => none
  | .flush =>
      some
        { accounts with
          system := { accounts.system with bucket := accounts.system.bucket.flush } }

end Accounts

/-- What a phase knows of its call: an item that is still to be put has the whole
weight, and nothing of it is appended before an admitted put. -/
def Phase.Accounted (account : Account) : Phase → Prop
  | .idle => True
  | .entered request => account = { weight := request.weight, appended := 0 }
  | .stamped item _ | .refused item | .planned item _ | .sleeping item _ _ | .resumed item =>
      1 ≤ item.weight ∧ account = { weight := item.weight, appended := 0 }
  | .leaving verdict | .finished verdict =>
      account.appended = if verdict = .returned true then account.weight else 0

namespace Phase

variable {account : Account}

theorem accounted_enter (request : Request) (now : Int) :
    (request.enter now).Accounted { weight := request.weight, appended := 0 } := by
  unfold Request.enter
  split
  · rfl
  · split
    · rename_i _asserted weightless
      simp only [Accounted, weightless, if_true]
    · rename_i asserted weighty
      exact ⟨by simp only [wrapItem]; omega, rfl⟩

theorem Accounted.pending {phase : Phase} {item : RateItem} {blocking : Bool}
    (accounted : phase.Accounted account) (current : phase.pending = some (item, blocking)) :
    1 ≤ item.weight ∧ account = { weight := item.weight, appended := 0 } := by
  cases phase with
  | stamped stamped first =>
      cases current
      exact accounted
  | resumed resumed =>
      cases current
      exact accounted
  | _ => cases current

/-- An admitted put appends the whole weight, a refused one nothing. -/
theorem accounted_afterPut (bucket : InMemoryBucket) {item : RateItem}
    (positive : 1 ≤ item.weight) (blocking : Bool) :
    (afterPut item (bucket.put item).1 blocking).Accounted
      { weight := item.weight, appended := (bucket.put item).2.count - bucket.count } := by
  cases acquired : (bucket.put item).1 with
  | true =>
      have grown := InMemoryBucket.put_admitted (by omega) acquired
      simp only [afterPut, if_true, Accounted, InMemoryBucket.count, grown, List.length_append,
        List.length_replicate]
      omega
  | false =>
      obtain ⟨rate, outcome⟩ := InMemoryBucket.put_refused acquired
      rw [outcome]
      simp only [afterPut, Bool.false_eq_true, if_false, InMemoryBucket.count, Int.sub_self]
      cases blocking with
      | true => exact ⟨positive, rfl⟩
      | false => rfl

theorem accounted_afterWaiting {item : RateItem} (positive : 1 ≤ item.weight)
    (answer : Except PyError Int) :
    (afterWaiting item answer).Accounted { weight := item.weight, appended := 0 } := by
  unfold afterWaiting
  cases answer with
  | error raised => rfl
  | ok waitMs => exact ⟨positive, rfl⟩

theorem accounted_afterPlanning {item : RateItem} (positive : 1 ≤ item.weight) (bufferMs : Nat)
    (clock waitMs : Int) :
    (afterPlanning bufferMs clock item waitMs).Accounted
      { weight := item.weight, appended := 0 } := by
  unfold afterPlanning
  cases delayToSleepMs bufferMs waitMs with
  | none => rfl
  | some sleepMs => exact ⟨positive, rfl⟩

end Phase

namespace Accounts

variable {Thread : Type}

def Balanced (accounts : Accounts Thread) : Prop :=
  ∀ thread, (accounts.system.phase thread).Accounted (accounts.account thread)

theorem Balanced.start (rates : RateList) (clock : Int) :
    (Accounts.start rates clock : Accounts Thread).Balanced :=
  fun _thread => trivial

theorem Balanced.callsExact {accounts : Accounts Thread} (balanced : accounts.Balanced) :
    accounts.CallsExact := by
  intro thread verdict ended
  have known := balanced thread
  rw [ended] at known
  exact known

/-- A put that is charged with a positive weight counts towards both sides. -/
theorem CountExact.put {before : Accounts Thread} {item : RateItem} (exact : before.CountExact)
    (positive : 1 ≤ item.weight) :
    (before.system.bucket.put item).2.count =
      totalWeight (if (before.system.bucket.put item).1 then before.system.admitted ++ [item]
        else before.system.admitted) := by
  unfold CountExact at exact
  cases acquired : (before.system.bucket.put item).1 with
  | true =>
      have grown := InMemoryBucket.put_admitted (by omega) acquired
      rw [if_pos rfl, totalWeight_append, ← exact, InMemoryBucket.count, grown,
        List.length_append, List.length_replicate]
      simp only [InMemoryBucket.count, totalWeight, List.map_cons, List.map_nil, List.sum_cons,
        List.sum_nil]
      omega
  | false =>
      obtain ⟨rate, outcome⟩ := InMemoryBucket.put_refused acquired
      rw [outcome]
      exact exact

variable [DecidableEq Thread] {bufferMs : Nat} {before after : Accounts Thread}

theorem Balanced.moved (balanced : before.Balanced) {thread : Thread} {phase : Phase}
    {account : Account}
    (phases : after.system.phase = Function.update before.system.phase thread phase)
    (accounts : after.account = Function.update before.account thread account)
    (accounted : phase.Accounted account) : after.Balanced := by
  intro other
  rw [phases, accounts]
  by_cases same : other = thread
  · subst same
    rw [Function.update_self, Function.update_self]
    exact accounted
  · rw [Function.update_of_ne same, Function.update_of_ne same]
    exact balanced other

/-- A move that leaves the list alone leaves the account alone. -/
theorem Balanced.unlisted (balanced : before.Balanced) {system : System Thread}
    {action : Action Thread} {thread : Thread} {phase : Phase}
    (sameBucket : system.bucket = before.system.bucket)
    (phases : system.phase = Function.update before.system.phase thread phase)
    (charged : charge before.account 0 action =
      Function.update before.account thread
        { before.account thread with appended := (before.account thread).appended + 0 })
    (accounted : (before.system.phase thread).Accounted (before.account thread) →
      phase.Accounted (before.account thread)) :
    Balanced
      { system := system
        account := charge before.account
          (system.bucket.count - before.system.bucket.count) action } := by
  rw [sameBucket, Int.sub_self, charged, Int.add_zero]
  exact balanced.moved phases rfl (accounted (balanced thread))

theorem Balanced.run {action : Action Thread} {system : System Thread}
    (balanced : before.Balanced) (taken : before.system.step bufferMs action = some system) :
    Balanced
      { system := system
        account := charge before.account
          (system.bucket.count - before.system.bucket.count) action } := by
  cases System.step_cases taken with
  | tick now later => exact balanced
  | acquireLock thread request outside free => exact balanced.moved rfl rfl rfl
  | failLock thread outside => exact balanced.moved rfl rfl rfl
  | wrapItem thread request current =>
      refine balanced.unlisted rfl rfl rfl ?_
      rw [current]
      intro opened
      rw [opened]
      exact Phase.accounted_enter request _
  | put thread item blocking current =>
      obtain ⟨positive, opened⟩ := (balanced thread).pending current
      refine balanced.moved rfl rfl ?_
      rw [opened]
      simp only [Int.zero_add]
      exact Phase.accounted_afterPut before.system.bucket positive blocking
  | computeWait thread item current =>
      refine balanced.unlisted rfl rfl rfl ?_
      rw [current]
      rintro ⟨positive, opened⟩
      rw [opened]
      exact Phase.accounted_afterWaiting positive _
  | leave thread verdict current =>
      refine balanced.unlisted rfl rfl rfl ?_
      rw [current]
      exact id
  | plan thread item waitMs current =>
      refine balanced.unlisted rfl rfl rfl ?_
      rw [current]
      rintro ⟨positive, opened⟩
      rw [opened]
      exact Phase.accounted_afterPlanning positive bufferMs _ waitMs
  | resume thread item sleepMs wakeAt current free awake =>
      refine balanced.unlisted rfl rfl rfl ?_
      rw [current]
      exact id
  | timeOut thread outside =>
      simp only [System.step] at taken
      split at taken
      · rename_i item sleepMs wakeAt current
        refine balanced.unlisted rfl rfl rfl ?_
        rw [current]
        rintro ⟨_positive, opened⟩
        rw [opened]
        rfl
      · cases taken
  | leakerNow => exact balanced
  | leakerLeak now reading => exact balanced

/-- A step of the limiter is charged to its call, arguments that are turned away
open a call that is over at once, and a flush touches the bucket only. -/
theorem step_cases {action : AccountAction Thread}
    (taken : before.step bufferMs action = some after) :
    (∃ moving system, action = .run moving ∧ before.system.step bufferMs moving = some system ∧
      after =
        { system := system
          account := charge before.account
            (system.bucket.count - before.system.bucket.count) moving }) ∨
    (∃ thread request timeout raised, action = .checkArguments thread request timeout ∧
      after =
        { system := before.system.move thread (.finished (.raised raised))
          account := Function.update before.account thread
            { weight := request.weight, appended := 0 } }) ∨
    (action = .flush ∧
      after =
        { before with
          system := { before.system with bucket := before.system.bucket.flush } }) := by
  cases action with
  | run moving =>
      simp only [Accounts.step] at taken
      split at taken
      · cases taken
      · rename_i system ran
        exact Or.inl ⟨moving, system, rfl, ran, (Option.some.inj taken).symm⟩
  | checkArguments thread request timeout =>
      refine Or.inr (Or.inl ?_)
      simp only [Accounts.step] at taken
      split at taken
      · exact ⟨thread, request, timeout, _, rfl, (Option.some.inj taken).symm⟩
      · exact ⟨thread, request, timeout, _, rfl, (Option.some.inj taken).symm⟩
      · cases taken
  | flush => exact Or.inr (Or.inr ⟨rfl, (Option.some.inj taken).symm⟩)

theorem Balanced.step {action : AccountAction Thread} (balanced : before.Balanced)
    (taken : before.step bufferMs action = some after) : after.Balanced := by
  rcases step_cases taken with ⟨moving, system, rfl, ran, rfl⟩ |
    ⟨thread, request, timeout, raised, rfl, rfl⟩ | ⟨rfl, rfl⟩
  · exact balanced.run ran
  · exact balanced.moved rfl rfl rfl
  · exact balanced

theorem CountExact.step {action : AccountAction Thread} (balanced : before.Balanced)
    (exact : before.CountExact) (keeps : action.removes = false)
    (taken : before.step bufferMs action = some after) : after.CountExact := by
  rcases step_cases taken with ⟨moving, system, rfl, ran, rfl⟩ |
    ⟨thread, request, timeout, raised, rfl, rfl⟩ | ⟨rfl, rfl⟩
  · cases System.step_cases ran with
    | put thread item blocking current =>
        exact exact.put ((balanced thread).pending current).1
    | leakerLeak now reading => cases keeps
    | _ => exact exact
  · exact exact
  · cases keeps

end Accounts

/-- In every interleaving each call that is over appended its weight or nothing,
according to its answer; and as long as nothing is leaked or flushed the count is
the weight of the puts that succeeded. -/
theorem calls_account_exactly {Thread : Type} [DecidableEq Thread] (bufferMs : Nat)
    (rates : RateList) (clock : Int) (actions : List (AccountAction Thread)) :
    Always (Accounts.step bufferMs) Accounts.CallsExact (Accounts.start rates clock) actions ∧
      ((∀ action, action ∈ actions → action.removes = false) →
        Always (Accounts.step bufferMs) Accounts.CountExact (Accounts.start rates clock)
          actions) := by
  constructor
  · have kept : Always (Accounts.step bufferMs) Accounts.Balanced (Accounts.start rates clock)
        actions :=
      Always.of_preserved (fun _before _action _after balanced taken => balanced.step taken)
        (Accounts.Balanced.start rates clock) actions
    exact kept.imp (fun _accounts balanced => balanced.callsExact)
  · intro keeps
    have kept : Always (Accounts.step bufferMs)
        (fun accounts => accounts.Balanced ∧ accounts.CountExact) (Accounts.start rates clock)
        actions :=
      Always.of_invariant
        (fun _before _action _after both keeps taken =>
          ⟨both.1.step taken, both.2.step both.1 keeps taken⟩)
        ⟨Accounts.Balanced.start rates clock, rfl⟩ (StepsMeet.of_forall_mem _ keeps)
    exact kept.imp (fun _accounts both => both.2)

/-- The second thread is refused, sleeps and is admitted in the end. -/
def secondRetried : List (AccountAction Bool) :=
  [.run (.acquireLock false ⟨"first", 1, false⟩), .run (.wrapItem false), .run (.put false),
    .run (.releaseLock false), .run (.acquireLock true ⟨"second", 1, true⟩),
    .run (.wrapItem true), .run (.put true), .run (.computeWait true),
    .run (.releaseLock true), .run (.tick 101), .run (.resume true), .run (.put true),
    .run (.releaseLock true)]

theorem calls_account_exactly_retried :
    (exec (Accounts.step 0) (Accounts.start oneRequestIn100 0) secondRetried).map
        (fun final => final.system.bucket.stamps) = some [0, 101] ∧
      Always (Accounts.step 0) Accounts.CountExact
        (Accounts.start oneRequestIn100 0 : Accounts Bool) secondRetried :=
  ⟨by decide, (calls_account_exactly 0 oneRequestIn100 0 secondRetried).2 (by decide)⟩

end PyrateLimiter

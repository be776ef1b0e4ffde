/-
The lock that the limiter holds around a put.

It is one lock, or several that are acquired in turn and released in reverse.  Each
acquire may return true, return false or raise, after any time, and the body may
raise.  Whatever happens, what was acquired is released, and the time budget of a
blocking acquire is shared by all locks.
-/

import Mathlib.Algebra.Order.Field.Rat
import Mathlib.Logic.Function.Basic
import Mathlib.Tactic.Linarith
import Mathlib.Tactic.NormNum
import PyrateLimiter.Rate

namespace PyrateLimiter

/-- The four ways in which `combined_lock` calls `acquire`. -/
inductive AcquireCall where
  | single (blocking : Bool) (timeout : ℚ)
  | nonBlocking
  | indefinite
  | timed (timeout : ℚ)
  deriving DecidableEq

/-- The time that a call is given, if there is a limit to it. -/
def AcquireCall.budget : AcquireCall → Option ℚ
  | .single true timeout => if timeout = -1 then none else some timeout
  | .timed timeout => some timeout
  | .single false _ | .nonBlocking | .indefinite => none

structure Attempt (Lock : Type) where
  lock : Lock
  call : AcquireCall
  outcome : Except PyError Bool
  finished : ℚ

inductive LockEvent (Lock : Type) where
  | acquire (attempt : Attempt Lock)
  | body
  | release (lock : Lock)

structure LockWorld (Lock : Type) where
  monotonic : ℚ
  holds : Lock → Nat
  events : List (LockEvent Lock)

structure Response where
  outcome : Except PyError Bool
  elapsed : ℚ

/-- How locks respond, which may depend on all that happened before. -/
def LockBehaviour (Lock : Type) : Type := LockWorld Lock → Lock → AcquireCall → Response

structure Body where
  outcome : Except PyError Unit
  elapsed : ℚ

inductive Locks (Lock : Type) where
  | single (lock : Lock)
  | each (locks : List Lock)

def Locks.toList {Lock : Type} : Locks Lock → List Lock
  | .single lock => [lock]
  | .each locks => locks

namespace LockWorld

variable {Lock : Type}

def start (monotonic : ℚ) (holds : Lock → Nat) : LockWorld Lock :=
  { monotonic := monotonic
    holds := holds
    events := [] }

def run (world : LockWorld Lock) (body : Body) : LockWorld Lock :=
  { world with
    monotonic := world.monotonic + body.elapsed
    events := world.events ++ [.body] }

variable [DecidableEq Lock]

def acquire (world : LockWorld Lock) (behaviour : LockBehaviour Lock) (lock : Lock)
    (call : AcquireCall) : Except PyError Bool × LockWorld Lock :=
  let response := behaviour world lock call
  let finished := world.monotonic + response.elapsed
  (response.outcome,
    { monotonic := finished
      holds :=
        match response.outcome with
        | .ok true => Function.update world.holds lock (world.holds lock + 1)
        | _ => world.holds
      events :=
        world.events ++
          [.acquire
            { lock := lock
              call := call
              outcome := response.outcome
              finished := finished }] })

def release (world : LockWorld Lock) (lock : Lock) : LockWorld Lock :=
  { world with
    holds := Function.update world.holds lock (world.holds lock - 1)
    events := world.events ++ [.release lock] }

def releaseEach (world : LockWorld Lock) (locks : List Lock) : LockWorld Lock :=
  locks.foldl release world

end LockWorld

/-- How the next lock of several is acquired. -/
def acquireCall (blocking : Bool) (timeout : ℚ) (deadline : Option ℚ) (monotonic : ℚ) :
    Except PyError AcquireCall :=
  if !blocking then .ok .nonBlocking
  else if timeout = -1 then .ok .indefinite
  else
    match deadline with
    | none => .error (.assertionError "")
    | some deadline => .ok (.timed (max 0 (deadline - monotonic)))

section CombinedLock

variable {Lock : Type} [DecidableEq Lock] (behaviour : LockBehaviour Lock) (blocking : Bool)
  (timeout : ℚ)

/-- The loop over the locks; the list of the acquired ones is what `finally` releases. -/
def acquireEach (deadline : Option ℚ) :
    List Lock → List Lock → LockWorld Lock → Except PyError Unit × List Lock × LockWorld Lock
  | [], acquiredLocks, world => (.ok (), acquiredLocks, world)
  | lock :: rest, acquiredLocks, world =>
      match acquireCall blocking timeout deadline world.monotonic with
      | .error raised => (.error raised, acquiredLocks, world)
      | .ok call =>
          match world.acquire behaviour lock call with
          | (.error raised, world) => (.error raised, acquiredLocks, world)
          | (.ok false, world) =>
              (.error (.timeoutError "Timeout while acquiring combined lock."), acquiredLocks,
                world)
          | (.ok true, world) => acquireEach deadline rest (acquiredLocks ++ [lock]) world

/-- `with combined_lock(locks, blocking, timeout)` around a body. -/
def combinedLock (locks : Locks Lock) (body : Body) (world : LockWorld Lock) :
    Except PyError Unit × LockWorld Lock :=
  match locks with
  | .single lock =>
      match world.acquire behaviour lock (.single blocking timeout) with
      | (.error raised, world) => (.error raised, world)
      | (.ok false, world) => (.error (.timeoutError "acquire failed"), world)
      | (.ok true, world) => (body.outcome, (world.run body).release lock)
  | .each locks =>
      let deadline := if blocking ∧ timeout ≠ -1 then some (world.monotonic + timeout) else none
      match acquireEach behaviour blocking timeout deadline locks [] world with
      | (.error raised, acquiredLocks, world) =>
          (.error raised, world.releaseEach acquiredLocks.reverse)
      | (.ok (), acquiredLocks, world) =>
          (body.outcome, (world.run body).releaseEach acquiredLocks.reverse)

end CombinedLock

/-! ### What a trace shows -/

section Traces

variable {Lock : Type}

def LockEvent.attempt : LockEvent Lock → Option (Attempt Lock)
  | .acquire attempt => some attempt
  | .body | .release _ => none

def LockEvent.acquired : LockEvent Lock → Option Lock
  | .acquire { lock := lock, outcome := .ok true, .. } => some lock
  | _ => none

def LockEvent.released : LockEvent Lock → Option Lock
  | .release lock => some lock
  | .body | .acquire _ => none

def LockEvent.isBody : LockEvent Lock → Bool
  | .body => true
  | .acquire _ | .release _ => false

def attempts (events : List (LockEvent Lock)) : List (Attempt Lock) :=
  events.filterMap LockEvent.attempt

def acquired (events : List (LockEvent Lock)) : List Lock :=
  events.filterMap LockEvent.acquired

def released (events : List (LockEvent Lock)) : List Lock :=
  events.filterMap LockEvent.released

def bodies (events : List (LockEvent Lock)) : Nat := events.countP LockEvent.isBody

/-- What `combined_lock` promises of one use: the body runs exactly if every acquire returned
true, a failed acquire is raised, and on exit the acquired locks have been released. -/
structure Guarded (locks : Locks Lock) (body : Body) (before after : LockWorld Lock)
    (result : Except PyError Unit) : Prop where
  runs : (∀ attempt, attempt ∈ attempts after.events → attempt.outcome = .ok true) →
    bodies after.events = 1 ∧ acquired after.events = locks.toList ∧ result = body.outcome
  skips : (∃ attempt, attempt ∈ attempts after.events ∧ attempt.outcome ≠ .ok true) →
    bodies after.events = 0
  timesOut : (∃ attempt, attempt ∈ attempts after.events ∧ attempt.outcome = .ok false) →
    ∃ message, result = .error (.timeoutError message)
  raises : ∀ attempt raised, attempt ∈ attempts after.events → attempt.outcome = .error raised →
    result = .error raised
  releases : released after.events = (acquired after.events).reverse
  holds : after.holds = before.holds

end Traces

/-- Every acquire with a time budget returns within it. -/
def LockBehaviour.Punctual {Lock : Type} (behaviour : LockBehaviour Lock) : Prop :=
  ∀ world lock call budget, budget ∈ AcquireCall.budget call →
    (behaviour world lock call).elapsed ≤ budget

/-! ### Acquiring and releasing -/

section Steps

variable {Lock : Type}

theorem attempts_append (first second : List (LockEvent Lock)) :
    attempts (first ++ second) = attempts first ++ attempts second :=
  List.filterMap_append

theorem acquired_append (first second : List (LockEvent Lock)) :
    acquired (first ++ second) = acquired first ++ acquired second :=
  List.filterMap_append

theorem released_append (first second : List (LockEvent Lock)) :
    released (first ++ second) = released first ++ released second :=
  List.filterMap_append

theorem bodies_append (first second : List (LockEvent Lock)) :
    bodies (first ++ second) = bodies first + bodies second :=
  List.countP_append

theorem acquired_granted {attempt : Attempt Lock} (granted : attempt.outcome = .ok true) :
    acquired [.acquire attempt] = [attempt.lock] := by
  obtain ⟨lock, call, outcome, finished⟩ := attempt
  cases granted
  rfl

theorem acquired_failed {attempt : Attempt Lock} (failed : attempt.outcome ≠ .ok true) :
    acquired [.acquire attempt] = [] := by
  obtain ⟨lock, call, outcome, finished⟩ := attempt
  cases outcome with
  | error raised => rfl
  | ok granted =>
      cases granted with
      | true => exact absurd rfl failed
      | false => rfl

theorem attempts_releases (locks : List Lock) : attempts (locks.map LockEvent.release) = [] := by
  unfold attempts
  rw [List.filterMap_map, List.filterMap_eq_nil_iff]
  exact fun _lock _member => rfl

theorem acquired_releases (locks : List Lock) : acquired (locks.map LockEvent.release) = [] := by
  unfold acquired
  rw [List.filterMap_map, List.filterMap_eq_nil_iff]
  exact fun _lock _member => rfl

theorem released_releases (locks : List Lock) :
    released (locks.map LockEvent.release) = locks := by
  unfold released
  rw [List.filterMap_map]
  exact List.filterMap_some

theorem bodies_releases (locks : List Lock) : bodies (locks.map LockEvent.release) = 0 := by
  unfold bodies
  rw [List.countP_map, List.countP_eq_zero]
  intro _lock _member impossible
  cases impossible

variable [DecidableEq Lock]

theorem LockWorld.events_releaseEach (world : LockWorld Lock) (locks : List Lock) :
    (world.releaseEach locks).events = world.events ++ locks.map LockEvent.release := by
  induction locks generalizing world with
  | nil => exact (List.append_nil _).symm
  | cons lock rest ih =>
      change ((world.release lock).releaseEach rest).events = _
      rw [ih, release, List.append_assoc]
      rfl

theorem LockWorld.holds_releaseEach (world : LockWorld Lock) (locks : List Lock) (lock : Lock) :
    (world.releaseEach locks).holds lock = world.holds lock - locks.count lock := by
  induction locks generalizing world with
  | nil => rfl
  | cons first rest ih =>
      change ((world.release first).releaseEach rest).holds lock = _
      rw [ih, List.count_cons]
      simp only [release, Function.update_apply]
      by_cases same : lock = first
      · rw [if_pos same, same, beq_self_eq_true, if_pos rfl]
        omega
      · have different : (first == lock) = false := beq_false_of_ne (fun equal => same equal.symm)
        rw [if_neg same, different]
        rfl

/-- What acquiring adds to a trace: attempts and nothing else, with every lock that was
acquired held once more. -/
structure Acquiring (before after : LockWorld Lock) (trace : List (LockEvent Lock)) : Prop where
  events : after.events = before.events ++ trace
  quiet : bodies trace = 0
  unreleased : released trace = []
  holds : ∀ lock, after.holds lock = before.holds lock + (acquired trace).count lock

theorem Acquiring.refl (world : LockWorld Lock) : Acquiring world world [] where
  events := (List.append_nil _).symm
  quiet := rfl
  unreleased := rfl
  holds := fun _lock => rfl

theorem Acquiring.trans {before between after : LockWorld Lock}
    {first second : List (LockEvent Lock)} (earlier : Acquiring before between first)
    (later : Acquiring between after second) : Acquiring before after (first ++ second) where
  events := by rw [later.events, earlier.events, List.append_assoc]
  quiet := by rw [bodies_append, earlier.quiet, later.quiet]
  unreleased := by rw [released_append, earlier.unreleased, later.unreleased, List.append_nil]
  holds := by
    intro lock
    rw [later.holds, earlier.holds, acquired_append, List.count_append, Nat.add_assoc]

variable (behaviour : LockBehaviour Lock)

/-- The attempt that an acquire makes. -/
def LockWorld.tried (world : LockWorld Lock) (lock : Lock) (call : AcquireCall) :
    Attempt Lock :=
  { lock := lock
    call := call
    outcome := (behaviour world lock call).outcome
    finished := world.monotonic + (behaviour world lock call).elapsed }

theorem LockWorld.acquiring_acquire (world : LockWorld Lock) (lock : Lock) (call : AcquireCall) :
    Acquiring world (world.acquire behaviour lock call).2
      [.acquire (world.tried behaviour lock call)] where
  events := rfl
  quiet := rfl
  unreleased := rfl
  holds := by
    intro other
    by_cases granted : (behaviour world lock call).outcome = .ok true
    · have tried : (world.tried behaviour lock call).outcome = .ok true := granted
      have held : (world.acquire behaviour lock call).2.holds =
          Function.update world.holds lock (world.holds lock + 1) := by
        simp only [acquire, granted]
      rw [held, acquired_granted tried, Function.update_apply]
      by_cases same : other = lock
      · rw [if_pos same, same]
        exact congrArg (world.holds lock + ·) List.count_singleton_self.symm
      · rw [if_neg same]
        exact (Nat.add_eq_left.mpr (List.count_eq_zero.mpr
          (fun member => same (List.mem_singleton.mp member)))).symm
    · have tried : (world.tried behaviour lock call).outcome ≠ .ok true := granted
      have held : (world.acquire behaviour lock call).2.holds = world.holds := by
        simp only [acquire]
      rw [held, acquired_failed tried]
      rfl

/-- The attempt raised, or it returned false and the loop raises. -/
def Attempt.Fails (attempt : Attempt Lock) (raised : PyError) : Prop :=
  attempt.outcome = .error raised ∨
    attempt.outcome = .ok false ∧ ∃ message, raised = .timeoutError message

omit [DecidableEq Lock] in
theorem Attempt.Fails.not_granted {attempt : Attempt Lock} {raised : PyError}
    (fails : attempt.Fails raised) : attempt.outcome ≠ .ok true := by
  rcases fails with error | ⟨refused, _message⟩
  · rw [error]
    exact fun impossible => by cases impossible
  · rw [refused]
    exact fun impossible => by cases impossible

/-- How acquiring several locks ends: with all of them, or at the first attempt that failed. -/
inductive Ended (locks : List Lock) (trace : List (LockEvent Lock)) : Except PyError Unit → Prop
  | granted (all : ∀ attempt, attempt ∈ attempts trace → attempt.outcome = .ok true)
      (same : acquired trace = locks) : Ended locks trace (.ok ())
  | failed (earlier : List (Attempt Lock)) (last : Attempt Lock) (raised : PyError)
      (shape : attempts trace = earlier ++ [last])
      (granted : ∀ attempt, attempt ∈ earlier → attempt.outcome = .ok true)
      (fails : last.Fails raised) : Ended locks trace (.error raised)

omit [DecidableEq Lock] in
theorem Ended.cons {attempt : Attempt Lock} (granted : attempt.outcome = .ok true)
    {rest : List Lock} {trace : List (LockEvent Lock)} {result : Except PyError Unit}
    (ended : Ended rest trace result) :
    Ended (attempt.lock :: rest) (.acquire attempt :: trace) result := by
  cases ended with
  | granted all same =>
      refine .granted ?_ ?_
      · intro other member
        rcases List.mem_cons.mp member with first | later
        · rw [first]
          exact granted
        · exact all other later
      · have split : acquired (.acquire attempt :: trace) =
            acquired [.acquire attempt] ++ acquired trace := acquired_append [_] trace
        rw [split, acquired_granted granted, same]
        rfl
  | failed earlier last raised shape allGranted fails =>
      refine .failed (attempt :: earlier) last raised ?_ ?_ fails
      · exact congrArg (List.cons attempt) shape
      · intro other member
        rcases List.mem_cons.mp member with first | later
        · rw [first]
          exact granted
        · exact allGranted other later

omit [DecidableEq Lock] in
theorem Ended.of_fails {attempt : Attempt Lock} {locks : List Lock} {raised : PyError}
    (fails : attempt.Fails raised) : Ended locks [.acquire attempt] (.error raised) :=
  .failed [] attempt raised rfl (fun _other impossible => by cases impossible) fails

variable {behaviour} {blocking : Bool} {timeout : ℚ} {deadline : Option ℚ}

omit [DecidableEq Lock] in
theorem acquireCall_ok (ready : blocking = true → timeout ≠ -1 → ∃ limit, deadline = some limit)
    (monotonic : ℚ) : ∃ call, acquireCall blocking timeout deadline monotonic = .ok call := by
  unfold acquireCall
  cases blocking with
  | false => exact ⟨_, rfl⟩
  | true =>
      by_cases endless : timeout = -1
      · exact ⟨_, by rw [if_neg (by simp), if_pos endless]⟩
      · obtain ⟨limit, rfl⟩ := ready rfl endless
        exact ⟨_, by rw [if_neg (by simp), if_neg endless]⟩

omit [DecidableEq Lock] in
/-- The deadline is set before it is read. -/
theorem deadline_ready {monotonic : ℚ}
    (chosen : (if blocking = true ∧ timeout ≠ -1 then some (monotonic + timeout) else none) =
      deadline) :
    blocking = true → timeout ≠ -1 → ∃ limit, deadline = some limit := by
  intro blocks bounded
  rw [if_pos ⟨blocks, bounded⟩] at chosen
  exact ⟨_, chosen.symm⟩

/-- The loop over the locks, by induction on the locks that are left. -/
theorem acquireEach_ended
    (ready : blocking = true → timeout ≠ -1 → ∃ limit, deadline = some limit)
    (locks acquiredLocks : List Lock) (world : LockWorld Lock) :
    ∃ trace,
      Acquiring world
        (acquireEach behaviour blocking timeout deadline locks acquiredLocks world).2.2 trace ∧
      (acquireEach behaviour blocking timeout deadline locks acquiredLocks world).2.1 =
        acquiredLocks ++ acquired trace ∧
      Ended locks trace
        (acquireEach behaviour blocking timeout deadline locks acquiredLocks world).1 := by
  induction locks generalizing acquiredLocks world with
  | nil =>
      exact ⟨[], .refl world, (List.append_nil _).symm,
        .granted (fun _attempt impossible => by cases impossible) rfl⟩
  | cons lock rest ih =>
      obtain ⟨call, chosen⟩ := acquireCall_ok ready world.monotonic
      have step := world.acquiring_acquire behaviour lock call
      cases acquireAt : world.acquire behaviour lock call with
      | mk outcome next =>
          have tried : (world.tried behaviour lock call).outcome = outcome :=
            congrArg Prod.fst acquireAt
          rw [acquireAt] at step
          cases outcome with
          | error raised =>
              have fails : (world.tried behaviour lock call).Fails raised := Or.inl tried
              simp only [acquireEach, chosen, acquireAt]
              refine ⟨_, step, ?_, .of_fails fails⟩
              rw [acquired_failed fails.not_granted, List.append_nil]
          | ok granted =>
              cases granted with
              | false =>
                  have fails : (world.tried behaviour lock call).Fails
                      (.timeoutError "Timeout while acquiring combined lock.") :=
                    Or.inr ⟨tried, _, rfl⟩
                  simp only [acquireEach, chosen, acquireAt]
                  refine ⟨_, step, ?_, .of_fails fails⟩
                  rw [acquired_failed fails.not_granted, List.append_nil]
              | true =>
                  obtain ⟨trace, acquiring, held, ended⟩ := ih (acquiredLocks ++ [lock]) next
                  simp only [acquireEach, chosen, acquireAt]
                  refine ⟨_, step.trans acquiring, ?_, ended.cons tried⟩
                  rw [held, List.append_assoc, acquired_append, acquired_granted tried]
                  rfl

end Steps

/-! ### One use of the lock -/

section Uses

variable {Lock : Type} [DecidableEq Lock] {locks : Locks Lock} {body : Body}
  {before after : LockWorld Lock} {trace : List (LockEvent Lock)}

/-- What a use has left behind when it acquired with the trace and ran the body so often. -/
structure Closed (before after : LockWorld Lock) (trace : List (LockEvent Lock))
    (runs : Nat) : Prop where
  tried : attempts after.events = attempts trace
  granted : acquired after.events = acquired trace
  ran : bodies after.events = runs
  reversed : released after.events = (acquired trace).reverse
  restored : after.holds = before.holds

omit [DecidableEq Lock] in
/-- A trace, a middle that shows nothing but body runs, and the releases. -/
theorem closed_of_events (middle : List (LockEvent Lock))
    (shape : after.events =
      trace ++ middle ++ (acquired trace).reverse.map LockEvent.release)
    (traceQuiet : bodies trace = 0) (traceUnreleased : released trace = [])
    (untried : attempts middle = []) (ungranted : acquired middle = [])
    (unreleased : released middle = []) (restored : after.holds = before.holds) :
    Closed before after trace (bodies middle) where
  tried := by
    rw [shape, attempts_append, attempts_append, untried, attempts_releases,
      List.append_nil, List.append_nil]
  granted := by
    rw [shape, acquired_append, acquired_append, ungranted, acquired_releases,
      List.append_nil, List.append_nil]
  ran := by
    rw [shape, bodies_append, bodies_append, traceQuiet, bodies_releases]
    exact Nat.zero_add _
  reversed := by
    rw [shape, released_append, released_append, traceUnreleased, unreleased,
      released_releases]
    rfl
  restored := restored

theorem Acquiring.holds_released (acquiring : Acquiring before after trace) :
    (after.releaseEach (acquired trace).reverse).holds = before.holds := by
  funext lock
  rw [LockWorld.holds_releaseEach, acquiring.holds, List.count_reverse, Nat.add_sub_cancel]

theorem closed_of_failed (fresh : before.events = []) (acquiring : Acquiring before after trace) :
    Closed before (after.releaseEach (acquired trace).reverse) trace 0 := by
  refine closed_of_events [] ?_ acquiring.quiet acquiring.unreleased rfl rfl rfl
    acquiring.holds_released
  rw [LockWorld.events_releaseEach, acquiring.events, fresh, List.append_nil]
  rfl

theorem closed_of_granted (body : Body) (fresh : before.events = [])
    (acquiring : Acquiring before after trace) :
    Closed before ((after.run body).releaseEach (acquired trace).reverse) trace 1 := by
  refine closed_of_events [.body] ?_ acquiring.quiet acquiring.unreleased rfl rfl rfl ?_
  · rw [LockWorld.events_releaseEach, LockWorld.run, acquiring.events, fresh]
    rfl
  · have same : ((after.run body).releaseEach (acquired trace).reverse).holds =
        (after.releaseEach (acquired trace).reverse).holds := by
      funext lock
      rw [LockWorld.holds_releaseEach, LockWorld.holds_releaseEach]
      rfl
    rw [same, acquiring.holds_released]

omit [DecidableEq Lock] in
theorem Closed.guarded_of_granted (closed : Closed before after trace 1)
    (ended : Ended locks.toList trace (.ok ())) :
    Guarded locks body before after body.outcome := by
  cases ended with
  | granted all same =>
      have refute : ∀ attempt, attempt ∈ attempts after.events →
          attempt.outcome = .ok true := by
        intro attempt member
        rw [closed.tried] at member
        exact all attempt member
      refine ⟨fun _all => ⟨closed.ran, closed.granted.trans same, rfl⟩, ?_, ?_, ?_, ?_,
        closed.restored⟩
      · rintro ⟨attempt, member, failed⟩
        exact absurd (refute attempt member) failed
      · rintro ⟨attempt, member, failed⟩
        rw [refute attempt member] at failed
        cases failed
      · intro attempt raised member failed
        rw [refute attempt member] at failed
        cases failed
      · rw [closed.reversed, closed.granted]

omit [DecidableEq Lock] in
theorem Closed.guarded_of_failed {raised : PyError} (closed : Closed before after trace 0)
    (ended : Ended locks.toList trace (.error raised)) :
    Guarded locks body before after (.error raised) := by
  cases ended with
  | failed earlier last raised shape granted fails =>
      have failing : ∀ attempt, attempt ∈ attempts after.events →
          attempt.outcome ≠ .ok true → attempt = last := by
        intro attempt member failed
        rw [closed.tried, shape] at member
        rcases List.mem_append.mp member with before | here
        · exact absurd (granted attempt before) failed
        · exact List.mem_singleton.mp here
      refine ⟨?_, fun _failed => closed.ran, ?_, ?_, ?_, closed.restored⟩
      · intro all
        have member : last ∈ attempts after.events := by
          rw [closed.tried, shape]
          exact List.mem_append_right earlier (List.mem_singleton_self last)
        exact absurd (all last member) fails.not_granted
      · rintro ⟨attempt, member, refused⟩
        have same := failing attempt member (by rw [refused]; exact fun equal => by cases equal)
        subst same
        rcases fails with error | ⟨_refused, message, timedOut⟩
        · rw [refused] at error
          cases error
        · exact ⟨message, by rw [timedOut]⟩
      · intro attempt other member error
        have same := failing attempt member (by rw [error]; exact fun equal => by cases equal)
        subst same
        rcases fails with reported | ⟨refused, _message⟩
        · rw [error] at reported
          cases reported
          rfl
        · rw [error] at refused
          cases refused
      · rw [closed.reversed, closed.granted]

/-- A single attempt that failed, with nothing to release. -/
theorem guarded_of_fails {attempt : Attempt Lock} {raised : PyError}
    (fresh : before.events = []) (acquiring : Acquiring before after [.acquire attempt])
    (fails : attempt.Fails raised) : Guarded locks body before after (.error raised) := by
  have closed := closed_of_failed fresh acquiring
  rw [acquired_failed fails.not_granted] at closed
  exact closed.guarded_of_failed (.of_fails fails)

/-- A single lock, acquired from the start. -/
theorem combinedLock_single_guarded (behaviour : LockBehaviour Lock) (blocking : Bool)
    (timeout : ℚ) (lock : Lock) (fresh : before.events = []) :
    Guarded (.single lock) body before
      (combinedLock behaviour blocking timeout (.single lock) body before).2
      (combinedLock behaviour blocking timeout (.single lock) body before).1 := by
  have step := before.acquiring_acquire behaviour lock (.single blocking timeout)
  cases acquireAt : before.acquire behaviour lock (.single blocking timeout) with
  | mk outcome next =>
      have tried : (before.tried behaviour lock (.single blocking timeout)).outcome = outcome :=
        congrArg Prod.fst acquireAt
      rw [acquireAt] at step
      simp only [combinedLock, acquireAt]
      cases outcome with
      | error raised => exact guarded_of_fails fresh step (Or.inl tried)
      | ok granted =>
          cases granted with
          | false => exact guarded_of_fails fresh step (Or.inr ⟨tried, _, rfl⟩)
          | true =>
              have closed := closed_of_granted body fresh step
              rw [acquired_granted tried] at closed
              refine closed.guarded_of_granted (.granted ?_ (acquired_granted tried))
              intro attempt member
              rw [List.mem_singleton.mp member]
              exact tried

/-- Several locks, acquired from the start. -/
theorem combinedLock_each_guarded (behaviour : LockBehaviour Lock) (blocking : Bool)
    (timeout : ℚ) (locks : List Lock) (fresh : before.events = []) :
    Guarded (.each locks) body before
      (combinedLock behaviour blocking timeout (.each locks) body before).2
      (combinedLock behaviour blocking timeout (.each locks) body before).1 := by
  simp only [combinedLock]
  generalize chosen :
    (if blocking = true ∧ timeout ≠ -1 then some (before.monotonic + timeout) else none) =
      deadline
  obtain ⟨trace, acquiring, held, ended⟩ :=
    acquireEach_ended (deadline_ready chosen) locks [] before
  cases loop : acquireEach behaviour blocking timeout deadline locks [] before with
  | mk result rest =>
      obtain ⟨acquiredLocks, world⟩ := rest
      rw [loop] at acquiring held ended
      change acquiredLocks = acquired trace at held
      subst held
      cases result with
      | error raised => exact (closed_of_failed fresh acquiring).guarded_of_failed ended
      | ok done =>
          cases done
          exact (closed_of_granted body fresh acquiring).guarded_of_granted ended

end Uses

/-! ### The shared time budget -/

section Budget

variable {Lock : Type} [DecidableEq Lock] {behaviour : LockBehaviour Lock}

/-- All acquiring was over by the limit. -/
def AcquiredBy (limit : ℚ) (events : List (LockEvent Lock)) : Prop :=
  ∀ attempt, attempt ∈ attempts events → attempt.finished ≤ limit

omit [DecidableEq Lock] in
theorem AcquiredBy.append {limit : ℚ} {first second : List (LockEvent Lock)}
    (earlier : AcquiredBy limit first) (later : AcquiredBy limit second) :
    AcquiredBy limit (first ++ second) := by
  intro attempt member
  rw [attempts_append] at member
  exact (List.mem_append.mp member).elim (earlier attempt) (later attempt)

omit [DecidableEq Lock] in
theorem acquiredBy_of_untried {limit : ℚ} {events : List (LockEvent Lock)}
    (untried : attempts events = []) : AcquiredBy limit events := by
  intro attempt member
  rw [untried] at member
  cases member

theorem acquiredBy_acquire (punctual : behaviour.Punctual) {limit budget : ℚ}
    {world : LockWorld Lock} (inTime : AcquiredBy limit world.events) (lock : Lock)
    {call : AcquireCall} (given : budget ∈ AcquireCall.budget call)
    (fits : world.monotonic + budget ≤ limit) :
    AcquiredBy limit (world.acquire behaviour lock call).2.events ∧
      (world.acquire behaviour lock call).2.monotonic ≤ limit := by
  have quick := punctual world lock call budget given
  have finished : world.monotonic + (behaviour world lock call).elapsed ≤ limit := by linarith
  refine ⟨inTime.append ?_, finished⟩
  intro attempt member
  rw [List.mem_singleton.mp member]
  exact finished

/-- The loop over the locks, by induction on the locks that are left: while time is left,
the next lock is given what is left of it. -/
theorem acquireEach_acquiredBy (punctual : behaviour.Punctual) {timeout limit : ℚ}
    (bounded : timeout ≠ -1) (locks acquiredLocks : List Lock) (world : LockWorld Lock)
    (early : world.monotonic ≤ limit) (inTime : AcquiredBy limit world.events) :
    AcquiredBy limit
      (acquireEach behaviour true timeout (some limit) locks acquiredLocks world).2.2.events := by
  induction locks generalizing acquiredLocks world with
  | nil => exact inTime
  | cons lock rest ih =>
      have chosen : acquireCall true timeout (some limit) world.monotonic =
          .ok (.timed (max 0 (limit - world.monotonic))) := by
        unfold acquireCall
        rw [if_neg (by simp), if_neg bounded]
      have given : ∀ budget, budget ∈ AcquireCall.budget (.timed budget) := fun _budget => rfl
      have left : max 0 (limit - world.monotonic) = limit - world.monotonic :=
        max_eq_right (by linarith)
      obtain ⟨nextInTime, nextEarly⟩ := acquiredBy_acquire punctual inTime lock
        (given (max 0 (limit - world.monotonic))) (by rw [left]; linarith)
      cases acquireAt : world.acquire behaviour lock
          (.timed (max 0 (limit - world.monotonic))) with
      | mk outcome next =>
          rw [acquireAt] at nextInTime nextEarly
          simp only [acquireEach, chosen, acquireAt]
          cases outcome with
          | error raised => exact nextInTime
          | ok granted =>
              cases granted with
              | false => exact nextInTime
              | true => exact ih (acquiredLocks ++ [lock]) next nextEarly nextInTime

theorem LockWorld.acquiredBy_releaseEach {limit : ℚ} {world : LockWorld Lock}
    (inTime : AcquiredBy limit world.events) (locks : List Lock) :
    AcquiredBy limit (world.releaseEach locks).events := by
  rw [events_releaseEach]
  exact inTime.append (acquiredBy_of_untried (attempts_releases locks))

omit [DecidableEq Lock] in
theorem LockWorld.acquiredBy_run {limit : ℚ} {world : LockWorld Lock}
    (inTime : AcquiredBy limit world.events) (body : Body) :
    AcquiredBy limit (world.run body).events :=
  inTime.append (acquiredBy_of_untried rfl)

theorem combinedLock_acquiredBy (punctual : behaviour.Punctual) {timeout : ℚ}
    (nonneg : 0 ≤ timeout) (locks : Locks Lock) (body : Body) (world : LockWorld Lock)
    (fresh : world.events = []) :
    AcquiredBy (world.monotonic + timeout)
      (combinedLock behaviour true timeout locks body world).2.events := by
  have bounded : timeout ≠ -1 := by linarith
  have inTime : AcquiredBy (world.monotonic + timeout) world.events :=
    acquiredBy_of_untried (by rw [fresh]; rfl)
  cases locks with
  | single lock =>
      have given : timeout ∈ AcquireCall.budget (.single true timeout) := by
        simp only [AcquireCall.budget, if_neg bounded, Option.mem_def]
      obtain ⟨nextInTime, _early⟩ := acquiredBy_acquire punctual inTime lock given le_rfl
      simp only [combinedLock]
      cases acquireAt : world.acquire behaviour lock (.single true timeout) with
      | mk outcome next =>
          rw [acquireAt] at nextInTime
          cases outcome with
          | error raised => exact nextInTime
          | ok granted =>
              cases granted with
              | false => exact nextInTime
              | true =>
                  exact LockWorld.acquiredBy_releaseEach
                    (LockWorld.acquiredBy_run nextInTime body) [lock]
  | each locks =>
      have early : world.monotonic ≤ world.monotonic + timeout := by linarith
      have loopInTime := acquireEach_acquiredBy punctual bounded locks [] world early inTime
      simp only [combinedLock]
      rw [if_pos ⟨trivial, bounded⟩]
      cases loop : acquireEach behaviour true timeout (some (world.monotonic + timeout)) locks []
          world with
      | mk result rest =>
          obtain ⟨acquiredLocks, next⟩ := rest
          rw [loop] at loopInTime
          cases result with
          | error raised => exact LockWorld.acquiredBy_releaseEach loopInTime _
          | ok done =>
              exact LockWorld.acquiredBy_releaseEach (LockWorld.acquiredBy_run loopInTime body) _

end Budget

/-! ### Free locks -/

section Free

variable {Lock : Type} [DecidableEq Lock] {behaviour : LockBehaviour Lock}

/-- Every acquire is granted at once. -/
def LockBehaviour.Free (behaviour : LockBehaviour Lock) : Prop :=
  ∀ world lock call, behaviour world lock call = { outcome := .ok true, elapsed := 0 }

theorem acquire_free (free : behaviour.Free) (world : LockWorld Lock) (lock : Lock)
    (call : AcquireCall) :
    (world.acquire behaviour lock call).1 = .ok true ∧
      (world.acquire behaviour lock call).2.monotonic = world.monotonic := by
  unfold LockWorld.acquire
  rw [free]
  exact ⟨rfl, add_zero world.monotonic⟩

theorem acquireEach_free (free : behaviour.Free) {blocking : Bool} {timeout : ℚ}
    {deadline : Option ℚ}
    (ready : blocking = true → timeout ≠ -1 → ∃ limit, deadline = some limit)
    (locks acquiredLocks : List Lock) (world : LockWorld Lock) :
    (acquireEach behaviour blocking timeout deadline locks acquiredLocks world).1 = .ok () ∧
      (acquireEach behaviour blocking timeout deadline locks acquiredLocks world).2.2.monotonic =
        world.monotonic := by
  induction locks generalizing acquiredLocks world with
  | nil => exact ⟨rfl, rfl⟩
  | cons lock rest ih =>
      obtain ⟨call, chosen⟩ := acquireCall_ok ready world.monotonic
      obtain ⟨granted, atOnce⟩ := acquire_free free world lock call
      cases acquireAt : world.acquire behaviour lock call with
      | mk outcome next =>
          rw [acquireAt] at granted atOnce
          subst granted
          obtain ⟨finished, unchanged⟩ := ih (acquiredLocks ++ [lock]) next
          simp only [acquireEach, chosen, acquireAt]
          exact ⟨finished, unchanged.trans atOnce⟩

theorem monotonic_releaseEach (world : LockWorld Lock) (locks : List Lock) :
    (world.releaseEach locks).monotonic = world.monotonic := by
  induction locks generalizing world with
  | nil => rfl
  | cons lock rest ih => exact ih (world.release lock)

/-- A section under free locks is its body, which is how the limiter's acquire path is read. -/
theorem combinedLock_free (free : behaviour.Free) (blocking : Bool) (timeout : ℚ)
    (locks : Locks Lock) (body : Body) (world : LockWorld Lock) :
    (combinedLock behaviour blocking timeout locks body world).1 = body.outcome ∧
      (combinedLock behaviour blocking timeout locks body world).2.monotonic =
        world.monotonic + body.elapsed := by
  cases locks with
  | single lock =>
      obtain ⟨granted, atOnce⟩ := acquire_free free world lock (.single blocking timeout)
      cases acquireAt : world.acquire behaviour lock (.single blocking timeout) with
      | mk outcome next =>
          rw [acquireAt] at granted atOnce
          subst granted
          simp only [combinedLock, acquireAt]
          exact ⟨trivial, congrArg (· + body.elapsed) atOnce⟩
  | each locks =>
      simp only [combinedLock]
      generalize chosen :
        (if blocking = true ∧ timeout ≠ -1 then some (world.monotonic + timeout) else none) =
          deadline
      obtain ⟨granted, atOnce⟩ :=
        acquireEach_free free (deadline_ready chosen) locks [] world
      cases loop : acquireEach behaviour blocking timeout deadline locks [] world with
      | mk result rest =>
          obtain ⟨acquiredLocks, next⟩ := rest
          rw [loop] at granted atOnce
          change result = .ok () at granted
          subst granted
          refine ⟨rfl, ?_⟩
          change ((next.run body).releaseEach acquiredLocks.reverse).monotonic = _
          rw [monotonic_releaseEach]
          exact congrArg (· + body.elapsed) atOnce

end Free

/-- The body runs exactly under all locks, a failed acquire is raised, what was acquired is
released in reverse order, and the locks share one time budget. -/
theorem combined_lock_guards {Lock : Type} [DecidableEq Lock] (behaviour : LockBehaviour Lock)
    (locks : Locks Lock) (blocking : Bool) (timeout : ℚ) (body : Body) (monotonic : ℚ)
    (holds : Lock → Nat) :
    Guarded locks body (LockWorld.start monotonic holds)
      (combinedLock behaviour blocking timeout locks body (LockWorld.start monotonic holds)).2
      (combinedLock behaviour blocking timeout locks body (LockWorld.start monotonic holds)).1 ∧
    (blocking = true → 0 ≤ timeout → behaviour.Punctual →
      AcquiredBy (monotonic + timeout)
        (combinedLock behaviour blocking timeout locks body
          (LockWorld.start monotonic holds)).2.events) := by
  constructor
  · cases locks with
    | single lock => exact combinedLock_single_guarded behaviour blocking timeout lock rfl
    | each locks => exact combinedLock_each_guarded behaviour blocking timeout locks rfl
  · intro blocks nonneg punctual
    subst blocks
    exact combinedLock_acquiredBy punctual nonneg locks body _ rfl

/-- A lock that another thread holds: an acquire with a time budget uses all of it and fails;
the other locks are granted at once. -/
def busyLock : LockBehaviour String := fun _world lock call =>
  if lock = "busy" then
    { outcome := .ok false
      elapsed := call.budget.getD 0 }
  else
    { outcome := .ok true
      elapsed := min 0 (call.budget.getD 0) }

theorem busyLock_punctual : busyLock.Punctual := by
  intro world lock call budget given
  have known : call.budget.getD 0 = budget := by
    rw [Option.mem_def.mp given]
    rfl
  unfold busyLock
  rw [known]
  split
  · exact le_rfl
  · exact min_le_right 0 _

theorem combined_lock_guards_busy :
    Guarded (.each ["free", "busy", "late"]) ⟨.ok (), 0⟩ (LockWorld.start 7 fun _lock => 0)
      (combinedLock busyLock true 2 (.each ["free", "busy", "late"]) ⟨.ok (), 0⟩
        (LockWorld.start 7 fun _lock => 0)).2
      (combinedLock busyLock true 2 (.each ["free", "busy", "late"]) ⟨.ok (), 0⟩
        (LockWorld.start 7 fun _lock => 0)).1 ∧
    AcquiredBy (7 + 2)
      (combinedLock busyLock true 2 (.each ["free", "busy", "late"]) ⟨.ok (), 0⟩
        (LockWorld.start 7 fun _lock => 0)).2.events := by
  obtain ⟨guarded, inTime⟩ := combined_lock_guards busyLock (.each ["free", "busy", "late"]) true
    2 ⟨.ok (), 0⟩ 7 (fun _lock => 0)
  exact ⟨guarded, inTime rfl (by norm_num) busyLock_punctual⟩

end PyrateLimiter

/-
Requests that threads send through the rate limited HTTP sessions of a limiter over an
in-memory bucket.

`request` of the requests session and `handle_request` of the transports call `try_acquire`
with its defaults, do not look at what it returns, and send.  That is sound only because
such a call is answered at once, has no timeout, never gives up and always fits: every
request that is sent has an admitted item of its own.
-/

import PyrateLimiter.RetryProgress

namespace PyrateLimiter

open Foundations.TransitionSystem

/-- A request on its way, with the place among the admitted items of the one that its call
of `try_acquire` added. -/
structure Dispatch where
  name : String
  clock : Int
  permit : Nat
  deriving DecidableEq, Repr

inductive TrafficAction (Thread : Type) where
  | run (action : Action Thread)
  | request (thread : Thread) (name : String)
  | send (thread : Thread)
  deriving DecidableEq, Repr

/-- Threads that share a limiter over an in-memory bucket, some of their calls made by a
session's `request`. -/
structure Traffic (Thread : Type) extends Progress Thread where
  requested : Thread → Option String
  permit : Thread → Nat
  sent : List Dispatch

namespace Traffic

variable {Thread : Type}

def start (rates : RateList) (clock : Int) : Traffic Thread :=
  { toProgress := Progress.start rates clock
    requested := fun _ => none
    permit := fun _ => 0
    sent := [] }

/-- A request makes no other call meanwhile, and its own has no timeout. -/
def allows (traffic : Traffic Thread) : Action Thread → Bool
  | .acquireLock thread _ | .failLock thread | .timeOut thread =>
      (traffic.requested thread).isNone
  | _ => true

def FreshRetry (traffic : Traffic Thread) : TrafficAction Thread → Prop
  | .run action => traffic.toProgress.FreshRetry action
  | .request _ _ | .send _ => True

instance (traffic : Traffic Thread) (action : TrafficAction Thread) :
    Decidable (traffic.FreshRetry action) :=
  match action with
  | .run action => inferInstanceAs (Decidable (traffic.toProgress.FreshRetry action))
  | .request _ _ | .send _ => .isTrue trivial

/-- The item is of the request's name, of weight one and not from the future. -/
def Pays (admitted : List RateItem) (name : String) (clock : Int) (permit : Nat) : Prop :=
  ∃ item, admitted[permit]? = some item ∧ item.name = name ∧ item.weight = 1 ∧
    item.timestamp ≤ clock

/-- Every request that was sent has an admitted item that no other one has. -/
structure RequestsPaid (traffic : Traffic Thread) : Prop where
  distinct : (traffic.sent.map Dispatch.permit).Nodup
  paid : ∀ dispatch, dispatch ∈ traffic.sent →
    Pays traffic.system.admitted dispatch.name dispatch.clock dispatch.permit

variable [DecidableEq Thread]

def permitAfter (traffic : Traffic Thread) : Action Thread → Thread → Nat
  | .put thread => Function.update traffic.permit thread traffic.system.admitted.length
  | _ => traffic.permit

def step (bufferMs : Nat) (traffic : Traffic Thread) :
    TrafficAction Thread → Option (Traffic Thread)
  | .run action =>
      if traffic.allows action then
        match traffic.toProgress.step bufferMs action with
        | none => none
        | some progress =>
            some { traffic with toProgress := progress, permit := traffic.permitAfter action }
      else none
  | .request thread name =>
      match traffic.requested thread,
        traffic.toProgress.step bufferMs (.acquireLock thread ⟨name, 1, true⟩) with
      | none, some progress =>
          some
            { traffic with
              toProgress := progress
              requested := Function.update traffic.requested thread (some name) }
      | _, _ => none
  | .send thread =>
      match traffic.requested thread, traffic.system.phase thread with
      | some name, .finished (.returned _) =>
          some
            { traffic with
              requested := Function.update traffic.requested thread none
              sent := traffic.sent ++
                [{ name := name
                   clock := traffic.system.clock
                   permit := traffic.permit thread }] }
      -- What `try_acquire` raises leaves `request` before it sends.
      | some _, .finished (.raised _) =>
          some { traffic with requested := Function.update traffic.requested thread none }
      | _, _ => none

end Traffic

/-! ### What a request's call knows -/

namespace Phase

def Serves (name : String) : Phase → Prop
  | .idle => False
  | .entered request => request = ⟨name, 1, true⟩
  | .stamped item blocking => item.name = name ∧ item.weight = 1 ∧ blocking = true
  | .refused item | .planned item _ | .sleeping item _ _ | .resumed item =>
      item.name = name ∧ item.weight = 1
  | .leaving verdict | .finished verdict => verdict = .returned true

/-- The call's last put is behind it. -/
def isOver : Phase → Bool
  | .leaving _ | .finished _ => true
  | _ => false

variable {name : String} {phase : Phase}

theorem Serves.pending {item : RateItem} {blocking : Bool} (serves : phase.Serves name)
    (current : phase.pending = some (item, blocking)) :
    item.name = name ∧ item.weight = 1 ∧ blocking = true := by
  cases phase with
  | stamped stamped first =>
      cases current
      exact serves
  | resumed resumed =>
      cases current
      exact ⟨serves.1, serves.2, rfl⟩
  | _ => cases current

end Phase

namespace Traffic

variable {Thread : Type}

theorem Pays.grown {admitted added : List RateItem} {name : String} {clock later : Int}
    {permit : Nat} (pays : Pays admitted name clock permit) (reached : clock ≤ later) :
    Pays (admitted ++ added) name later permit := by
  obtain ⟨item, present, named, single, past⟩ := pays
  obtain ⟨inside, _same⟩ := List.getElem?_eq_some_iff.mp present
  exact ⟨item, by rw [List.getElem?_append_left inside]; exact present, named, single,
    Int.le_trans past reached⟩

def HasPermit (traffic : Traffic Thread) (thread : Thread) : Prop :=
  (traffic.requested thread).isSome = true ∧ (traffic.system.phase thread).isOver = true

structure Permitted (rates : RateList) (traffic : Traffic Thread) : Prop where
  advances : traffic.toProgress.RetriesAdvance rates
  serves : ∀ thread name, traffic.requested thread = some name →
    (traffic.system.phase thread).Serves name
  pays : ∀ thread name, traffic.requested thread = some name → traffic.HasPermit thread →
    Pays traffic.system.admitted name traffic.system.clock (traffic.permit thread)
  unspent : ∀ thread, traffic.HasPermit thread →
    ∀ dispatch, dispatch ∈ traffic.sent → dispatch.permit ≠ traffic.permit thread
  apart : ∀ thread other, traffic.HasPermit thread → traffic.HasPermit other →
    traffic.permit thread = traffic.permit other → thread = other
  requestsPaid : traffic.RequestsPaid

namespace Permitted

variable {rates : RateList} {before after : Traffic Thread}

theorem start (clock : Int) : Permitted rates (Traffic.start rates clock : Traffic Thread) where
  advances := Progress.RetriesAdvance.start clock
  serves := fun _thread _name impossible => by cases impossible
  pays := fun _thread _name impossible => by cases impossible
  unspent := fun _thread _permit _dispatch impossible => by cases impossible
  apart := fun _thread _other permit => by cases permit.1
  requestsPaid := ⟨List.nodup_nil, fun _dispatch impossible => by cases impossible⟩

/-- A step that grants no permit and spends none. -/
theorem kept (permitted : before.Permitted rates) (advances : after.toProgress.RetriesAdvance rates)
    {added : List RateItem} (grown : after.system.admitted = before.system.admitted ++ added)
    (later : before.system.clock ≤ after.system.clock) (sameSent : after.sent = before.sent)
    (serves : ∀ thread name, after.requested thread = some name →
      (after.system.phase thread).Serves name)
    (had : ∀ thread, after.HasPermit thread → before.HasPermit thread ∧
      after.permit thread = before.permit thread ∧
        after.requested thread = before.requested thread) : after.Permitted rates where
  advances := advances
  serves := serves
  pays := by
    intro thread name named permit
    obtain ⟨held, same, requested⟩ := had thread permit
    rw [grown, same]
    rw [requested] at named
    exact (permitted.pays thread name named held).grown later
  unspent := by
    intro thread permit
    obtain ⟨held, same, _requested⟩ := had thread permit
    rw [sameSent, same]
    exact permitted.unspent thread held
  apart := by
    intro thread other first second equal
    obtain ⟨held, same, _requested⟩ := had thread first
    obtain ⟨otherHeld, otherSame, _otherRequested⟩ := had other second
    rw [same, otherSame] at equal
    exact permitted.apart thread other held otherHeld equal
  requestsPaid := by
    refine ⟨?_, ?_⟩
    · rw [sameSent]
      exact permitted.requestsPaid.distinct
    · rw [sameSent, grown]
      intro dispatch member
      exact (permitted.requestsPaid.paid dispatch member).grown (Int.le_refl _)

variable [DecidableEq Thread]

/-- A step of one thread's call, into a phase that is over only if the one before was. -/
theorem moved (permitted : before.Permitted rates)
    (advances : after.toProgress.RetriesAdvance rates) {thread : Thread} {phase : Phase}
    (updated : after.system.phase = Function.update before.system.phase thread phase)
    (sameAdmitted : after.system.admitted = before.system.admitted)
    (sameClock : after.system.clock = before.system.clock) (sameSent : after.sent = before.sent)
    (sameRequested : after.requested = before.requested)
    (samePermit : ∀ other, before.HasPermit other → after.permit other = before.permit other)
    (serves : ∀ name, before.requested thread = some name → phase.Serves name)
    (isOver : before.requested thread ≠ none → phase.isOver = true →
      (before.system.phase thread).isOver = true) : after.Permitted rates := by
  refine permitted.kept advances (by rw [sameAdmitted, List.append_nil])
    (Int.le_of_eq sameClock.symm) sameSent ?_ ?_
  · intro other name named
    rw [sameRequested] at named
    rw [updated]
    by_cases same : other = thread
    · subst same
      rw [Function.update_self]
      exact serves name named
    · rw [Function.update_of_ne same]
      exact permitted.serves other name named
  · intro other permit
    have held : before.HasPermit other := by
      obtain ⟨requested, finished⟩ := permit
      rw [sameRequested] at requested
      rw [updated] at finished
      refine ⟨requested, ?_⟩
      by_cases same : other = thread
      · subst same
        rw [Function.update_self] at finished
        exact isOver (Option.isSome_iff_ne_none.mp requested) finished
      · rw [Function.update_of_ne same] at finished
        exact finished
    exact ⟨held, samePermit other held, congrFun sameRequested other⟩

/-- An admitted put gives its call a permit that nobody else has. -/
theorem granted (permitted : before.Permitted rates)
    (advances : after.toProgress.RetriesAdvance rates) {thread : Thread} {item : RateItem}
    {blocking : Bool} (current : (before.system.phase thread).pending = some (item, blocking))
    (updated : after.system.phase =
      Function.update before.system.phase thread (.leaving (.returned true)))
    (grown : after.system.admitted = before.system.admitted ++ [item])
    (sameClock : after.system.clock = before.system.clock) (sameSent : after.sent = before.sent)
    (sameRequested : after.requested = before.requested)
    (permits : after.permit =
      Function.update before.permit thread before.system.admitted.length) :
    after.Permitted rates := by
  have past := ((permitted.advances.records.sound thread).pending current).2
  have fresh : ∀ name clock permit, Pays before.system.admitted name clock permit →
      permit ≠ before.system.admitted.length := by
    rintro name clock permit ⟨_item, present, _known⟩ same
    obtain ⟨inside, _at⟩ := List.getElem?_eq_some_iff.mp present
    omega
  have others : ∀ other, other ≠ thread → after.HasPermit other → before.HasPermit other := by
    rintro other different ⟨requested, finished⟩
    rw [sameRequested] at requested
    rw [updated, Function.update_of_ne different] at finished
    exact ⟨requested, finished⟩
  have paidBefore : ∀ other, before.HasPermit other →
      before.permit other ≠ before.system.admitted.length := by
    intro other held
    obtain ⟨name, named⟩ := Option.isSome_iff_exists.mp held.1
    exact fresh name _ _ (permitted.pays other name named held)
  exact
    { advances := advances
      serves := by
        intro other name named
        rw [sameRequested] at named
        rw [updated]
        by_cases same : other = thread
        · subst same
          rw [Function.update_self]
          rfl
        · rw [Function.update_of_ne same]
          exact permitted.serves other name named
      pays := by
        intro other name named permit
        rw [sameRequested] at named
        rw [permits, grown, sameClock]
        by_cases same : other = thread
        · subst same
          rw [Function.update_self]
          obtain ⟨named, single, _first⟩ := (permitted.serves other name named).pending current
          exact ⟨item, List.getElem?_concat_length, named, single, past⟩
        · rw [Function.update_of_ne same]
          exact (permitted.pays other name named (others other same permit)).grown (Int.le_refl _)
      unspent := by
        intro other permit dispatch member
        rw [sameSent] at member
        rw [permits]
        by_cases same : other = thread
        · subst same
          rw [Function.update_self]
          exact fresh _ _ _ (permitted.requestsPaid.paid dispatch member)
        · rw [Function.update_of_ne same]
          exact permitted.unspent other (others other same permit) dispatch member
      apart := by
        intro first second held secondHeld equal
        rw [permits] at equal
        by_cases same : first = thread
        · subst same
          by_cases also : second = first
          · exact also.symm
          · rw [Function.update_self, Function.update_of_ne also] at equal
            exact absurd equal.symm (paidBefore second (others second also secondHeld))
        · rw [Function.update_of_ne same] at equal
          by_cases also : second = thread
          · subst also
            rw [Function.update_self] at equal
            exact absurd equal (paidBefore first (others first same held))
          · rw [Function.update_of_ne also] at equal
            exact permitted.apart first second (others first same held)
              (others second also secondHeld) equal
      requestsPaid := by
        refine ⟨?_, ?_⟩
        · rw [sameSent]
          exact permitted.requestsPaid.distinct
        · rw [sameSent, grown]
          intro dispatch member
          exact (permitted.requestsPaid.paid dispatch member).grown (Int.le_refl _) }

theorem send (permitted : before.Permitted rates) {thread : Thread} {name : String}
    (named : before.requested thread = some name) (held : before.HasPermit thread)
    (sameProgress : after.toProgress = before.toProgress)
    (samePermit : after.permit = before.permit)
    (done : after.requested = Function.update before.requested thread none)
    (sent : after.sent = before.sent ++
      [{ name := name, clock := before.system.clock, permit := before.permit thread }]) :
    after.Permitted rates := by
  have others : ∀ other, after.HasPermit other → other ≠ thread ∧ before.HasPermit other := by
    rintro other ⟨requested, finished⟩
    rw [sameProgress] at finished
    rw [done] at requested
    by_cases same : other = thread
    · subst same
      rw [Function.update_self] at requested
      cases requested
    · rw [Function.update_of_ne same] at requested
      exact ⟨same, requested, finished⟩
  have still : ∀ other otherName, after.requested other = some otherName →
      before.requested other = some otherName := by
    intro other otherName requested
    rw [done] at requested
    by_cases same : other = thread
    · subst same
      rw [Function.update_self] at requested
      cases requested
    · rw [Function.update_of_ne same] at requested
      exact requested
  exact
    { advances := by rw [sameProgress]; exact permitted.advances
      serves := by
        intro other otherName requested
        rw [sameProgress]
        exact permitted.serves other otherName (still other otherName requested)
      pays := by
        intro other otherName requested permit
        rw [sameProgress, samePermit]
        exact permitted.pays other otherName (still other otherName requested)
          (others other permit).2
      unspent := by
        intro other permit dispatch member
        obtain ⟨different, heldBefore⟩ := others other permit
        rw [samePermit]
        rw [sent] at member
        rcases List.mem_append.mp member with old | new
        · exact permitted.unspent other heldBefore dispatch old
        · rw [List.mem_singleton.mp new]
          exact fun same => different (permitted.apart thread other held heldBefore same).symm
      apart := by
        intro first second permit secondPermit equal
        rw [samePermit] at equal
        exact permitted.apart first second (others first permit).2 (others second secondPermit).2
          equal
      requestsPaid := by
        refine ⟨?_, ?_⟩
        · rw [sent, List.map_append, List.map_singleton]
          refine List.nodup_append.mpr ⟨permitted.requestsPaid.distinct, List.nodup_singleton _, ?_⟩
          intro old present new single
          obtain ⟨dispatch, member, spends⟩ := List.mem_map.mp present
          rw [← spends, List.mem_singleton.mp single]
          exact permitted.unspent thread held dispatch member
        · rw [sent, sameProgress]
          intro dispatch member
          rcases List.mem_append.mp member with old | new
          · exact permitted.requestsPaid.paid dispatch old
          · rw [List.mem_singleton.mp new]
            exact permitted.pays thread name named held }

theorem run {bufferMs : Nat} {action : Action Thread} {progress : Progress Thread}
    (permitted : before.Permitted rates) (allowed : before.allows action = true)
    (fresh : before.toProgress.FreshRetry action)
    (taken : before.toProgress.step bufferMs action = some progress) :
    Permitted rates
      { before with toProgress := progress, permit := before.permitAfter action } := by
  have advances := permitted.advances.step fresh taken
  have records := permitted.advances.records
  have moved := (Progress.step_eq taken).1
  have free : ∀ thread, (before.requested thread).isNone = true →
      ∀ name, before.requested thread ≠ some name := by
    intro thread none name named
    rw [named] at none
    cases none
  obtain ⟨system, tally⟩ := progress
  cases System.step_cases moved with
  | tick now later =>
      exact permitted.kept advances (List.append_nil _).symm later rfl permitted.serves
        (fun _thread held => ⟨held, rfl, rfl⟩)
  | acquireLock thread request outside unheld =>
      exact permitted.moved advances rfl rfl rfl rfl rfl (fun _other _held => rfl)
        (fun name named => absurd named (free thread allowed name))
        (fun _requested isOver => by cases isOver)
  | failLock thread outside =>
      exact permitted.moved advances rfl rfl rfl rfl rfl (fun _other _held => rfl)
        (fun name named => absurd named (free thread allowed name))
        (fun requested _over => absurd (Option.isNone_iff_eq_none.mp allowed) requested)
  | wrapItem thread request current =>
      refine permitted.moved advances rfl rfl rfl rfl rfl (fun _other _held => rfl) ?_ ?_
      · intro name named
        have known := permitted.serves thread name named
        rw [current] at known
        cases known
        exact ⟨rfl, rfl, rfl⟩
      · intro requested isOver
        obtain ⟨name, named⟩ := Option.ne_none_iff_exists'.mp requested
        have known := permitted.serves thread name named
        rw [current] at known
        cases known
        cases isOver
  | put thread item blocking current =>
      have positive := ((records.sound thread).pending current).1
      rcases InMemoryBucket.put_cases records.sorted item positive with
        ⟨_room, outcome⟩ | ⟨rate, _refusing, outcome⟩
      · have updated : Phase.afterPut item (before.system.bucket.put item).1 blocking =
            .leaving (.returned true) := by
          rw [outcome]
          rfl
        refine permitted.granted advances current
          (congrArg (Function.update before.system.phase thread) updated) ?_ rfl rfl rfl rfl
        simp only [outcome, if_true]
      · have updated : Phase.afterPut item (before.system.bucket.put item).1 blocking =
            Phase.afterPut item false blocking := by
          rw [outcome]
        refine permitted.moved advances
          (congrArg (Function.update before.system.phase thread) updated) ?_ rfl rfl rfl ?_ ?_ ?_
        · simp only [outcome, Bool.false_eq_true, if_false]
        · intro other held
          refine Function.update_of_ne ?_ _ _
          intro same
          subst same
          have isOver := held.2
          cases phase : before.system.phase other with
          | stamped stamped first => rw [phase] at isOver; cases isOver
          | resumed resumed => rw [phase] at isOver; cases isOver
          | _ => rw [phase] at current; cases current
        · intro name named
          obtain ⟨rightName, single, first⟩ := (permitted.serves thread name named).pending current
          rw [first]
          exact ⟨rightName, single⟩
        · intro requested isOver
          obtain ⟨name, named⟩ := Option.ne_none_iff_exists'.mp requested
          rw [((permitted.serves thread name named).pending current).2.2] at isOver
          cases isOver
  | computeWait thread item current =>
      have weighty := records.sound thread
      have known := permitted.advances.advances thread
      rw [current] at weighty known
      obtain ⟨rate, denied⟩ := known
      obtain ⟨waitMs, answered, _advances⟩ := denied.answered records.sorted weighty.1
      refine permitted.moved advances rfl rfl rfl rfl rfl (fun _other _held => rfl) ?_ ?_
      · intro name named
        have serves := permitted.serves thread name named
        rw [current] at serves
        rw [answered]
        exact serves
      · intro _requested isOver
        rw [answered] at isOver
        cases isOver
  | leave thread verdict current =>
      refine permitted.moved advances rfl rfl rfl rfl rfl (fun _other _held => rfl) ?_ ?_
      · intro name named
        have serves := permitted.serves thread name named
        rw [current] at serves
        exact serves
      · intro _requested _over
        rw [current]
        rfl
  | plan thread item waitMs current =>
      have known := permitted.advances.advances thread
      rw [current] at known
      have sleeps : ∀ name, before.requested thread = some name →
          Phase.afterPlanning bufferMs before.system.clock item waitMs =
            .sleeping item (waitMs + bufferMs) (before.system.clock + (waitMs + bufferMs)) := by
        intro name named
        have serves := permitted.serves thread name named
        rw [current] at serves
        have fits := rates.first.limit_pos
        rcases known with ⟨_never, heavy, _paid⟩ | ⟨nonneg, _known⟩
        · have single := serves.2
          omega
        · unfold Phase.afterPlanning
          rw [delayToSleepMs_of_nonneg bufferMs nonneg]
      refine permitted.moved advances rfl rfl rfl rfl rfl (fun _other _held => rfl) ?_ ?_
      · intro name named
        have serves := permitted.serves thread name named
        rw [current] at serves
        rw [sleeps name named]
        exact serves
      · intro requested isOver
        obtain ⟨name, named⟩ := Option.ne_none_iff_exists'.mp requested
        rw [sleeps name named] at isOver
        cases isOver
  | resume thread item sleepMs wakeAt current unheld awake =>
      refine permitted.moved advances rfl rfl rfl rfl rfl (fun _other _held => rfl) ?_
        (fun _requested isOver => by cases isOver)
      intro name named
      have serves := permitted.serves thread name named
      rw [current] at serves
      exact serves
  | timeOut thread outside =>
      exact permitted.moved advances rfl rfl rfl rfl rfl (fun _other _held => rfl)
        (fun name named => absurd named (free thread allowed name))
        (fun requested _over => absurd (Option.isNone_iff_eq_none.mp allowed) requested)
  | leakerNow =>
      exact permitted.kept advances (List.append_nil _).symm (Int.le_refl _) rfl permitted.serves
        (fun _thread held => ⟨held, rfl, rfl⟩)
  | leakerLeak now reading =>
      exact permitted.kept advances (List.append_nil _).symm (Int.le_refl _) rfl permitted.serves
        (fun _thread held => ⟨held, rfl, rfl⟩)

theorem request {bufferMs : Nat} {thread : Thread} {name : String} {progress : Progress Thread}
    (permitted : before.Permitted rates) (unasked : before.requested thread = none)
    (taken : before.toProgress.step bufferMs (.acquireLock thread ⟨name, 1, true⟩) =
      some progress) :
    Permitted rates
      { before with
        toProgress := progress
        requested := Function.update before.requested thread (some name) } := by
  have fresh : before.toProgress.FreshRetry (.acquireLock thread ⟨name, 1, true⟩) := trivial
  have advances := permitted.advances.step fresh taken
  have moved := (Progress.step_eq taken).1
  obtain ⟨system, tally⟩ := progress
  cases System.step_cases moved with
  | acquireLock _thread _request outside unheld =>
      refine permitted.kept advances (List.append_nil _).symm (Int.le_refl _) rfl ?_ ?_
      · intro other otherName named
        by_cases same : other = thread
        · subst same
          simp only [Function.update_self, Option.some.injEq] at named
          subst named
          simp only [System.move, Function.update_self]
          rfl
        · simp only [Function.update_of_ne same] at named
          simp only [System.move, Function.update_of_ne same]
          exact permitted.serves other otherName named
      · rintro other ⟨requested, isOver⟩
        by_cases same : other = thread
        · subst same
          simp only [System.move, Function.update_self] at isOver
          cases isOver
        · simp only [System.move, Function.update_of_ne same] at requested isOver
          exact ⟨⟨requested, isOver⟩, rfl, Function.update_of_ne same _ _⟩

theorem step {bufferMs : Nat} {action : TrafficAction Thread} (permitted : before.Permitted rates)
    (fresh : before.FreshRetry action) (taken : before.step bufferMs action = some after) :
    after.Permitted rates := by
  cases action with
  | run action =>
      simp only [Traffic.step] at taken
      split at taken
      · rename_i allowed
        split at taken
        · cases taken
        · rename_i progress moved
          cases taken
          exact permitted.run allowed fresh moved
      · cases taken
  | request thread name =>
      simp only [Traffic.step] at taken
      split at taken
      · rename_i progress unasked moved
        cases taken
        exact permitted.request unasked moved
      · cases taken
  | send thread =>
      simp only [Traffic.step] at taken
      split at taken
      · rename_i name acquired named finished
        cases taken
        have held : before.HasPermit thread := ⟨by rw [named]; rfl, by rw [finished]; rfl⟩
        exact permitted.send named held rfl rfl rfl rfl
      · rename_i name raised named finished
        -- A request's call never raises.
        have serves := permitted.serves thread name named
        rw [finished] at serves
        cases serves
      · cases taken

end Permitted

end Traffic

end PyrateLimiter

/-
Deadlines of acquires over an asynchronous Redis bucket.

A deadline cancels what a call awaits, and a script may be on its way then, or
may already have run with its reply still to be taken.  The server runs a script
that it was sent even if nobody waits for the reply.  The members of the sorted
set are attributed to the call whose script added them last.
-/

import PyrateLimiter.RedisTasks

namespace PyrateLimiter

open Foundations.SortedSets
open Foundations.TransitionSystem

/-- The messages and deadlines of calls.  A call of `task` is a step of the client's
event loop or of the server for a call that still waits. -/
inductive ExchangeAction (Call : Type) where
  | task (action : TaskAction Call)
  | timeOut (call : Call)
  | runAbandoned (index : Nat) (id : String)
  | othersPut (item : RateItem) (id : String)
  | leak (currentTimestamp : Int)
  | flush

structure Exchange (Call : Type) where
  loop : EventLoop Call
  /-- Scripts that were sent for calls that no longer wait for them. -/
  abandoned : List (Call × RateItem)
  /-- The call whose script added a member last, if it was one of these calls. -/
  owner : String → Option Call

namespace Exchange

variable {Call : Type}

def start (rates : RateList) (set : RedisSet) : Exchange Call :=
  { loop := EventLoop.start rates set
    abandoned := []
    owner := fun _ => none }

/-- Some unit of the call is in the sorted set. -/
def Stores (exchange : Exchange Call) (call : Call) : Prop :=
  ∃ entry, entry ∈ exchange.loop.set.entries ∧ exchange.owner entry.1 = some call

def FalseStoresNothing (exchange : Exchange Call) : Prop :=
  ∀ call, exchange.loop.phase call = .finished (.returned false) → ¬exchange.Stores call

/-- Who the members of the set belong to after a script that may add members. -/
def ownerAfter (exchange : Exchange Call) (item : RateItem) (id : String)
    (adder : Option Call) : String → Option Call :=
  match RedisBucket.checkAndInsert exchange.loop.bucket.rates exchange.loop.set item id with
  | some (none, _) => fun name =>
      if name ∈ (RedisBucket.newMembers item id).map Prod.fst then adder
      else exchange.owner name
  | _ => exchange.owner

/-- The server runs a script whose reply nobody here takes. -/
def runScript (exchange : Exchange Call) (item : RateItem) (id : String)
    (adder : Option Call) : Option (Exchange Call) := do
  let (_, set) ←
    RedisBucket.checkAndInsert exchange.loop.bucket.rates exchange.loop.set item id
  some
    { exchange with
      loop := { exchange.loop with set := set }
      owner := exchange.ownerAfter item id adder }

variable [DecidableEq Call]

/-- Every call is made once; what other clients do to the set has its own actions. -/
def taskStep (bufferMs : Nat) (exchange : Exchange Call) (action : TaskAction Call) :
    Option (Exchange Call) :=
  match exchange.loop.step bufferMs action with
  | none => none
  | some loop =>
      match action with
      | .call call _ =>
          match exchange.loop.phase call with
          | .idle => some { exchange with loop := loop }
          | _ => none
      | .runScript call id =>
          match exchange.loop.phase call with
          | .putSent item _ =>
              some
                { exchange with
                  loop := loop
                  owner := exchange.ownerAfter item id (some call) }
          | _ => none
      | .othersChange _ => none
      | .receivePut _ | .runRange _ | .receiveRange _ | .wake _ =>
          some { exchange with loop := loop }

def step (bufferMs : Nat) (exchange : Exchange Call) :
    ExchangeAction Call → Option (Exchange Call)
  | .task action => exchange.taskStep bufferMs action
  | .timeOut call =>
      let timedOut := { exchange with loop := exchange.loop.move call (.finished (.returned false)) }
      match exchange.loop.phase call with
      | .finished _ => none
      | .putSent item _ => some { timedOut with abandoned := exchange.abandoned ++ [(call, item)] }
      | .idle | .putReplied _ _ _ | .rangeSent _ _ | .rangeReplied _ _ | .sleeping _ _ =>
          some timedOut
  | .runAbandoned index id =>
      match exchange.abandoned[index]? with
      | none => none
      | some (call, item) =>
          { exchange with abandoned := exchange.abandoned.eraseIdx index }.runScript item id
            (some call)
  | .othersPut item id => exchange.runScript item id none
  | .leak currentTimestamp =>
      some
        { exchange with
          loop :=
            { exchange.loop with
              set := (exchange.loop.bucket.leak exchange.loop.set currentTimestamp).2 } }
  | .flush =>
      let (bucket, set) := exchange.loop.bucket.flush exchange.loop.set
      some { exchange with loop := { exchange.loop with bucket := bucket, set := set } }

/-- No deadline fires while units of its call are in the set, and a script that is
run after its call was timed out finds no space. -/
def Timely (exchange : Exchange Call) : ExchangeAction Call → Prop
  | .timeOut call => ¬exchange.Stores call
  | .runAbandoned index _ => ∀ call item, exchange.abandoned[index]? = some (call, item) →
      ∃ rate, rate ∈ exchange.loop.bucket.rates ∧
        RedisBucket.lacksSpace exchange.loop.set item rate = true
  | _ => True

end Exchange

/-! ### Calls in flight -/

namespace TaskPhase

def Weighty : TaskPhase → Prop
  | .putSent item _ | .putReplied item _ _ | .rangeSent item _ | .rangeReplied item _
  | .sleeping item _ => 1 ≤ item.weight
  | .idle | .finished _ => True

/-- The phases in which a script of the call has been admitted. -/
def mayStore : TaskPhase → Bool
  | .putReplied _ _ none | .finished (.returned true) => true
  | _ => false

theorem weighty_afterDelay (bufferMs : Nat) {item : RateItem} (positive : 1 ≤ item.weight)
    (delay : Int) : (afterDelay bufferMs item delay).Weighty := by
  unfold afterDelay
  cases delayToSleepMs bufferMs delay with
  | none => trivial
  | some sleepMs => exact positive

theorem weighty_afterWaitingFinish (bufferMs : Nat) {item : RateItem}
    (positive : 1 ≤ item.weight) (answer : Except PyError Int) :
    (afterWaitingFinish bufferMs item answer).Weighty := by
  cases answer with
  | error raised => trivial
  | ok delay => exact weighty_afterDelay bufferMs positive delay

theorem weighty_afterPutReply (bufferMs : Nat) {item : RateItem} (positive : 1 ≤ item.weight)
    (first : Bool) (failingRate : Option Rate) :
    (afterPutReply bufferMs item first failingRate).Weighty := by
  have proceeds : ∀ started : Except PyError Waiting,
      (afterWaitingStart bufferMs item started).Weighty := by
    intro started
    match started with
    | .error raised => trivial
    | .ok (.ready milliseconds) => exact weighty_afterDelay bufferMs positive milliseconds
    | .ok (.peek index) => exact positive
  unfold afterPutReply
  split
  · trivial
  · split
    · trivial
    · exact proceeds _

end TaskPhase

namespace Exchange

variable {Call : Type}

section Scripts

variable {before after : Exchange Call} {item : RateItem} {id : String} {adder : Option Call}
  {failingRate : Option Rate}

/-- After a script the units of a call are those it had, or the ones just added. -/
theorem stores_cases
    (ran : RedisBucket.checkAndInsert before.loop.bucket.rates before.loop.set item id =
      some (failingRate, after.loop.set))
    (owned : after.owner = before.ownerAfter item id adder) {call : Call}
    (stored : after.Stores call) : before.Stores call ∨ adder = some call ∧ failingRate = none := by
  obtain ⟨entry, present, belongs⟩ := stored
  rw [owned, ownerAfter, ran] at belongs
  rcases RedisBucket.checkAndInsert_cases ran with
    ⟨rate, _member, _full, rfl, sameSet⟩ | ⟨_spacious, rfl, grown⟩
  · rw [sameSet] at present
    exact Or.inl ⟨entry, present, belongs⟩
  · rw [grown, SortedSet.entries_addAll (RedisBucket.newMembers_distinct item id)] at present
    simp only [] at belongs
    rcases List.mem_append.mp present with old | new
    · obtain ⟨kept, apart⟩ := List.mem_filter.mp old
      rw [if_neg (of_decide_eq_true apart)] at belongs
      exact Or.inl ⟨entry, kept, belongs⟩
    · rw [if_pos (List.mem_map_of_mem new)] at belongs
      exact Or.inr ⟨belongs, rfl⟩

/-- An admitted script adds units of its call. -/
theorem stores_of_admitted {call : Call} (positive : 1 ≤ item.weight)
    (ran : RedisBucket.checkAndInsert before.loop.bucket.rates before.loop.set item id =
      some (none, after.loop.set))
    (owned : after.owner = before.ownerAfter item id (some call)) : after.Stores call := by
  rw [ownerAfter, ran] at owned
  have some_unit : RedisBucket.newMembers item id ≠ [] := by
    intro empty
    have weightless := congrArg List.length empty
    simp only [RedisBucket.newMembers, List.length_map, List.length_range', List.length_nil]
      at weightless
    omega
  obtain ⟨unit, rest, members⟩ := List.exists_cons_of_ne_nil some_unit
  have member : unit ∈ RedisBucket.newMembers item id := by
    rw [members]
    exact List.mem_cons_self
  rcases RedisBucket.checkAndInsert_cases ran with
    ⟨_rate, _member, _full, impossible, _same⟩ | ⟨_spacious, _admitted, grown⟩
  · cases impossible
  · refine ⟨unit, ?_, ?_⟩
    · rw [grown]
      exact RedisBucket.mem_addAll_newMembers before.loop.set item id member
    · rw [owned]
      exact if_pos (List.mem_map_of_mem member)

end Scripts

/-- Units in the set belong to calls that returned `True` or are about to, and what
is still to run without them was sent by calls that returned `False`. -/
structure Invariant (exchange : Exchange Call) : Prop where
  stores : ∀ call, exchange.Stores call → (exchange.loop.phase call).mayStore = true
  weighty : ∀ call, (exchange.loop.phase call).Weighty
  abandoned : ∀ call item, (call, item) ∈ exchange.abandoned →
    exchange.loop.phase call = .finished (.returned false) ∧ 1 ≤ item.weight

namespace Invariant

variable {before after : Exchange Call}

theorem start (rates : RateList) (set : RedisSet) :
    Invariant (Exchange.start rates set : Exchange Call) where
  stores := by
    rintro call ⟨entry, _present, impossible⟩
    cases impossible
  weighty := fun _call => trivial
  abandoned := fun _call _item impossible => by cases impossible

theorem falseStoresNothing (invariant : Invariant before) : before.FalseStoresNothing := by
  intro call ended stored
  have admitted := invariant.stores call stored
  rw [ended] at admitted
  cases admitted

theorem weighty_of (invariant : Invariant before) {call : Call} {phase : TaskPhase}
    (current : before.loop.phase call = phase) : phase.Weighty := by
  rw [← current]
  exact invariant.weighty call

/-- Steps that leave every call where it is. -/
theorem unmoved (invariant : Invariant before) (samePhase : after.loop.phase = before.loop.phase)
    (part : ∀ entry, entry ∈ after.abandoned → entry ∈ before.abandoned)
    (kept : ∀ call, after.Stores call → before.Stores call) : Invariant after where
  stores := fun call stored => by
    rw [samePhase]
    exact invariant.stores call (kept call stored)
  weighty := by
    rw [samePhase]
    exact invariant.weighty
  abandoned := fun call item member => by
    rw [samePhase]
    exact invariant.abandoned call item (part (call, item) member)

/-- A script that runs without its call, or for another client. -/
theorem ranScript {item : RateItem} {id : String} {adder : Option Call}
    {abandoned : List (Call × RateItem)} (invariant : Invariant before)
    (part : ∀ entry, entry ∈ abandoned → entry ∈ before.abandoned)
    (kept : ∀ call, adder = some call → ∃ rate, rate ∈ before.loop.bucket.rates ∧
      RedisBucket.lacksSpace before.loop.set item rate = true)
    (ran : ({ before with abandoned := abandoned } : Exchange Call).runScript item id adder =
      some after) : Invariant after := by
  unfold Exchange.runScript at ran
  cases script : RedisBucket.checkAndInsert before.loop.bucket.rates before.loop.set item id with
  | none =>
      simp only [script] at ran
      cases ran
  | some ended =>
      obtain ⟨failingRate, set⟩ := ended
      simp only [script] at ran
      cases ran
      refine invariant.unmoved rfl part ?_
      intro call stored
      rcases stores_cases script rfl stored with old | ⟨same, admitted⟩
      · exact old
      · -- An abandoned script that finds no space has not been admitted.
        obtain ⟨rate, member, full⟩ := kept call same
        rcases RedisBucket.checkAndInsert_cases script with
          ⟨_other, _present, _full, refused, _same⟩ | ⟨spacious, _admitted, _grown⟩
        · rw [admitted] at refused
          cases refused
        · rw [spacious rate member] at full
          cases full

variable [DecidableEq Call]

/-- Steps of one call, whose abandoned scripts are those of calls that are over. -/
theorem moved (invariant : Invariant before) {call : Call} {phase : TaskPhase}
    (updated : after.loop.phase = Function.update before.loop.phase call phase)
    (weighty : phase.Weighty)
    (kept : ∀ other, other ≠ call → after.Stores other → before.Stores other)
    (own : after.Stores call → phase.mayStore = true)
    (abandoned : ∀ other item, (other, item) ∈ after.abandoned →
      Function.update before.loop.phase call phase other = .finished (.returned false) ∧
        1 ≤ item.weight) : Invariant after where
  stores := by
    rw [updated, Function.forall_update_iff before.loop.phase
      (fun other phase => after.Stores other → phase.mayStore = true)]
    exact ⟨own, fun other different stored => invariant.stores other (kept other different stored)⟩
  weighty := by
    rw [updated, Function.forall_update_iff before.loop.phase (fun _other phase => phase.Weighty)]
    exact ⟨weighty, fun other _different => invariant.weighty other⟩
  abandoned := by
    rw [updated]
    exact abandoned

/-- The scripts that are abandoned already stay so while another call moves. -/
theorem abandoned_update (invariant : Invariant before) {call : Call}
    (live : before.loop.phase call ≠ .finished (.returned false)) (phase : TaskPhase)
    {other : Call} {item : RateItem} (member : (other, item) ∈ before.abandoned) :
    Function.update before.loop.phase call phase other = .finished (.returned false) ∧
      1 ≤ item.weight := by
  obtain ⟨ended, positive⟩ := invariant.abandoned other item member
  have different : other ≠ call := by
    intro same
    rw [same] at ended
    exact live ended
  rw [Function.update_of_ne different]
  exact ⟨ended, positive⟩

/-- A message that is taken by its call, with the set as it was. -/
theorem taken (invariant : Invariant before) {call : Call} {phase : TaskPhase}
    {loop : EventLoop Call} (live : before.loop.phase call ≠ .finished (.returned false))
    (updated : loop.phase = Function.update before.loop.phase call phase)
    (sameSet : loop.set = before.loop.set) (weighty : phase.Weighty)
    (own : (before.loop.phase call).mayStore = true → phase.mayStore = true) :
    Invariant { before with loop := loop } := by
  have same : ∀ other, Exchange.Stores { before with loop := loop } other → before.Stores other := by
    rintro other ⟨entry, present, belongs⟩
    rw [sameSet] at present
    exact ⟨entry, present, belongs⟩
  exact invariant.moved updated weighty (fun other _different => same other)
    (fun stored => own (invariant.stores call (same call stored)))
    (fun _other _item member => invariant.abandoned_update live phase member)

/-- A call goes on that has nothing to do with the set. -/
theorem goesOn (invariant : Invariant before) {call : Call} {current phase : TaskPhase}
    {loop : EventLoop Call} (here : before.loop.phase call = current)
    (live : current ≠ .finished (.returned false)) (quiet : current.mayStore = false)
    (updated : loop.phase = Function.update before.loop.phase call phase)
    (sameSet : loop.set = before.loop.set) (weighty : phase.Weighty) :
    Invariant { before with loop := loop } := by
  refine invariant.taken (by rw [here]; exact live) updated sameSet weighty ?_
  rw [here, quiet]
  exact fun impossible => by cases impossible

theorem taskStep {bufferMs : Nat} {action : TaskAction Call} (invariant : Invariant before)
    (stepped : before.taskStep bufferMs action = some after) : Invariant after := by
  unfold Exchange.taskStep at stepped
  split at stepped
  · cases stepped
  · rename_i loop ran
    cases action with
    | call call item =>
        simp only [] at stepped
        split at stepped
        · rename_i idle
          cases stepped
          simp only [EventLoop.step, idle] at ran
          split at ran
          · rename_i positive
            cases ran
            refine invariant.taken (by rw [idle]; exact fun impossible => by cases impossible) rfl rfl
              positive ?_
            rw [idle]
            exact fun impossible => by cases impossible
          · cases ran
        · cases stepped
    | runScript call id =>
        simp only [] at stepped
        split at stepped
        · rename_i item first current
          cases stepped
          simp only [EventLoop.step, current] at ran
          cases script : RedisBucket.checkAndInsert before.loop.bucket.rates before.loop.set item
              id with
          | none =>
              rw [script] at ran
              cases ran
          | some ended =>
              obtain ⟨failingRate, set⟩ := ended
              rw [script] at ran
              cases ran
              have live : before.loop.phase call ≠ .finished (.returned false) := by
                rw [current]
                exact fun impossible => by cases impossible
              have positive := invariant.weighty_of current
              refine invariant.moved rfl positive ?_ ?_ ?_
              · intro other different stored
                rcases stores_cases script rfl stored with before | ⟨same, _admitted⟩
                · exact before
                · exact absurd (Option.some.inj same).symm different
              · intro stored
                rcases stores_cases script rfl stored with before | ⟨_same, admitted⟩
                · have early := invariant.stores call before
                  rw [current] at early
                  cases early
                · rw [admitted]
                  rfl
              · exact fun _other _item member => invariant.abandoned_update live _ member
        · cases stepped
    | receivePut call =>
        cases stepped
        simp only [EventLoop.step] at ran
        split at ran
        · rename_i item first failingRate current
          cases ran
          refine invariant.taken (by rw [current]; exact fun impossible => by cases impossible) rfl
            rfl (TaskPhase.weighty_afterPutReply bufferMs (invariant.weighty_of current) _ _) ?_
          rw [current]
          cases failingRate with
          | none => exact fun _admitted => rfl
          | some rate => exact fun impossible => by cases impossible
        · cases ran
    | runRange call =>
        cases stepped
        simp only [EventLoop.step] at ran
        split at ran
        · rename_i item index current
          have positive := invariant.weighty_of current
          cases ran
          exact invariant.goesOn current (fun impossible => by cases impossible) rfl rfl rfl
            positive
        · cases ran
    | receiveRange call =>
        cases stepped
        simp only [EventLoop.step] at ran
        split at ran
        · rename_i item receivedItems current
          cases ran
          exact invariant.goesOn current (fun impossible => by cases impossible) rfl rfl rfl
            (TaskPhase.weighty_afterWaitingFinish bufferMs (invariant.weighty_of current) _)
        · cases ran
    | wake call =>
        cases stepped
        simp only [EventLoop.step] at ran
        split at ran
        · rename_i item sleepMs current
          have positive := invariant.weighty_of current
          cases ran
          exact invariant.goesOn current (fun impossible => by cases impossible) rfl rfl rfl
            positive
        · cases ran
    | othersChange set => cases stepped

theorem timeOut {bufferMs : Nat} {call : Call} (invariant : Invariant before)
    (early : ¬before.Stores call) (stepped : before.step bufferMs (.timeOut call) = some after) :
    Invariant after := by
  have moves : ∀ abandoned : List (Call × RateItem),
      before.loop.phase call ≠ .finished (.returned false) →
      (∀ other item, (other, item) ∈ abandoned →
        (other, item) ∈ before.abandoned ∨ other = call ∧ 1 ≤ item.weight) →
      Invariant
        { before with
          loop := before.loop.move call (.finished (.returned false))
          abandoned := abandoned } := by
    intro abandoned live known
    refine invariant.moved rfl trivial (fun _other _different stored => stored)
      (fun stored => absurd stored early) ?_
    intro other item member
    rcases known other item member with old | ⟨rfl, positive⟩
    · exact invariant.abandoned_update live _ old
    · exact ⟨Function.update_self _ _ _, positive⟩
  simp only [Exchange.step] at stepped
  split at stepped
  · cases stepped
  · rename_i item first current
    have positive := invariant.weighty_of current
    cases stepped
    apply moves _ (by rw [current]; exact fun impossible => by cases impossible)
    intro other sent member
    rcases List.mem_append.mp member with old | new
    · exact Or.inl old
    · obtain ⟨rfl, rfl⟩ := Prod.mk.inj (List.mem_singleton.mp new)
      exact Or.inr ⟨rfl, positive⟩
  all_goals
    rename_i current
    cases stepped
    exact moves _ (by rw [current]; exact fun impossible => by cases impossible)
      (fun _other _item member => Or.inl member)

theorem step {bufferMs : Nat} {action : ExchangeAction Call} (invariant : Invariant before)
    (timely : before.Timely action) (stepped : before.step bufferMs action = some after) :
    Invariant after := by
  cases action with
  | task action => exact invariant.taskStep stepped
  | timeOut call => exact invariant.timeOut timely stepped
  | runAbandoned index id =>
      simp only [Exchange.step] at stepped
      split at stepped
      · cases stepped
      · rename_i call item found
        exact invariant.ranScript (fun _entry member => List.mem_of_mem_eraseIdx member)
          (fun _call _same => timely call item found) stepped
  | othersPut item id =>
      exact invariant.ranScript (fun _entry member => member)
        (fun _call impossible => by cases impossible) stepped
  | leak currentTimestamp =>
      cases stepped
      refine invariant.unmoved rfl (fun _entry member => member) ?_
      rintro call ⟨entry, present, belongs⟩
      exact ⟨entry, (List.mem_filter.mp present).1, belongs⟩
  | flush =>
      cases stepped
      refine invariant.unmoved rfl (fun _entry member => member) ?_
      rintro call ⟨entry, impossible, _belongs⟩
      cases impossible

/-- A deadline after the script has stored units, or an abandoned script that is
admitted, leaves units of a call that returned `False`. -/
theorem not_falseStoresNothing {bufferMs : Nat} {action : ExchangeAction Call}
    (invariant : Invariant before) (late : ¬before.Timely action)
    (stepped : before.step bufferMs action = some after) : ¬after.FalseStoresNothing := by
  cases action with
  | timeOut call =>
      have stored : before.Stores call := not_not.mp late
      intro nothing
      simp only [Exchange.step] at stepped
      split at stepped
      · cases stepped
      all_goals
        cases stepped
        exact nothing call (Function.update_self _ _ _) stored
  | runAbandoned index id =>
      simp only [Timely, not_forall] at late
      obtain ⟨call, item, found, roomy⟩ := late
      obtain ⟨ended, positive⟩ := invariant.abandoned call item (List.mem_of_getElem? found)
      simp only [Exchange.step, found, Exchange.runScript] at stepped
      cases script : RedisBucket.checkAndInsert before.loop.bucket.rates before.loop.set item id with
      | none =>
          simp only [script] at stepped
          cases stepped
      | some ended =>
          obtain ⟨failingRate, set⟩ := ended
          simp only [script] at stepped
          cases stepped
          rcases RedisBucket.checkAndInsert_cases script with
            ⟨rate, member, full, _refused, _same⟩ | ⟨_spacious, rfl, _grown⟩
          · exact absurd ⟨rate, member, full⟩ roomy
          · intro nothing
            exact nothing call ended (stores_of_admitted positive script rfl)
  | _ => exact absurd trivial late

end Invariant

end Exchange

/-- A call that resolves to `False` leaves none of its units in the set, exactly as
long as every deadline is timely. -/
theorem false_stores_nothing_iff {Call : Type} [DecidableEq Call] (bufferMs : Nat)
    (rates : RateList) (set : RedisSet) (actions : List (ExchangeAction Call)) :
    Always (Exchange.step bufferMs) Exchange.FalseStoresNothing (Exchange.start rates set)
        actions ↔
      StepsMeet (Exchange.step bufferMs) Exchange.Timely (Exchange.start rates set) actions :=
  always_iff_stepsMeet
    (fun _before invariant => Exchange.Invariant.falseStoresNothing invariant)
    (fun _before _action _after invariant timely stepped => invariant.step timely stepped)
    (fun _before _action _after invariant late stepped =>
      invariant.not_falseStoresNothing late stepped)
    (Exchange.Invariant.start rates set) actions

/-- The script is admitted, and the deadline fires before its reply is taken. -/
def executedThenTimedOut : List (ExchangeAction Unit) :=
  [.task (.call () ⟨"key", 0, 1⟩), .task (.runScript () "a"), .timeOut ()]

theorem executedThenTimedOut_stores :
    (exec (Exchange.step 50) (Exchange.start oneRequestIn100 SortedSet.empty)
        executedThenTimedOut).map
      (fun final => (final.loop.phase (), final.loop.set.entries)) =
        some (.finished (.returned false), [("key:a:1", 0)]) ∧
    ¬Always (Exchange.step 50) Exchange.FalseStoresNothing
      (Exchange.start oneRequestIn100 SortedSet.empty) executedThenTimedOut := by
  have ran : (exec (Exchange.step 50) (Exchange.start oneRequestIn100 SortedSet.empty)
      executedThenTimedOut).map
        (fun final => (final.loop.phase (), final.loop.set.entries, final.owner "key:a:1")) =
      some (.finished (.returned false), [("key:a:1", 0)], some ()) := by
    decide
  obtain ⟨final, run, ended⟩ := Option.map_eq_some_iff.mp ran
  obtain ⟨answered, stored⟩ := Prod.mk.inj ended
  obtain ⟨entries, owned⟩ := Prod.mk.inj stored
  refine ⟨by rw [run, Option.map_some, answered, entries], ?_⟩
  intro always
  refine always.reached run () answered ⟨("key:a:1", 0), ?_, owned⟩
  rw [entries]
  exact List.mem_singleton_self _

end PyrateLimiter

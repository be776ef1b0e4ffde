/-
Locks and the agents that take them.

Every agent is in a phase, and some phases are inside the section that the lock
guards.  The lock is exclusive when nobody but its holder is inside.  There is
one rule for each way in which a step of one agent can change its phase and the
holder of the lock together.  Where agents use locks of a family, each agent one of
them, every lock is exclusive among the agents that use it.
-/

import Mathlib.Logic.Function.Basic

namespace Foundations.ExclusiveLock

variable {Agent Phase : Type*} {inside : Phase → Bool} {phase : Agent → Phase}
  {holder : Option Agent}

def Exclusive (inside : Phase → Bool) (phase : Agent → Phase) (holder : Option Agent) : Prop :=
  ∀ agent, inside (phase agent) = true → holder = some agent

theorem Exclusive.outside (exclusive : Exclusive inside phase holder) {agent other : Agent}
    (entered : inside (phase agent) = true) (different : other ≠ agent) :
    inside (phase other) = false := by
  cases found : inside (phase other) with
  | false => rfl
  | true =>
      have same := (exclusive other found).symm.trans (exclusive agent entered)
      exact absurd (Option.some.inj same) different

theorem Exclusive.all_outside (exclusive : Exclusive inside phase holder)
    (free : holder = none) (agent : Agent) : inside (phase agent) = false := by
  cases found : inside (phase agent) with
  | false => rfl
  | true =>
      have impossible := exclusive agent found
      rw [free] at impossible
      cases impossible

variable [DecidableEq Agent]

private theorem exclusive_update {agent : Agent} {next : Phase} {newHolder : Option Agent}
    (own : inside next = true → newHolder = some agent)
    (others : ∀ other, other ≠ agent → inside (phase other) = true → newHolder = some other) :
    Exclusive inside (Function.update phase agent next) newHolder := by
  unfold Exclusive
  rw [Function.forall_update_iff phase
    (fun other phase => inside phase = true → newHolder = some other)]
  exact ⟨own, others⟩

/-- A move that leaves the lock where it is. -/
theorem Exclusive.move (exclusive : Exclusive inside phase holder) {agent : Agent} {next : Phase}
    (own : inside next = true → holder = some agent) :
    Exclusive inside (Function.update phase agent next) holder :=
  exclusive_update own (fun other _different => exclusive other)

theorem Exclusive.acquire (exclusive : Exclusive inside phase holder) (free : holder = none)
    (agent : Agent) (next : Phase) :
    Exclusive inside (Function.update phase agent next) (some agent) := by
  apply exclusive_update (fun _entered => rfl)
  intro other _different entered
  rw [exclusive.all_outside free other] at entered
  cases entered

theorem Exclusive.release (exclusive : Exclusive inside phase holder) {agent : Agent}
    {next : Phase} (held : inside (phase agent) = true) (left : inside next = false) :
    Exclusive inside (Function.update phase agent next) none := by
  apply exclusive_update
  · intro entered
    rw [left] at entered
    cases entered
  · intro other different entered
    rw [exclusive.outside held different] at entered
    cases entered

/-- An agent that goes out gives the lock up if it has it. -/
theorem Exclusive.leave (exclusive : Exclusive inside phase holder) {agent : Agent}
    {next : Phase} (left : inside next = false) :
    Exclusive inside (Function.update phase agent next)
      (if holder = some agent then none else holder) := by
  apply exclusive_update
  · intro entered
    rw [left] at entered
    cases entered
  · intro other different entered
    have holding := exclusive other entered
    have notAgent : holder ≠ some agent := by
      rw [holding]
      exact fun same => different (Option.some.inj same)
    rw [if_neg notAgent]
    exact holding

/-! ### A family of locks -/

section Family

variable {Lock : Type*} {lockOf : Agent → Lock} {holders : Lock → Option Agent}

def EachExclusive (lockOf : Agent → Lock) (inside : Phase → Bool) (phase : Agent → Phase)
    (holders : Lock → Option Agent) : Prop :=
  ∀ agent, inside (phase agent) = true → holders (lockOf agent) = some agent

omit [DecidableEq Agent] in
theorem EachExclusive.same (exclusive : EachExclusive lockOf inside phase holders)
    {agent other : Agent} (shared : lockOf agent = lockOf other)
    (first : inside (phase agent) = true) (second : inside (phase other) = true) :
    agent = other := by
  have holding := exclusive agent first
  rw [shared, exclusive other second] at holding
  exact (Option.some.inj holding).symm

theorem EachExclusive.move (exclusive : EachExclusive lockOf inside phase holders)
    {agent : Agent} {next : Phase}
    (own : inside next = true → holders (lockOf agent) = some agent) :
    EachExclusive lockOf inside (Function.update phase agent next) holders := by
  unfold EachExclusive
  rw [Function.forall_update_iff phase
    (fun other phase => inside phase = true → holders (lockOf other) = some other)]
  exact ⟨own, fun other _different => exclusive other⟩

variable [DecidableEq Lock]

private theorem eachExclusive_update (exclusive : EachExclusive lockOf inside phase holders)
    {agent : Agent} {next : Phase} {newHolder : Option Agent}
    (own : inside next = true → newHolder = some agent)
    (others : ∀ other, other ≠ agent → lockOf other = lockOf agent →
      inside (phase other) = false) :
    EachExclusive lockOf inside (Function.update phase agent next)
      (Function.update holders (lockOf agent) newHolder) := by
  unfold EachExclusive
  rw [Function.forall_update_iff phase (fun other phase => inside phase = true →
    Function.update holders (lockOf agent) newHolder (lockOf other) = some other)]
  refine ⟨?_, ?_⟩
  · rw [Function.update_self]
    exact own
  · intro other different entered
    by_cases shared : lockOf other = lockOf agent
    · rw [others other different shared] at entered
      cases entered
    · rw [Function.update_of_ne shared]
      exact exclusive other entered

theorem EachExclusive.acquire (exclusive : EachExclusive lockOf inside phase holders)
    {agent : Agent} (free : holders (lockOf agent) = none) (next : Phase) :
    EachExclusive lockOf inside (Function.update phase agent next)
      (Function.update holders (lockOf agent) (some agent)) := by
  apply eachExclusive_update exclusive (fun _entered => rfl)
  intro other _different shared
  cases found : inside (phase other) with
  | false => rfl
  | true =>
      have impossible := exclusive other found
      rw [shared, free] at impossible
      cases impossible

theorem EachExclusive.release (exclusive : EachExclusive lockOf inside phase holders)
    {agent : Agent} {next : Phase} (held : inside (phase agent) = true)
    (left : inside next = false) :
    EachExclusive lockOf inside (Function.update phase agent next)
      (Function.update holders (lockOf agent) none) := by
  apply eachExclusive_update exclusive
  · intro entered
    rw [left] at entered
    cases entered
  · intro other different shared
    cases found : inside (phase other) with
    | false => rfl
    | true => exact absurd (exclusive.same shared found held) different

end Family

end Foundations.ExclusiveLock

/-
A family of fair locks of cooperating agents.

A lock is free or locked, and the agents that wait for it queue up: a free lock
that nobody waits for is taken at once, otherwise it goes to the agent that has
waited longest.  In every state that the operations reach, the queue of a lock
holds exactly the agents that wait for it, and a lock is locked exactly while
some agent is inside, which is then alone there.
-/

import Mathlib.Data.List.Nodup
import Mathlib.Logic.Function.Basic
import Mathlib.Order.Defs.PartialOrder

namespace Foundations.FairLocks

structure FairLock (Agent : Type*) where
  locked : Bool
  waiters : List Agent

inductive Place (Lock : Type*) where
  | outside
  | waiting (lock : Lock)
  | inside (lock : Lock)
  deriving DecidableEq

namespace Place

variable {Lock : Type*}

/-- The lock that an agent at this place waits for or holds. -/
def lock? : Place Lock → Option Lock
  | .outside => none
  | .waiting lock | .inside lock => some lock

def isInside : Place Lock → Bool
  | .inside _ => true
  | .outside | .waiting _ => false

theorem outside_ne_waiting {lock : Lock} : (outside : Place Lock) ≠ .waiting lock := by
  intro impossible
  cases impossible

theorem outside_ne_inside {lock : Lock} : (outside : Place Lock) ≠ .inside lock := by
  intro impossible
  cases impossible

theorem waiting_ne_inside {lock other : Lock} : waiting lock ≠ .inside other := by
  intro impossible
  cases impossible

theorem lock?_of_ne_outside {place : Place Lock} (located : place ≠ .outside) :
    ∃ lock, place.lock? = some lock := by
  cases place with
  | outside => exact absurd rfl located
  | waiting lock => exact ⟨lock, rfl⟩
  | inside lock => exact ⟨lock, rfl⟩

theorem isInside_iff {place : Place Lock} : place.isInside = true ↔ ∃ lock, place = .inside lock := by
  cases place with
  | inside lock => exact ⟨fun _inside => ⟨lock, rfl⟩, fun _same => rfl⟩
  | outside =>
      constructor
      · intro impossible
        cases impossible
      · rintro ⟨lock, ⟨⟩⟩
  | waiting lock =>
      constructor
      · intro impossible
        cases impossible
      · rintro ⟨lock, ⟨⟩⟩

end Place

structure Locks (Agent Lock : Type*) where
  lock : Lock → FairLock Agent
  place : Agent → Place Lock

namespace Locks

variable {Agent Lock : Type*}

def initial : Locks Agent Lock :=
  { lock := fun _lock => { locked := false, waiters := [] }
    place := fun _agent => .outside }

variable [DecidableEq Agent] [DecidableEq Lock]

def set (locks : Locks Agent Lock) (lock : Lock) (next : FairLock Agent) (agent : Agent)
    (place : Place Lock) : Locks Agent Lock :=
  { lock := Function.update locks.lock lock next
    place := Function.update locks.place agent place }

/-- An agent from outside asks for a lock. -/
def acquire (locks : Locks Agent Lock) (lock : Lock) (agent : Agent) : Locks Agent Lock :=
  let current := locks.lock lock
  if current.locked = false ∧ current.waiters = [] then
    locks.set lock { current with locked := true } agent (.inside lock)
  else
    locks.set lock { current with waiters := current.waiters ++ [agent] } agent (.waiting lock)

/-- A waiting agent goes on, if the lock is free and it is its turn. -/
def resume (locks : Locks Agent Lock) (agent : Agent) : Option (Locks Agent Lock) :=
  match locks.place agent with
  | .outside | .inside _ => none
  | .waiting lock =>
      let current := locks.lock lock
      if current.locked = false ∧ current.waiters.head? = some agent then
        some (locks.set lock { locked := true, waiters := current.waiters.tail } agent
          (.inside lock))
      else none

def release (locks : Locks Agent Lock) (agent : Agent) : Option (Locks Agent Lock) :=
  match locks.place agent with
  | .outside | .waiting _ => none
  | .inside lock =>
      some (locks.set lock { locks.lock lock with locked := false } agent .outside)

/-- A waiting agent gives up. -/
def cancel (locks : Locks Agent Lock) (agent : Agent) : Option (Locks Agent Lock) :=
  match locks.place agent with
  | .outside | .inside _ => none
  | .waiting lock =>
      let current := locks.lock lock
      some (locks.set lock { current with waiters := current.waiters.erase agent } agent
        .outside)

end Locks

/-! ### One lock and the places of the agents -/

section Lock

variable {Agent Lock : Type*} {lock : Lock} {current : FairLock Agent}
  {place : Agent → Place Lock}

structure ConsistentAt (lock : Lock) (current : FairLock Agent) (place : Agent → Place Lock) :
    Prop where
  queue : ∀ agent, agent ∈ current.waiters ↔ place agent = .waiting lock
  nodup : current.waiters.Nodup
  held : current.locked = true ↔ ∃ agent, place agent = .inside lock
  alone : ∀ first second, place first = .inside lock → place second = .inside lock →
    first = second

namespace ConsistentAt

theorem free (consistent : ConsistentAt lock current place) (unlocked : current.locked = false)
    (agent : Agent) : place agent ≠ .inside lock := by
  intro entered
  have locked := consistent.held.mpr ⟨agent, entered⟩
  rw [unlocked] at locked
  cases locked

variable [DecidableEq Agent]

theorem update_eq_iff {agent : Agent} {next target : Place Lock} (before : place agent ≠ target)
    (after : next ≠ target) (other : Agent) :
    Function.update place agent next other = target ↔ place other = target := by
  by_cases moved : other = agent
  · rw [moved, Function.update_self]
    exact iff_of_false after before
  · rw [Function.update_of_ne moved]

/-- An agent that is at another lock, before and after, is nothing to this one. -/
theorem elsewhere (consistent : ConsistentAt lock current place) {agent : Agent}
    {next : Place Lock} (before : (place agent).lock? ≠ some lock)
    (after : next.lock? ≠ some lock) :
    ConsistentAt lock current (Function.update place agent next) := by
  have same : ∀ target : Place Lock, target.lock? = some lock → ∀ other,
      Function.update place agent next other = target ↔ place other = target := by
    intro target here
    apply update_eq_iff
    · intro equal
      rw [equal] at before
      exact before here
    · intro equal
      rw [equal] at after
      exact after here
  refine ⟨fun other => ?_, consistent.nodup, ?_, fun first second => ?_⟩
  · rw [same (.waiting lock) rfl]
    exact consistent.queue other
  · simp only [same (.inside lock) rfl]
    exact consistent.held
  · rw [same (.inside lock) rfl, same (.inside lock) rfl]
    exact consistent.alone first second

/-- An agent takes the free lock and leaves the queue, if it was in it. -/
theorem enter (consistent : ConsistentAt lock current place) (unlocked : current.locked = false)
    {agent : Agent} {rest : List Agent}
    (left : ∀ other, other ∈ rest ↔ other ≠ agent ∧ other ∈ current.waiters)
    (nodup : rest.Nodup) :
    ConsistentAt lock { locked := true, waiters := rest }
      (Function.update place agent (.inside lock)) := by
  have only : ∀ other, Function.update place agent (.inside lock) other = .inside lock →
      other = agent := by
    intro other entered
    by_cases moved : other = agent
    · exact moved
    · rw [Function.update_of_ne moved] at entered
      exact absurd entered (consistent.free unlocked other)
  refine ⟨fun other => ?_, nodup, ?_, fun first second one two => ?_⟩
  · rw [left other, consistent.queue other]
    by_cases moved : other = agent
    · rw [moved, Function.update_self]
      exact iff_of_false (fun impossible => impossible.1 rfl) Place.waiting_ne_inside.symm
    · rw [Function.update_of_ne moved]
      exact and_iff_right moved
  · exact iff_of_true rfl ⟨agent, Function.update_self _ _ _⟩
  · rw [only first one, only second two]

/-- An agent from outside joins the queue. -/
theorem wait (consistent : ConsistentAt lock current place) {agent : Agent}
    (outside : place agent = .outside) :
    ConsistentAt lock { current with waiters := current.waiters ++ [agent] }
      (Function.update place agent (.waiting lock)) := by
  have absent : agent ∉ current.waiters := by
    rw [consistent.queue, outside]
    exact Place.outside_ne_waiting
  have insides : ∀ other, Function.update place agent (.waiting lock) other = .inside lock ↔
      place other = .inside lock := by
    refine update_eq_iff ?_ Place.waiting_ne_inside
    rw [outside]
    exact Place.outside_ne_inside
  refine ⟨fun other => ?_, ?_, ?_, fun first second => ?_⟩
  · rw [List.mem_append, List.mem_singleton, consistent.queue]
    by_cases moved : other = agent
    · rw [moved, Function.update_self]
      exact iff_of_true (Or.inr rfl) rfl
    · rw [Function.update_of_ne moved]
      exact or_iff_left moved
  · refine List.Nodup.append consistent.nodup (List.nodup_singleton agent) ?_
    intro other member last
    rw [List.mem_singleton.mp last] at member
    exact absent member
  · simp only [insides]
    exact consistent.held
  · rw [insides, insides]
    exact consistent.alone first second

/-- The agent inside goes out. -/
theorem leave (consistent : ConsistentAt lock current place) {agent : Agent}
    (entered : place agent = .inside lock) :
    ConsistentAt lock { current with locked := false } (Function.update place agent .outside) := by
  have empty : ∀ other, Function.update place agent .outside other ≠ .inside lock := by
    intro other impossible
    by_cases moved : other = agent
    · rw [moved, Function.update_self] at impossible
      cases impossible
    · rw [Function.update_of_ne moved] at impossible
      exact moved (consistent.alone other agent impossible entered)
  refine ⟨fun other => ?_, consistent.nodup, ?_, fun first _second one => ?_⟩
  · rw [consistent.queue]
    refine (update_eq_iff ?_ Place.outside_ne_waiting other).symm
    rw [entered]
    exact Place.waiting_ne_inside.symm
  · exact iff_of_false Bool.noConfusion (fun entering => empty _ entering.choose_spec)
  · exact absurd one (empty first)

/-- A waiting agent leaves the queue and goes out. -/
theorem giveUp (consistent : ConsistentAt lock current place) {agent : Agent}
    (waits : place agent = .waiting lock) :
    ConsistentAt lock { current with waiters := current.waiters.erase agent }
      (Function.update place agent .outside) := by
  have insides : ∀ other, Function.update place agent .outside other = .inside lock ↔
      place other = .inside lock := by
    refine update_eq_iff ?_ Place.outside_ne_inside
    rw [waits]
    exact Place.waiting_ne_inside
  refine ⟨fun other => ?_, consistent.nodup.erase agent, ?_, fun first second => ?_⟩
  · rw [consistent.nodup.mem_erase_iff, consistent.queue]
    by_cases moved : other = agent
    · rw [moved, Function.update_self]
      exact iff_of_false (fun impossible => impossible.1 rfl) Place.outside_ne_waiting
    · rw [Function.update_of_ne moved]
      exact and_iff_right moved
  · simp only [insides]
    exact consistent.held
  · rw [insides, insides]
    exact consistent.alone first second

end ConsistentAt

end Lock

/-! ### The family -/

namespace Locks

variable {Agent Lock : Type*}

def Consistent (locks : Locks Agent Lock) : Prop :=
  ∀ lock, ConsistentAt lock (locks.lock lock) locks.place

theorem Consistent.initial : (initial : Locks Agent Lock).Consistent := by
  intro lock
  refine ⟨fun _agent => ?_, List.nodup_nil, ?_, fun _first _second one _two => ?_⟩
  · exact iff_of_false List.not_mem_nil Place.outside_ne_waiting
  · exact iff_of_false Bool.noConfusion
      (fun entering => Place.outside_ne_inside entering.choose_spec)
  · exact absurd one Place.outside_ne_inside

private theorem only_lock {lock : Lock} {place : Place Lock} (here : place.lock? = some lock) :
    ∀ other, other ≠ lock → place.lock? ≠ some other := by
  intro other different same
  rw [here] at same
  exact different (Option.some.inj same).symm

private theorem no_lock {place : Place Lock} (outside : place = .outside) (lock : Lock) :
    ∀ other, other ≠ lock → place.lock? ≠ some other := by
  intro other _different same
  rw [outside] at same
  cases same

variable [DecidableEq Agent] [DecidableEq Lock] {locks next : Locks Agent Lock} {agent : Agent}

theorem Consistent.set (consistent : locks.Consistent) {lock : Lock} {current : FairLock Agent}
    {place : Place Lock}
    (here : ConsistentAt lock current (Function.update locks.place agent place))
    (before : ∀ other, other ≠ lock → (locks.place agent).lock? ≠ some other)
    (after : ∀ other, other ≠ lock → place.lock? ≠ some other) :
    (locks.set lock current agent place).Consistent := by
  intro other
  by_cases same : other = lock
  · subst same
    change ConsistentAt other (Function.update locks.lock other current other) _
    rw [Function.update_self]
    exact here
  · change ConsistentAt other (Function.update locks.lock lock current other) _
    rw [Function.update_of_ne same]
    exact (consistent other).elsewhere (before other same) (after other same)

theorem acquire_cases (locks : Locks Agent Lock) (lock : Lock) (agent : Agent) :
    (locks.lock lock).locked = false ∧ (locks.lock lock).waiters = [] ∧
        locks.acquire lock agent =
          locks.set lock { locked := true, waiters := (locks.lock lock).waiters } agent
            (.inside lock) ∨
      locks.acquire lock agent =
        locks.set lock
          { locks.lock lock with waiters := (locks.lock lock).waiters ++ [agent] } agent
          (.waiting lock) := by
  unfold acquire
  by_cases free : (locks.lock lock).locked = false ∧ (locks.lock lock).waiters = []
  · exact Or.inl ⟨free.1, free.2, if_pos free⟩
  · exact Or.inr (if_neg free)

theorem place_acquire_of_ne {lock : Lock} {other : Agent} (apart : other ≠ agent) :
    (locks.acquire lock agent).place other = locks.place other := by
  rcases locks.acquire_cases lock agent with ⟨_free, _unawaited, granted⟩ | queued
  · rw [granted]
    exact Function.update_of_ne apart _ _
  · rw [queued]
    exact Function.update_of_ne apart _ _

theorem acquire_fresh {lock : Lock}
    (fresh : locks.lock lock = { locked := false, waiters := [] }) (agent : Agent) :
    locks.acquire lock agent =
      locks.set lock { locked := true, waiters := [] } agent (.inside lock) := by
  unfold acquire
  rw [fresh, if_pos ⟨rfl, rfl⟩]

theorem resume_cases (resumed : locks.resume agent = some next) :
    ∃ lock rest, locks.place agent = .waiting lock ∧ (locks.lock lock).locked = false ∧
      (locks.lock lock).waiters = agent :: rest ∧
      next = locks.set lock { locked := true, waiters := rest } agent (.inside lock) := by
  unfold resume at resumed
  split at resumed
  · cases resumed
  · cases resumed
  · rename_i lock waits
    simp only [] at resumed
    split at resumed
    · rename_i turn
      obtain ⟨rest, shape⟩ := List.head?_eq_some_iff.mp turn.2
      cases resumed
      exact ⟨lock, rest, waits, turn.1, shape, by rw [shape]; rfl⟩
    · cases resumed

theorem release_cases (released : locks.release agent = some next) :
    ∃ lock, locks.place agent = .inside lock ∧
      next = locks.set lock { locks.lock lock with locked := false } agent .outside := by
  unfold release at released
  split at released
  · cases released
  · cases released
  · rename_i lock entered
    cases released
    exact ⟨lock, entered, rfl⟩

theorem cancel_cases (cancelled : locks.cancel agent = some next) :
    ∃ lock, locks.place agent = .waiting lock ∧
      next = locks.set lock
        { locks.lock lock with waiters := (locks.lock lock).waiters.erase agent } agent
        .outside := by
  unfold cancel at cancelled
  split at cancelled
  · cases cancelled
  · cases cancelled
  · rename_i lock waits
    cases cancelled
    exact ⟨lock, waits, rfl⟩

theorem Consistent.acquire (consistent : locks.Consistent) (outside : locks.place agent = .outside)
    (lock : Lock) : (locks.acquire lock agent).Consistent := by
  rcases locks.acquire_cases lock agent with ⟨free, unawaited, granted⟩ | queued
  · rw [granted]
    refine consistent.set ?_ (no_lock outside lock) (only_lock rfl)
    refine (consistent lock).enter free (fun other => ?_) (consistent lock).nodup
    rw [unawaited]
    exact iff_of_false List.not_mem_nil (fun both => List.not_mem_nil both.2)
  · rw [queued]
    exact consistent.set ((consistent lock).wait outside) (no_lock outside lock) (only_lock rfl)

theorem Consistent.resume (consistent : locks.Consistent)
    (resumed : locks.resume agent = some next) : next.Consistent := by
  obtain ⟨lock, rest, waits, free, queue, rfl⟩ := resume_cases resumed
  have here : (locks.place agent).lock? = some lock := by rw [waits]; rfl
  have distinct := (consistent lock).nodup
  rw [queue, List.nodup_cons] at distinct
  refine consistent.set ?_ (only_lock here) (only_lock rfl)
  refine (consistent lock).enter free (fun other => ?_) distinct.2
  rw [queue, List.mem_cons]
  constructor
  · intro member
    exact ⟨fun same => distinct.1 (same ▸ member), Or.inr member⟩
  · rintro ⟨different, first | later⟩
    · exact absurd first different
    · exact later

theorem Consistent.release (consistent : locks.Consistent)
    (released : locks.release agent = some next) : next.Consistent := by
  obtain ⟨lock, entered, rfl⟩ := release_cases released
  have here : (locks.place agent).lock? = some lock := by rw [entered]; rfl
  exact consistent.set ((consistent lock).leave entered) (only_lock here) (no_lock rfl lock)

theorem Consistent.cancel (consistent : locks.Consistent)
    (cancelled : locks.cancel agent = some next) : next.Consistent := by
  obtain ⟨lock, waits, rfl⟩ := cancel_cases cancelled
  have here : (locks.place agent).lock? = some lock := by rw [waits]; rfl
  exact consistent.set ((consistent lock).giveUp waits) (only_lock here) (no_lock rfl lock)

/-- Where an agent waits, some agent is inside or the one whose turn it is can go on. -/
theorem Consistent.inside_or_resumes (consistent : locks.Consistent) {lock : Lock}
    (waits : locks.place agent = .waiting lock) :
    (∃ other, locks.place other = .inside lock) ∨
      ∃ other rest, locks.place other = .waiting lock ∧
        locks.resume other =
          some (locks.set lock { locked := true, waiters := rest } other (.inside lock)) := by
  cases locked : (locks.lock lock).locked with
  | true => exact Or.inl ((consistent lock).held.mp locked)
  | false =>
      have member := ((consistent lock).queue agent).mpr waits
      cases queue : (locks.lock lock).waiters with
      | nil =>
          rw [queue] at member
          cases member
      | cons first rest =>
          have turn : locks.place first = .waiting lock := by
            rw [← (consistent lock).queue, queue]
            exact List.mem_cons_self
          refine Or.inr ⟨first, rest, turn, ?_⟩
          unfold Locks.resume
          rw [turn]
          simp only []
          rw [locked, queue, if_pos ⟨rfl, rfl⟩]
          rfl

/-! ### Turns -/

/-- At each lock the agents queue in the order of their turns, behind the one inside. -/
structure InTurn {Turn : Type*} [Preorder Turn] (turn : Agent → Turn)
    (locks : Locks Agent Lock) : Prop where
  queued : ∀ lock, (locks.lock lock).waiters.Pairwise
    (fun first second => turn first < turn second)
  entered : ∀ lock first second, locks.place first = .inside lock →
    second ∈ (locks.lock lock).waiters → turn first < turn second

namespace InTurn

variable {Turn : Type*} [Preorder Turn] {turn : Agent → Turn}

omit [DecidableEq Agent] [DecidableEq Lock] in
theorem initial : (initial : Locks Agent Lock).InTurn turn where
  queued := fun _lock => .nil
  entered := fun _lock _first _second impossible => by cases impossible

/-- One agent moves at a lock whose queue gets no new agent. -/
theorem moved (inTurn : locks.InTurn turn) {lock : Lock} {current : FairLock Agent}
    {place : Place Lock} (part : current.waiters.Sublist (locks.lock lock).waiters)
    (elsewhere : ∀ other, place = .inside other → other = lock)
    (ahead : place = .inside lock → ∀ other, other ∈ current.waiters → turn agent < turn other) :
    (locks.set lock current agent place).InTurn turn where
  queued := by
    intro other
    change (Function.update locks.lock lock current other).waiters.Pairwise _
    by_cases here : other = lock
    · subst here
      rw [Function.update_self]
      exact (inTurn.queued other).sublist part
    · rw [Function.update_of_ne here]
      exact inTurn.queued other
  entered := by
    intro other first second firstAt waits
    change Function.update locks.place agent place first = _ at firstAt
    change second ∈ (Function.update locks.lock lock current other).waiters at waits
    by_cases same : first = agent
    · subst same
      rw [Function.update_self] at firstAt
      have here := elsewhere other firstAt
      subst here
      rw [Function.update_self] at waits
      exact ahead firstAt second waits
    · rw [Function.update_of_ne same] at firstAt
      apply inTurn.entered other first second firstAt
      by_cases here : other = lock
      · subst here
        rw [Function.update_self] at waits
        exact part.subset waits
      · rw [Function.update_of_ne here] at waits
        exact waits

omit [DecidableEq Lock] in
/-- The turn of an agent that is at no lock does not matter. -/
theorem renumbered (inTurn : locks.InTurn turn) (consistent : locks.Consistent)
    (outside : locks.place agent = .outside) (next : Turn) :
    locks.InTurn (Function.update turn agent next) := by
  have others : ∀ lock other, other ∈ (locks.lock lock).waiters → other ≠ agent := by
    intro lock other member same
    rw [same, (consistent lock).queue, outside] at member
    cases member
  constructor
  · intro lock
    refine (inTurn.queued lock).imp_of_mem ?_
    intro first second firstIn secondIn ordered
    rw [Function.update_of_ne (others lock first firstIn),
      Function.update_of_ne (others lock second secondIn)]
    exact ordered
  · intro lock first second firstAt waits
    have apart : first ≠ agent := by
      intro same
      rw [same, outside] at firstAt
      cases firstAt
    rw [Function.update_of_ne apart, Function.update_of_ne (others lock second waits)]
    exact inTurn.entered lock first second firstAt waits

/-- An agent that asks for a lock takes a turn behind all that are there. -/
theorem acquire (inTurn : locks.InTurn turn) (consistent : locks.Consistent) {lock : Lock}
    (outside : locks.place agent = .outside)
    {next : Turn} (last : ∀ other, other ≠ agent → (locks.place other).lock? = some lock →
      turn other < next) :
    (locks.acquire lock agent).InTurn (Function.update turn agent next) := by
  have kept := inTurn.renumbered consistent outside next
  rcases locks.acquire_cases lock agent with ⟨_free, unawaited, granted⟩ | queued
  · rw [granted]
    refine kept.moved (List.Sublist.refl _) (fun other same => by cases same; rfl) ?_
    intro _entered other member
    rw [unawaited] at member
    cases member
  · rw [queued]
    have absent : ∀ other, other ∈ (locks.lock lock).waiters → other ≠ agent := by
      intro other member same
      rw [same, (consistent lock).queue, outside] at member
      cases member
    constructor
    · intro other
      change (Function.update locks.lock lock _ other).waiters.Pairwise _
      by_cases here : other = lock
      · subst here
        rw [Function.update_self, List.pairwise_append]
        refine ⟨kept.queued other, List.pairwise_singleton _ _, ?_⟩
        intro first firstIn second secondIn
        rw [List.mem_singleton.mp secondIn, Function.update_self,
          Function.update_of_ne (absent first firstIn)]
        apply last first (absent first firstIn)
        rw [((consistent other).queue first).mp firstIn]
        rfl
      · rw [Function.update_of_ne here]
        exact kept.queued other
    · intro other first second firstAt waits
      change Function.update locks.place agent (.waiting lock) first = _ at firstAt
      change second ∈ (Function.update locks.lock lock _ other).waiters at waits
      have apart : first ≠ agent := by
        intro same
        rw [same, Function.update_self] at firstAt
        cases firstAt
      rw [Function.update_of_ne apart] at firstAt
      by_cases here : other = lock
      · subst here
        rw [Function.update_self] at waits
        rcases List.mem_append.mp waits with old | new
        · exact kept.entered other first second firstAt old
        · rw [List.mem_singleton.mp new, Function.update_self, Function.update_of_ne apart]
          apply last first apart
          rw [firstAt]
          rfl
      · rw [Function.update_of_ne here] at waits
        exact kept.entered other first second firstAt waits

theorem resume (inTurn : locks.InTurn turn) (resumed : locks.resume agent = some next) :
    next.InTurn turn := by
  obtain ⟨lock, rest, _waits, _free, queue, rfl⟩ := resume_cases resumed
  have ordered := inTurn.queued lock
  rw [queue, List.pairwise_cons] at ordered
  refine inTurn.moved ?_ (fun other same => by cases same; rfl)
    (fun _entered => ordered.1)
  rw [queue]
  exact List.sublist_cons_self agent rest

theorem release (inTurn : locks.InTurn turn) (released : locks.release agent = some next) :
    next.InTurn turn := by
  obtain ⟨lock, _entered, rfl⟩ := release_cases released
  exact inTurn.moved (List.Sublist.refl _) (fun _other impossible => by cases impossible)
    (fun impossible => by cases impossible)

theorem cancel (inTurn : locks.InTurn turn) (cancelled : locks.cancel agent = some next) :
    next.InTurn turn := by
  obtain ⟨lock, _waits, rfl⟩ := cancel_cases cancelled
  exact inTurn.moved List.erase_sublist (fun _other impossible => by cases impossible)
    (fun impossible => by cases impossible)

end InTurn

end Locks

end Foundations.FairLocks

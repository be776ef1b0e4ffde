/-
Re-entrant locks that workers take in the order of their ranks.

A worker holds some locks, each as often as it has acquired it, and has a list of
operations before it, which it may abandon at any point: then it gives back what it
holds.  Where each list takes a lock that is not held yet only above all that are,
a worker that waits for a lock waits, directly or through others, for a worker that
can go on, and all workers can run to the end of their lists.
-/

import Mathlib.Algebra.Order.BigOperators.Group.Finset
import Mathlib.Data.Finite.Defs
import Mathlib.Data.Set.Finite.Basic
import Mathlib.Logic.Relation
import PyrateLimiter.Foundations.TransitionSystem

namespace Foundations.LockOrder

open TransitionSystem

inductive Operation (Lock : Type*) where
  | acquire (lock : Lock)
  | release (lock : Lock)
  | work

structure Worker (Lock : Type*) where
  held : List Lock
  todo : List (Operation Lock)

structure Workers (Name Lock : Type*) where
  owner : Lock → Option Name
  worker : Name → Worker Lock

inductive Move (Name Lock : Type*) where
  | enter (name : Name) (operations : List (Operation Lock))
  | advance (name : Name)
  | abandon (name : Name)

namespace Workers

variable {Name Lock : Type*}

def start : Workers Name Lock :=
  { owner := fun _ => none
    worker := fun _ => { held := [], todo := [] } }

/-- The worker's next operation acquires a lock that another worker owns. -/
def WaitsFor (workers : Workers Name Lock) (name other : Name) : Prop :=
  ∃ lock rest, (workers.worker name).todo = .acquire lock :: rest ∧
    workers.owner lock = some other ∧ other ≠ name

variable [DecidableEq Name] [DecidableEq Lock]

def set (workers : Workers Name Lock) (name : Name) (worker : Worker Lock) :
    Workers Name Lock :=
  { workers with worker := Function.update workers.worker name worker }

def step (workers : Workers Name Lock) : Move Name Lock → Option (Workers Name Lock)
  | .enter name operations =>
      match (workers.worker name).todo with
      | [] => some (workers.set name { workers.worker name with todo := operations })
      | _ :: _ => none
  | .advance name =>
      let held := (workers.worker name).held
      match (workers.worker name).todo with
      | [] => none
      | .acquire lock :: rest =>
          if workers.owner lock = none ∨ workers.owner lock = some name then
            some
              { workers.set name { held := lock :: held, todo := rest } with
                owner := Function.update workers.owner lock (some name) }
          else none
      | .release lock :: rest =>
          if lock ∈ held then
            some
              { workers.set name { held := held.erase lock, todo := rest } with
                owner :=
                  if lock ∈ held.erase lock then workers.owner
                  else Function.update workers.owner lock none }
          else none
      | .work :: rest => some (workers.set name { held := held, todo := rest })
  | .abandon name =>
      let held := (workers.worker name).held
      some (workers.set name { held := held, todo := held.map .release })

def CanAdvance (workers : Workers Name Lock) (name : Name) : Prop :=
  ∃ next, workers.step (.advance name) = some next

end Workers

/-! ### Lists of operations in the order of the ranks -/

section Ordered

variable {Lock : Type*} [DecidableEq Lock] (rank : Lock → ℕ)

/-- A lock that is not held is taken only above those that are, and at the end none is. -/
def Ordered : List Lock → List (Operation Lock) → Prop
  | held, [] => held = []
  | held, .acquire lock :: rest =>
      (lock ∈ held ∨ ∀ other, other ∈ held → rank other < rank lock) ∧ Ordered (lock :: held) rest
  | held, .release lock :: rest => lock ∈ held ∧ Ordered (held.erase lock) rest
  | held, .work :: rest => Ordered held rest

variable {rank}

theorem ordered_releases (held : List Lock) : Ordered rank held (held.map .release) := by
  induction held with
  | nil => rfl
  | cons lock rest ih =>
      refine ⟨List.mem_cons_self, ?_⟩
      rw [List.erase_cons_head]
      exact ih

variable (rank) in
/-- Operations that can be done with the locks held, and leave these held. -/
def Balanced (held : List Lock) (operations : List (Operation Lock)) : Prop :=
  ∀ rest, Ordered rank held rest → Ordered rank held (operations ++ rest)

def withLock (lock : Lock) (body : List (Operation Lock)) : List (Operation Lock) :=
  .acquire lock :: (body ++ [.release lock])

/-- The first lock is the outermost. -/
def withLocks (locks : List Lock) (body : List (Operation Lock)) : List (Operation Lock) :=
  locks.foldr withLock body

omit [DecidableEq Lock] in
theorem withLocks_eq (locks : List Lock) (body : List (Operation Lock)) :
    withLocks locks body =
      locks.map .acquire ++ body ++ locks.reverse.map .release := by
  induction locks with
  | nil => exact (List.append_nil _).symm
  | cons lock rest ih =>
      change .acquire lock :: (withLocks rest body ++ [.release lock]) = _
      rw [ih, List.reverse_cons, List.map_append, List.append_assoc]
      simp

namespace Balanced

variable {held : List Lock} {first second body : List (Operation Lock)} {lock : Lock}

theorem nil : Balanced rank held [] := fun _rest ordered => ordered

theorem work : Balanced rank held [.work] := fun _rest ordered => ordered

theorem append (front : Balanced rank held first) (back : Balanced rank held second) :
    Balanced rank held (first ++ second) := by
  intro rest ordered
  rw [List.append_assoc]
  exact front _ (back rest ordered)

theorem withLock
    (above : lock ∈ held ∨ ∀ other, other ∈ held → rank other < rank lock)
    (inner : Balanced rank (lock :: held) body) :
    Balanced rank held (LockOrder.withLock lock body) := by
  intro rest ordered
  have released : Ordered rank (lock :: held) (.release lock :: rest) := by
    refine ⟨List.mem_cons_self, ?_⟩
    rw [List.erase_cons_head]
    exact ordered
  refine ⟨above, ?_⟩
  rw [List.append_eq, List.append_assoc]
  exact inner _ released

/-- Locks whose ranks grow from the outermost on. -/
theorem withLocks {locks : List Lock} (grows : locks.Pairwise (fun a b => rank a < rank b))
    (inner : Balanced rank (locks.reverse ++ held) body)
    (above : ∀ lock, lock ∈ locks → ∀ other, other ∈ held → rank other < rank lock) :
    Balanced rank held (LockOrder.withLocks locks body) := by
  induction locks generalizing held with
  | nil => exact inner
  | cons lock rest ih =>
      obtain ⟨below, onward⟩ := List.pairwise_cons.mp grows
      refine withLock (Or.inr (above lock List.mem_cons_self)) (ih onward ?_ ?_)
      · rw [List.reverse_cons, List.append_assoc] at inner
        exact inner
      · intro later member other present
        rcases List.mem_cons.mp present with rfl | outer
        · exact below later member
        · exact above later (List.mem_cons_of_mem _ member) other outer

theorem ordered (balanced : Balanced rank [] body) : Ordered rank [] body := by
  have run := balanced [] rfl
  rw [List.append_nil] at run
  exact run

end Balanced

end Ordered

/-! ### What holds in every state -/

section Safe

variable {Name Lock : Type*} [DecidableEq Lock] {rank : Lock → ℕ}

structure Safe (rank : Lock → ℕ) (workers : Workers Name Lock) : Prop where
  owned : ∀ lock name, workers.owner lock = some name ↔ lock ∈ (workers.worker name).held
  ordered : ∀ name, Ordered rank (workers.worker name).held (workers.worker name).todo
  finite : {name | (workers.worker name).todo ≠ []}.Finite

/-- Lists are entered in the order of the ranks. -/
def EntersOrdered (rank : Lock → ℕ) : Move Name Lock → Prop
  | .enter _ operations => Ordered rank [] operations
  | .advance _ | .abandon _ => True

namespace Safe

variable {workers next : Workers Name Lock} {name : Name}

theorem start : Safe rank (Workers.start : Workers Name Lock) where
  owned := by
    intro lock name
    constructor <;> intro impossible <;> cases impossible
  ordered := fun _name => rfl
  finite := by
    refine Set.finite_empty.subset ?_
    intro name busy
    exact busy rfl

theorem held_of_idle (safe : Safe rank workers) (idle : (workers.worker name).todo = []) :
    (workers.worker name).held = [] := by
  have ordered := safe.ordered name
  rw [idle] at ordered
  exact ordered

theorem busy_of_owner (safe : Safe rank workers) {lock : Lock}
    (owner : workers.owner lock = some name) : (workers.worker name).todo ≠ [] := by
  intro idle
  have member := (safe.owned lock name).mp owner
  rw [safe.held_of_idle idle] at member
  cases member

/-- What an owner waits for is above what it owns. -/
theorem rank_lt_of_waits (safe : Safe rank workers) {other : Name} {lock awaited : Lock}
    {rest : List (Operation Lock)} (owner : workers.owner lock = some name)
    (todo : (workers.worker name).todo = .acquire awaited :: rest)
    (owned : workers.owner awaited = some other) (different : other ≠ name) :
    rank lock < rank awaited := by
  have ordered := safe.ordered name
  rw [todo] at ordered
  rcases ordered.1 with held | above
  · have own := (safe.owned awaited name).mpr held
    rw [owned] at own
    exact absurd (Option.some.inj own) different
  · exact above lock ((safe.owned lock name).mp owner)

variable [DecidableEq Name]

/-- One worker changes what it holds and what it has to do. -/
theorem moved (safe : Safe rank workers) {owner : Lock → Option Name} {worker : Worker Lock}
    (own : ∀ lock, owner lock = some name ↔ lock ∈ worker.held)
    (others : ∀ lock other, other ≠ name →
      (owner lock = some other ↔ workers.owner lock = some other))
    (ordered : Ordered rank worker.held worker.todo) :
    Safe rank { workers.set name worker with owner := owner } where
  owned := by
    intro lock other
    change owner lock = some other ↔ lock ∈ (Function.update workers.worker name worker other).held
    by_cases same : other = name
    · rw [same, Function.update_self]
      exact own lock
    · rw [Function.update_of_ne same, others lock other same]
      exact safe.owned lock other
  ordered := by
    intro other
    change Ordered rank (Function.update workers.worker name worker other).held
      (Function.update workers.worker name worker other).todo
    by_cases same : other = name
    · rw [same, Function.update_self]
      exact ordered
    · rw [Function.update_of_ne same]
      exact safe.ordered other
  finite := by
    refine (safe.finite.insert name).subset ?_
    intro other busy
    by_cases same : other = name
    · exact Or.inl same
    · refine Or.inr ?_
      change (Function.update workers.worker name worker other).todo ≠ [] at busy
      rw [Function.update_of_ne same] at busy
      exact busy

theorem relabelled (safe : Safe rank workers) {todo : List (Operation Lock)}
    (ordered : Ordered rank (workers.worker name).held todo) :
    Safe rank (workers.set name { held := (workers.worker name).held, todo := todo }) :=
  safe.moved (fun lock => safe.owned lock name) (fun _lock _other _different => Iff.rfl) ordered

theorem step {move : Move Name Lock} (safe : Safe rank workers)
    (enters : EntersOrdered rank move) (taken : workers.step move = some next) :
    Safe rank next := by
  cases move with
  | enter name operations =>
      simp only [Workers.step] at taken
      cases todo : (workers.worker name).todo with
      | cons _ _ =>
          rw [todo] at taken
          cases taken
      | nil =>
          rw [todo] at taken
          cases taken
          refine safe.relabelled ?_
          rw [safe.held_of_idle todo]
          exact enters
  | advance name =>
      have ordered := safe.ordered name
      simp only [Workers.step] at taken
      cases todo : (workers.worker name).todo with
      | nil =>
          rw [todo] at taken
          cases taken
      | cons operation rest =>
          rw [todo] at taken ordered
          cases operation with
          | acquire lock =>
              by_cases free : workers.owner lock = none ∨ workers.owner lock = some name
              · simp only [if_pos free] at taken
                cases taken
                refine safe.moved ?_ ?_ ordered.2
                · intro other
                  by_cases same : other = lock
                  · rw [same, Function.update_self]
                    exact ⟨fun _own => List.mem_cons_self, fun _member => rfl⟩
                  · rw [Function.update_of_ne same, safe.owned other name, List.mem_cons]
                    exact ⟨Or.inr, fun member => member.resolve_left same⟩
                · intro other stranger different
                  by_cases same : other = lock
                  · rw [same, Function.update_self]
                    constructor
                    · intro impossible
                      exact absurd (Option.some.inj impossible).symm different
                    · intro impossible
                      rcases free with unowned | own
                      · rw [unowned] at impossible
                        cases impossible
                      · rw [own] at impossible
                        exact absurd (Option.some.inj impossible).symm different
                  · rw [Function.update_of_ne same]
              · simp only [if_neg free] at taken
                cases taken
          | release lock =>
              have holding : lock ∈ (workers.worker name).held := ordered.1
              have owner := (safe.owned lock name).mpr holding
              simp only [if_pos holding] at taken
              cases taken
              refine safe.moved ?_ ?_ ordered.2
              · intro other
                by_cases same : other = lock
                · subst same
                  by_cases again : other ∈ (workers.worker name).held.erase other
                  · rw [if_pos again]
                    exact ⟨fun _own => again, fun _member => owner⟩
                  · rw [if_neg again, Function.update_self]
                    exact ⟨fun impossible => (by cases impossible),
                      fun member => absurd member again⟩
                · rw [List.mem_erase_of_ne same, ← safe.owned other name]
                  split
                  · exact Iff.rfl
                  · rw [Function.update_of_ne same]
              · intro other stranger different
                split
                · exact Iff.rfl
                · by_cases same : other = lock
                  · rw [same, Function.update_self, owner]
                    constructor
                    · intro impossible
                      cases impossible
                    · intro impossible
                      exact absurd (Option.some.inj impossible).symm different
                  · rw [Function.update_of_ne same]
          | work =>
              cases taken
              exact safe.relabelled ordered
  | abandon name =>
      cases taken
      exact safe.relabelled (ordered_releases _)

end Safe

/-! ### Who can go on -/

variable [DecidableEq Name] {workers next : Workers Name Lock} {name : Name}

theorem Safe.advances_or_waits (safe : Safe rank workers)
    (busy : (workers.worker name).todo ≠ []) :
    workers.CanAdvance name ∨ ∃ other, workers.WaitsFor name other := by
  have ordered := safe.ordered name
  unfold Workers.CanAdvance
  simp only [Workers.step]
  cases todo : (workers.worker name).todo with
  | nil => exact absurd todo busy
  | cons operation rest =>
      rw [todo] at ordered
      cases operation with
      | acquire lock =>
          by_cases free : workers.owner lock = none ∨ workers.owner lock = some name
          · simp only [if_pos free]
            exact Or.inl ⟨_, rfl⟩
          · right
            cases owner : workers.owner lock with
            | none => exact absurd (Or.inl owner) free
            | some other =>
                refine ⟨other, lock, rest, todo, owner, ?_⟩
                intro same
                rw [same] at owner
                exact free (Or.inr owner)
      | release lock =>
          simp only [if_pos ordered.1]
          exact Or.inl ⟨_, rfl⟩
      | work => exact Or.inl ⟨_, rfl⟩

/-- By induction on how far the awaited lock is below the highest rank: what its owner
waits for is above it. -/
theorem Safe.reaches_of_waiting {top : ℕ} (bounded : ∀ lock, rank lock ≤ top)
    (safe : Safe rank workers) (height : ℕ) {other : Name} {lock : Lock}
    (owner : workers.owner lock = some other) (high : top ≤ rank lock + height) :
    ∃ runner, Relation.ReflTransGen workers.WaitsFor other runner ∧
      workers.CanAdvance runner := by
  induction height generalizing other lock with
  | zero =>
      rcases safe.advances_or_waits (safe.busy_of_owner owner) with able | ⟨third, waits⟩
      · exact ⟨other, .refl, able⟩
      · obtain ⟨awaited, rest, todo, owned, different⟩ := waits
        have above := safe.rank_lt_of_waits owner todo owned different
        have below := bounded awaited
        omega
  | succ height ih =>
      rcases safe.advances_or_waits (safe.busy_of_owner owner) with able | ⟨third, waits⟩
      · exact ⟨other, .refl, able⟩
      · obtain ⟨awaited, rest, todo, owned, different⟩ := waits
        have above := safe.rank_lt_of_waits owner todo owned different
        obtain ⟨runner, path, able⟩ := ih owned (by omega)
        exact ⟨runner, .head ⟨awaited, rest, todo, owned, different⟩ path, able⟩

/-- A worker that is not done waits, directly or through others, for one that can go on. -/
theorem Safe.reaches_runner {top : ℕ} (bounded : ∀ lock, rank lock ≤ top)
    (safe : Safe rank workers) (busy : (workers.worker name).todo ≠ []) :
    ∃ runner, Relation.ReflTransGen workers.WaitsFor name runner ∧
      workers.CanAdvance runner := by
  rcases safe.advances_or_waits busy with able | ⟨other, waits⟩
  · exact ⟨name, .refl, able⟩
  · obtain ⟨lock, rest, todo, owner, different⟩ := waits
    obtain ⟨runner, path, able⟩ :=
      safe.reaches_of_waiting bounded top owner (Nat.le_add_left top (rank lock))
    exact ⟨runner, .head ⟨lock, rest, todo, owner, different⟩ path, able⟩

/-! ### Running to the end -/

theorem advance_spec (taken : workers.step (.advance name) = some next) :
    (next.worker name).todo.length + 1 = (workers.worker name).todo.length ∧
      ∀ other, other ≠ name → next.worker other = workers.worker other := by
  have changed : ∀ (owner : Lock → Option Name) (worker : Worker Lock),
      worker.todo.length + 1 = (workers.worker name).todo.length →
      next = { workers.set name worker with owner := owner } →
        (next.worker name).todo.length + 1 = (workers.worker name).todo.length ∧
          ∀ other, other ≠ name → next.worker other = workers.worker other := by
    rintro owner worker shorter rfl
    constructor
    · change (Function.update workers.worker name worker name).todo.length + 1 = _
      rw [Function.update_self]
      exact shorter
    · intro other different
      exact Function.update_of_ne different worker workers.worker
  simp only [Workers.step] at taken
  cases todo : (workers.worker name).todo with
  | nil =>
      rw [todo] at taken
      cases taken
  | cons operation rest =>
      rw [todo] at taken changed
      cases operation with
      | acquire lock =>
          by_cases free : workers.owner lock = none ∨ workers.owner lock = some name
          · simp only [if_pos free] at taken
            cases taken
            exact changed _ _ rfl rfl
          · simp only [if_neg free] at taken
            cases taken
      | release lock =>
          by_cases holding : lock ∈ (workers.worker name).held
          · simp only [if_pos holding] at taken
            cases taken
            exact changed _ _ rfl rfl
          · simp only [if_neg holding] at taken
            cases taken
      | work =>
          cases taken
          exact changed workers.owner _ rfl rfl

/-- All workers are done and no lock is owned. -/
def Quiet (workers : Workers Name Lock) : Prop :=
  (∀ name, (workers.worker name).todo = []) ∧ ∀ lock, workers.owner lock = none

omit [DecidableEq Name] in
theorem Safe.quiet (safe : Safe rank workers)
    (idle : ∀ name, (workers.worker name).todo = []) : Quiet workers := by
  refine ⟨idle, ?_⟩
  intro lock
  cases owner : workers.owner lock with
  | none => rfl
  | some name => exact absurd (idle name) (safe.busy_of_owner owner)

/-- By induction on the operations that are left to the workers that are not done. -/
theorem Safe.drains {top : ℕ} (bounded : ∀ lock, rank lock ≤ top)
    (safe : Safe rank workers) :
    ∃ (names : List Name) (final : Workers Name Lock),
      exec Workers.step workers (names.map .advance) = some final ∧ Quiet final := by
  obtain ⟨busy, covers⟩ : ∃ busy : Finset Name, ∀ name, name ∉ busy →
      (workers.worker name).todo = [] := by
    refine ⟨safe.finite.toFinset, ?_⟩
    intro name outside
    rw [Set.Finite.mem_toFinset] at outside
    exact not_not.mp outside
  generalize count : ∑ name ∈ busy, (workers.worker name).todo.length = left
  induction left using Nat.strong_induction_on generalizing workers with
  | _ left ih =>
      by_cases idle : ∀ name, (workers.worker name).todo = []
      · exact ⟨[], workers, rfl, safe.quiet idle⟩
      · obtain ⟨name, active⟩ := not_forall.mp idle
        obtain ⟨runner, _path, next, taken⟩ := safe.reaches_runner bounded active
        obtain ⟨shorter, others⟩ := advance_spec taken
        have member : runner ∈ busy := by
          by_contra outside
          rw [covers runner outside] at shorter
          cases shorter
        have fewer : ∑ name ∈ busy, (next.worker name).todo.length < left := by
          rw [← count]
          refine Finset.sum_lt_sum ?_ ⟨runner, member, by omega⟩
          intro other _present
          by_cases same : other = runner
          · rw [same]
            omega
          · rw [others other same]
        have covered : ∀ other, other ∉ busy → (next.worker other).todo = [] := by
          intro other outside
          rw [others other (fun same => outside (same ▸ member))]
          exact covers other outside
        have after : Safe rank next :=
          safe.step (show EntersOrdered rank (Move.advance runner) from trivial) taken
        obtain ⟨names, final, run, quiet⟩ := ih _ fewer after covered rfl
        refine ⟨runner :: names, final, ?_, quiet⟩
        simp only [List.map_cons, exec, taken]
        exact run

end Safe

/-- Taken in both orders, two locks can block both of their workers. -/
example :
    let blocked := exec Workers.step (Workers.start : Workers Bool Bool)
      [.enter false (withLocks [false, true] []), .enter true (withLocks [true, false] []),
        .advance false, .advance true]
    blocked.isSome ∧
      ∀ name, (blocked.bind (fun workers => workers.step (.advance name))).isNone := by
  decide

end Foundations.LockOrder

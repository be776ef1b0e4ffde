/-
A database connection that opens a transaction with its first change.

Statements of the connection see what its open transaction has changed, and nobody
else does before the commit.  A piece of work is some statements and a commit; it may
fail at one of the statements or at the commit, and then the transaction stays open
with the changes made so far.
-/

import Mathlib.Init

namespace Foundations.Transactions

structure Connection (Table : Type*) where
  committed : Table
  /-- The table as the open transaction has changed it. -/
  pending : Option Table

/-- Where a piece of work fails. -/
inductive FailurePoint where
  | statement (index : Nat)
  | commit
  deriving DecidableEq, Repr

structure Failure (Error : Type*) where
  point : FailurePoint
  raised : Error

namespace Connection

variable {Table Error : Type*}

/-- What the statements of the connection see. -/
def table (connection : Connection Table) : Table :=
  connection.pending.getD connection.committed

def begin (connection : Connection Table) : Connection Table :=
  { connection with pending := some connection.table }

def execute (connection : Connection Table) (change : Table → Table) : Connection Table :=
  { connection with pending := some (change connection.table) }

def executeEach (connection : Connection Table) (changes : List (Table → Table)) :
    Connection Table :=
  changes.foldl execute connection

def commit (connection : Connection Table) : Connection Table :=
  { committed := connection.table
    pending := none }

/-- The statements that a failing piece of work has executed, if the point is reached. -/
def ranBefore (changes : List (Table → Table)) : FailurePoint → Option (List (Table → Table))
  | .statement index => if index < changes.length then some (changes.take index) else none
  | .commit => some changes

/-- The transaction is begun before the first statement. -/
def work (connection : Connection Table) (changes : List (Table → Table))
    (failure : Option (Failure Error)) : Except Error Unit × Connection Table :=
  let opened := connection.begin
  match failure with
  | none => (.ok (), (opened.executeEach changes).commit)
  | some failure =>
      match ranBefore changes failure.point with
      | none => (.ok (), (opened.executeEach changes).commit)
      | some ran => (.error failure.raised, opened.executeEach ran)

/-! ### What the operations leave -/

def changed (changes : List (Table → Table)) (table : Table) : Table :=
  changes.foldl (fun table change => change table) table

theorem table_executeEach (connection : Connection Table) (changes : List (Table → Table)) :
    (connection.executeEach changes).table = changed changes connection.table := by
  induction changes generalizing connection with
  | nil => rfl
  | cons change rest ih => exact ih (connection.execute change)

theorem committed_executeEach (connection : Connection Table)
    (changes : List (Table → Table)) :
    (connection.executeEach changes).committed = connection.committed := by
  induction changes generalizing connection with
  | nil => rfl
  | cons change rest ih => exact ih (connection.execute change)

theorem work_done (connection : Connection Table) (changes : List (Table → Table)) :
    (connection.work changes (none : Option (Failure Error))).1 = .ok () ∧
      (connection.work changes (none : Option (Failure Error))).2 =
        { committed := changed changes connection.table
          pending := none } := by
  refine ⟨rfl, ?_⟩
  change commit (connection.begin.executeEach changes) = _
  unfold commit
  rw [table_executeEach]
  rfl

/-- Work that fails commits nothing and leaves what its statements have changed. -/
theorem work_failed (connection : Connection Table) {changes ran : List (Table → Table)}
    {failure : Failure Error} (reached : ranBefore changes failure.point = some ran) :
    (connection.work changes (some failure)).1 = .error failure.raised ∧
      (connection.work changes (some failure)).2.committed = connection.committed ∧
      (connection.work changes (some failure)).2.table = changed ran connection.table := by
  unfold work
  simp only [reached]
  exact ⟨trivial, committed_executeEach connection.begin ran,
    table_executeEach connection.begin ran⟩

/-! ### Connections that cannot be told apart -/

/-- The statements of both see the same, and so does everybody else. -/
structure Alike (first second : Connection Table) : Prop where
  committed_eq : first.committed = second.committed
  table_eq : first.table = second.table

theorem Alike.work {first second : Connection Table} (alike : Alike first second)
    (changes : List (Table → Table)) (failure : Option (Failure Error)) :
    (first.work changes failure).1 = (second.work changes failure).1 ∧
      Alike (first.work changes failure).2 (second.work changes failure).2 := by
  cases failure with
  | none =>
      rw [(work_done first changes).2, (work_done second changes).2, alike.table_eq]
      exact ⟨rfl, rfl, rfl⟩
  | some failure =>
      cases reached : ranBefore changes failure.point with
      | none =>
          have complete : ∀ connection : Connection Table,
              connection.work changes (some failure) =
                (.ok (), (connection.work changes (none : Option (Failure Error))).2) := by
            intro connection
            unfold Connection.work
            simp only [reached]
          rw [complete first, complete second, (work_done first changes).2,
            (work_done second changes).2, alike.table_eq]
          exact ⟨rfl, rfl, rfl⟩
      | some ran =>
          obtain ⟨firstRaised, firstCommitted, firstTable⟩ := work_failed first reached
          obtain ⟨secondRaised, secondCommitted, secondTable⟩ := work_failed second reached
          refine ⟨firstRaised.trans secondRaised.symm, ?_, ?_⟩
          · rw [firstCommitted, secondCommitted, alike.committed_eq]
          · rw [firstTable, secondTable, alike.table_eq]

end Connection

end Foundations.Transactions

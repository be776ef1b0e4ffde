/-
Clients that put into one Postgres table while others leak and flush it.

A leak counts the rows that are too old for every window, deletes them and commits; a
flush deletes all rows.  From its `DELETE` to its end a transaction has a lock on the
table that the lock of a put conflicts with: a put is refused the table in between, and
a `DELETE` waits for the end of a put that was granted it.  A leak forgets rows that no
later put counts, so the windows of all rows that were put keep their limits.
-/

import PyrateLimiter.PostgresClients
import PyrateLimiter.PostgresPut

namespace PyrateLimiter

open Foundations.ExclusiveLock
open Foundations.TransitionSystem
open Foundations.WindowLog

inductive Deletion where
  | leak (currentTimestamp : Int)
  | flush
  deriving DecidableEq, Repr

def Deletion.selects (toTimestamp : Int → Int) (rates : RateList) :
    Deletion → Row → Bool
  | .leak currentTimestamp, row =>
      row.itemTimestamp < toTimestamp (leakBound rates currentTimestamp)
  | .flush, _ => true

inductive DeletePhase where
  | idle
  | counted (currentTimestamp : Int) (count : Nat)
  | deleted (deletion : Deletion) (count : Nat)

structure LeakEnd where
  currentTimestamp : Int
  count : Nat
  deriving DecidableEq, Repr

inductive TableAction (Client Session : Type) where
  | put (action : PutAction Client)
  | leakCount (session : Session) (currentTimestamp : Int)
  | leak (session : Session)
  | flush (session : Session)
  | commit (session : Session)
  | fail (session : Session)
  deriving DecidableEq, Repr

/-- The puts of the clients, and the transactions of their sessions that leak or flush. -/
structure LeakedDatabase (Client Session : Type) where
  database : Database Client
  deleting : Session → DeletePhase
  /-- The sessions whose transaction has deleted and is not over. -/
  deleters : List Session
  leaks : List LeakEnd
  /-- How many puts had ended at the last flush. -/
  flushed : Nat

namespace LeakedDatabase

variable {Client Session : Type}

def start : LeakedDatabase Client Session :=
  { database := .start
    deleting := fun _ => .idle
    deleters := []
    leaks := []
    flushed := 0 }

/-- The rows of the puts that returned `True` since the last flush. -/
def history (toTimestamp : Int → Int) (shared : LeakedDatabase Client Session) : List Row :=
  (shared.database.ends.drop shared.flushed).flatMap (PutEnd.rows toTimestamp)

/-- No put counts its windows before the time of a leak that is over. -/
def InClockOrder (shared : LeakedDatabase Client Session) : TableAction Client Session → Prop
  | .put (.countWindows client) =>
      ∀ item, item ∈ (shared.database.phase client).item →
        ∀ finished, finished ∈ shared.leaks → finished.currentTimestamp ≤ item.timestamp
  | _ => True

instance (shared : LeakedDatabase Client Session) :
    ∀ action : TableAction Client Session, Decidable (shared.InClockOrder action)
  | .put (.countWindows client) =>
      inferInstanceAs (Decidable (∀ item, item ∈ (shared.database.phase client).item → _))
  | .put (.start _ _) | .put (.lockTable _ _) | .put (.admitCheck _) | .put (.insert _)
  | .put (.finish _) | .put (.fail _ _) | .leakCount _ _ | .leak _ | .flush _ | .commit _
  | .fail _ => .isTrue trivial

/-- The rows of the puts since the last flush keep every window, and those of them that no
leak was late enough for are in the table. -/
structure LeaksAccounted (toTimestamp : Int → Int) (rates : RateList)
    (shared : LeakedDatabase Client Session) : Prop where
  within : ∀ rate, rate ∈ rates → ∀ finish,
    (countBetween (PostgresBucket.instants (shared.history toTimestamp))
      (finish - rate.interval * 1000) finish : Int) ≤ rate.limit
  part : shared.database.table.Sublist (shared.history toTimestamp)
  kept : ∀ first, (∀ finished, finished ∈ shared.leaks →
      toTimestamp (leakBound rates finished.currentTimestamp) ≤ first) →
    countSince (PostgresBucket.instants shared.database.table) first =
      countSince (PostgresBucket.instants (shared.history toTimestamp)) first

variable [DecidableEq Client] [DecidableEq Session]

def move (shared : LeakedDatabase Client Session) (session : Session) (phase : DeletePhase) :
    LeakedDatabase Client Session :=
  { shared with deleting := Function.update shared.deleting session phase }

/-- A `DELETE` waits for a put that has the table, and for the rows that another one has
deleted. -/
def canDelete (toTimestamp : Int → Int) (rates : RateList)
    (shared : LeakedDatabase Client Session) (deletion : Deletion) : Bool :=
  shared.database.holder.isNone && shared.deleters.all (fun other =>
    match shared.deleting other with
    | .deleted earlier _ => shared.database.table.all (fun row =>
        !(deletion.selects toTimestamp rates row && earlier.selects toTimestamp rates row))
    | .idle | .counted _ _ => true)

def delete (shared : LeakedDatabase Client Session) (session : Session) (deletion : Deletion)
    (count : Nat) : LeakedDatabase Client Session :=
  { shared.move session (.deleted deletion count) with deleters := session :: shared.deleters }

def leave (shared : LeakedDatabase Client Session) (session : Session) :
    LeakedDatabase Client Session :=
  { shared.move session .idle with deleters := shared.deleters.filter (· ≠ session) }

/-- One statement of a put, a leak or a flush, or the end of its transaction. -/
def step (toTimestamp : Int → Int) (rates : RateList) (clientOf : Session → Client)
    (shared : LeakedDatabase Client Session) :
    TableAction Client Session → Option (LeakedDatabase Client Session)
  | .put (.lockTable client true) =>
      match shared.deleters with
      | [] => (shared.database.step toTimestamp rates (.lockTable client true)).map
          (fun database => { shared with database := database })
      | _ :: _ => none
  | .put action =>
      (shared.database.step toTimestamp rates action).map
        (fun database => { shared with database := database })
  | .leakCount session currentTimestamp =>
      match shared.deleting session with
      | .idle =>
          if leakBound rates currentTimestamp ≤ 0 then some shared
          else
            some (shared.move session (.counted currentTimestamp
              (shared.database.table.countP
                ((Deletion.leak currentTimestamp).selects toTimestamp rates))))
      | _ => none
  | .leak session =>
      match shared.deleting session with
      | .counted currentTimestamp count =>
          if shared.canDelete toTimestamp rates (.leak currentTimestamp) then
            some (shared.delete session (.leak currentTimestamp) count)
          else none
      | _ => none
  | .flush session =>
      match shared.deleting session with
      | .idle =>
          if shared.canDelete toTimestamp rates .flush then
            some
              { shared.delete session .flush 0 with
                database := shared.database.setFailingRate (clientOf session) none }
          else none
      | _ => none
  | .commit session =>
      match shared.deleting session with
      | .deleted deletion count =>
          -- No row has come since the `DELETE`, and none that it has deleted is gone.
          let table := shared.database.table.filter
            (fun row => !deletion.selects toTimestamp rates row)
          let left :=
            { shared.leave session with database := { shared.database with table := table } }
          match deletion with
          | .leak currentTimestamp =>
              some { left with leaks := shared.leaks ++ [⟨currentTimestamp, count⟩] }
          | .flush => some { left with flushed := shared.database.ends.length }
      | _ => none
  | .fail session =>
      match shared.deleting session with
      | .idle => none
      | _ => some (shared.leave session)

end LeakedDatabase

/-! ### The puts on a table that remembers more -/

namespace Database

variable {Client : Type} {toTimestamp : Int → Int} {rates : RateList}

/-- The same puts over another table, with another record of those that have ended. -/
def recast (database : Database Client) (table : List Row) (ends : List PutEnd) :
    Database Client :=
  { database with
    table := table
    ends := ends }

theorem countWindows_eq {table other : List Row} {timestamp : Int}
    (counted : ∀ rate, rate ∈ rates →
      countSince (PostgresBucket.instants other) (toTimestamp timestamp - rate.interval * 1000) =
        countSince (PostgresBucket.instants table)
          (toTimestamp timestamp - rate.interval * 1000)) :
    PostgresBucket.countWindows toTimestamp other rates timestamp =
      PostgresBucket.countWindows toTimestamp table rates timestamp := by
  apply List.map_congr_left
  intro rate member
  rw [PostgresBucket.countWindow_eq, PostgresBucket.countWindow_eq, counted rate member]

variable [DecidableEq Client]

/-- Where the windows of an item that is about to be counted agree, so does the step. -/
theorem step_recast {database next : Database Client} {action : PutAction Client}
    (taken : database.step toTimestamp rates action = some next) (table : List Row)
    (ends : List PutEnd)
    (counted : ∀ client item, action = .countWindows client →
      database.phase client = .locked item → ∀ rate, rate ∈ rates →
        countSince (PostgresBucket.instants table)
            (toTimestamp item.timestamp - rate.interval * 1000) =
          countSince (PostgresBucket.instants database.table)
            (toTimestamp item.timestamp - rate.interval * 1000)) :
    ∃ rows added, next.table = database.table ++ rows ∧ next.ends = database.ends ++ added ∧
      (database.recast table ends).step toTimestamp rates action =
        some (next.recast (table ++ rows) (ends ++ added)) := by
  have still : ∀ (phase : Client → PutPhase) (holder : Option Client)
      (failingRate : Client → Option Rate),
      next = { database with phase := phase, holder := holder, failingRate := failingRate } →
      (database.recast table ends).step toTimestamp rates action =
        some { database.recast table ends with
          phase := phase
          holder := holder
          failingRate := failingRate } →
      ∃ rows added, next.table = database.table ++ rows ∧ next.ends = database.ends ++ added ∧
        (database.recast table ends).step toTimestamp rates action =
          some (next.recast (table ++ rows) (ends ++ added)) := by
    rintro phase holder failingRate rfl stepped
    refine ⟨[], [], (List.append_nil _).symm, (List.append_nil _).symm, ?_⟩
    rw [stepped, List.append_nil, List.append_nil]
    rfl
  have gone : ∀ (client : Client) (finished : PutEnd),
      next = database.leave client finished →
      (database.recast table ends).step toTimestamp rates action =
        some ((database.recast table ends).leave client finished) →
      ∃ rows added, next.table = database.table ++ rows ∧ next.ends = database.ends ++ added ∧
        (database.recast table ends).step toTimestamp rates action =
          some (next.recast (table ++ rows) (ends ++ added)) := by
    rintro client finished rfl stepped
    refine ⟨[], [finished], (List.append_nil _).symm, rfl, ?_⟩
    rw [stepped, List.append_nil]
    rfl
  cases action with
  | start client item =>
      simp only [step] at taken
      cases current : database.phase client with
      | idle =>
          rw [current] at taken
          have same : (database.recast table ends).phase client = .idle := current
          by_cases negative : item.weight < 0
          · simp only [if_pos negative] at taken
            cases taken
          · by_cases weightless : item.weight = 0
            · simp only [if_neg negative, if_pos weightless] at taken
              cases taken
              refine ⟨[], [_], (List.append_nil _).symm, rfl, ?_⟩
              simp only [step, same, if_neg negative, if_pos weightless, List.append_nil]
              rfl
            · simp only [if_neg negative, if_neg weightless] at taken
              cases taken
              refine still _ _ _ rfl ?_
              simp only [step, same, if_neg negative, if_neg weightless]
              rfl
      | _ =>
          rw [current] at taken
          cases taken
  | lockTable client granted =>
      simp only [step] at taken
      split at taken
      · rename_i item current free
        cases taken
        refine still _ _ _ rfl ?_
        simp only [step, recast, current, free]
        rfl
      · rename_i item _holder current
        cases taken
        refine still _ _ _ rfl ?_
        simp only [step, recast, current]
        rfl
      · cases taken
  | countWindows client =>
      simp only [step] at taken
      split at taken
      · rename_i item current
        cases taken
        refine still _ _ _ rfl ?_
        simp only [step, recast, current]
        rw [countWindows_eq (counted client item rfl current)]
        rfl
      · cases taken
  | admitCheck client =>
      simp only [step] at taken
      split at taken
      · rename_i item counts current
        split at taken
        · rename_i raised decided
          cases taken
          refine still _ _ _ rfl ?_
          simp only [step, recast, current, decided]
          rfl
        · rename_i decision decided
          split at taken
          · rename_i allowed
            cases taken
            refine still _ _ _ rfl ?_
            simp only [step, recast, current, decided, if_pos allowed]
            rfl
          · rename_i refused
            cases taken
            refine still _ _ _ rfl ?_
            simp only [step, recast, current, decided, if_neg refused]
            rfl
      · cases taken
  | insert client =>
      simp only [step] at taken
      split at taken
      · rename_i item current
        split at taken
        · rename_i raised inserted
          cases taken
          refine still _ _ _ rfl ?_
          simp only [step, recast, current, inserted]
          rfl
        · rename_i rows inserted
          cases taken
          refine still _ _ _ rfl ?_
          simp only [step, recast, current, inserted]
          rfl
      · cases taken
  | finish client =>
      simp only [step] at taken
      split at taken
      · rename_i item rows current
        cases taken
        refine ⟨rows, [_], rfl, rfl, ?_⟩
        simp only [step, recast, current]
        rfl
      · rename_i item current
        cases taken
        refine gone _ _ rfl ?_
        simp only [step, recast, current]
      · rename_i item raised current
        cases taken
        refine gone _ _ rfl ?_
        simp only [step, recast, current]
      · cases taken
  | fail client raised =>
      simp only [step] at taken
      split at taken
      · rename_i item current
        cases taken
        refine gone _ _ rfl ?_
        simp only [step, recast, current]
      · cases taken

theorem holder_of_step {database next : Database Client} {action : PutAction Client}
    (taken : database.step toTimestamp rates action = some next)
    (ungranted : ∀ client, action ≠ .lockTable client true) (free : database.holder = none) :
    next.holder = none := by
  have left : ∀ (client : Client) (finished : PutEnd),
      (database.leave client finished).holder = none := by
    intro client finished
    change (if database.holder = some client then none else database.holder) = none
    rw [free]
    rfl
  cases action with
  | start client item =>
      simp only [step] at taken
      split at taken
      · split at taken
        · cases taken
        · split at taken <;> cases taken <;> exact free
      · cases taken
  | lockTable client granted =>
      cases granted with
      | true => exact absurd rfl (ungranted client)
      | false =>
          simp only [step] at taken
          cases current : database.phase client with
          | began item =>
              rw [current] at taken
              cases taken
              exact free
          | _ =>
              rw [current] at taken
              cases taken
  | countWindows client =>
      simp only [step] at taken
      split at taken <;> cases taken
      exact free
  | admitCheck client =>
      simp only [step] at taken
      split at taken
      · split at taken
        · cases taken
          exact free
        · split at taken <;> cases taken <;> exact free
      · cases taken
  | insert client =>
      simp only [step] at taken
      split at taken
      · split at taken <;> cases taken <;> exact free
      · cases taken
  | finish client =>
      simp only [step] at taken
      split at taken
      · rename_i item rows _current
        cases taken
        exact left client { item := item, outcome := .ok true }
      · cases taken
        exact left _ _
      · cases taken
        exact left _ _
      · cases taken
  | fail client raised =>
      simp only [step] at taken
      split at taken <;> cases taken
      exact left _ _

end Database

/-! ### Leaks, flushes and puts together -/

/-- What a leak deletes is before every window of an item that is no earlier than it. -/
theorem localInstant_leakBound_le (offset : Int) {rates : RateList} {rate : Rate}
    (member : rate ∈ rates) {now timestamp : Int} (ordered : now ≤ timestamp) :
    localInstant offset (leakBound rates now) ≤
      localInstant offset timestamp - rate.interval * 1000 := by
  have widest := rates.interval_le_last rate member
  unfold localInstant utcInstant leakBound
  omega

namespace LeakedDatabase

variable {Client Session : Type} {toTimestamp : Int → Int} {rates : RateList}

def remembering (toTimestamp : Int → Int) (shared : LeakedDatabase Client Session) :
    Database Client :=
  shared.database.recast (shared.history toTimestamp) (shared.database.ends.drop shared.flushed)

structure LeakInvariant (toTimestamp : Int → Int) (rates : RateList)
    (shared : LeakedDatabase Client Session) : Prop where
  puts : Database.PutInvariant toTimestamp rates (shared.remembering toTimestamp)
  part : shared.database.table.Sublist (shared.history toTimestamp)
  kept : ∀ first, (∀ finished, finished ∈ shared.leaks →
      toTimestamp (leakBound rates finished.currentTimestamp) ≤ first) →
    countSince (PostgresBucket.instants shared.database.table) first =
      countSince (PostgresBucket.instants (shared.history toTimestamp)) first
  apart : shared.deleters ≠ [] → shared.database.holder = none
  listed : ∀ session deletion count, shared.deleting session = .deleted deletion count →
    session ∈ shared.deleters
  flushed : shared.flushed ≤ shared.database.ends.length

namespace LeakInvariant

variable {shared : LeakedDatabase Client Session}

theorem start :
    LeakInvariant toTimestamp rates (LeakedDatabase.start : LeakedDatabase Client Session) where
  puts := Database.PutInvariant.start
  part := List.Sublist.refl _
  kept := fun _first _late => rfl
  apart := fun _none => rfl
  listed := fun _session _deletion _count impossible => by cases impossible
  flushed := Nat.le_refl 0

theorem accounted (invariant : LeakInvariant toTimestamp rates shared) :
    shared.LeaksAccounted toTimestamp rates where
  within := invariant.puts.putsAccounted.within
  part := invariant.part
  kept := invariant.kept

theorem put [DecidableEq Client] (invariant : LeakInvariant toTimestamp rates shared)
    {database : Database Client} {action : PutAction Client}
    (taken : shared.database.step toTimestamp rates action = some database)
    (counted : ∀ client item, action = .countWindows client →
      shared.database.phase client = .locked item → ∀ rate, rate ∈ rates →
        countSince (PostgresBucket.instants (shared.history toTimestamp))
            (toTimestamp item.timestamp - rate.interval * 1000) =
          countSince (PostgresBucket.instants shared.database.table)
            (toTimestamp item.timestamp - rate.interval * 1000))
    (free : ∀ client, action = .lockTable client true → shared.deleters = []) :
    LeakInvariant toTimestamp rates { shared with database := database } := by
  obtain ⟨rows, added, table, ends, stepped⟩ :=
    Database.step_recast taken (shared.history toTimestamp)
      (shared.database.ends.drop shared.flushed) counted
  have puts := invariant.puts.step stepped
  have dropped : database.ends.drop shared.flushed =
      shared.database.ends.drop shared.flushed ++ added := by
    rw [ends, List.drop_append_of_le_length invariant.flushed]
  have grown : history toTimestamp { shared with database := database } =
      shared.history toTimestamp ++ rows := by
    unfold history
    rw [show ({ shared with database := database } : LeakedDatabase Client Session).database.ends =
      database.ends from rfl, dropped]
    exact puts.added.symm
  exact
    { puts := by
        unfold remembering
        rw [grown]
        change Database.PutInvariant toTimestamp rates
          (database.recast _ (database.ends.drop shared.flushed))
        rw [dropped]
        exact puts
      part := by
        rw [grown]
        change database.table.Sublist _
        rw [table]
        exact invariant.part.append (List.Sublist.refl rows)
      kept := by
        intro first late
        rw [grown]
        change countSince (PostgresBucket.instants database.table) first = _
        rw [table, PostgresBucket.instants, PostgresBucket.instants, List.map_append,
          List.map_append, countSince_append, countSince_append]
        exact congrArg (· + _) (invariant.kept first late)
      apart := by
        intro deleting
        refine Database.holder_of_step taken ?_ (invariant.apart deleting)
        intro client granted
        exact deleting (free client granted)
      listed := invariant.listed
      flushed := by
        change shared.flushed ≤ database.ends.length
        rw [ends, List.length_append]
        exact Nat.le_add_right_of_le invariant.flushed }

/-- A leak is over: what it has deleted is before the bound that it is remembered by. -/
theorem leaked (invariant : LeakInvariant toTimestamp rates shared) (currentTimestamp : Int)
    (count : Nat) :
    LeakInvariant toTimestamp rates
      { shared with
        database :=
          { shared.database with
            table := shared.database.table.filter (fun row =>
              !(Deletion.leak currentTimestamp).selects toTimestamp rates row) }
        leaks := shared.leaks ++ [⟨currentTimestamp, count⟩] } :=
  { invariant with
    part := List.filter_sublist.trans invariant.part
    kept := by
      intro first late
      refine Eq.trans ?_ (invariant.kept first
        (fun finished member => late finished (List.mem_append_left _ member)))
      have bound : toTimestamp (leakBound rates currentTimestamp) ≤ first :=
        late ⟨currentTimestamp, count⟩ (List.mem_append_right _ (List.mem_singleton.mpr rfl))
      unfold countSince PostgresBucket.instants
      rw [List.countP_map, List.countP_map, List.countP_filter]
      apply List.countP_congr
      intro row _member
      simp only [Function.comp_apply, Deletion.selects, Bool.and_eq_true, decide_eq_true_eq,
        Bool.not_eq_true', decide_eq_false_iff_not]
      omega }

theorem outside (invariant : LeakInvariant toTimestamp rates shared)
    (deleting : shared.deleters ≠ []) (client : Client) :
    (shared.database.phase client).holdsLock = false := by
  cases holds : (shared.database.phase client).holdsLock with
  | false => rfl
  | true =>
      have holder := invariant.puts.exclusive client holds
      rw [show (shared.remembering toTimestamp).holder = shared.database.holder from rfl,
        invariant.apart deleting] at holder
      cases holder

theorem emptied (invariant : LeakInvariant toTimestamp rates shared)
    (outside : ∀ client, (shared.database.phase client).holdsLock = false) :
    LeakInvariant toTimestamp rates
      { shared with
        database :=
          { shared.database with
            table := shared.database.table.filter (fun row =>
              !Deletion.flush.selects toTimestamp rates row) }
        flushed := shared.database.ends.length } := by
  have empty : shared.database.table.filter (fun row =>
      !Deletion.flush.selects toTimestamp rates row) = [] := by
    rw [List.filter_eq_nil_iff]
    intro row _member impossible
    cases impossible
  have forgotten : shared.database.ends.drop shared.database.ends.length = [] :=
    List.drop_length
  rw [empty]
  have history_eq : history toTimestamp
      { shared with
        database := { shared.database with table := [] }
        flushed := shared.database.ends.length } = [] := by
    unfold history
    rw [forgotten]
    rfl
  exact
    { puts :=
        { exclusive := invariant.puts.exclusive
          sound := fun client => (invariant.puts.sound client).outside (outside client)
          weighty := by
            intro finished member
            change finished ∈ shared.database.ends.drop shared.database.ends.length at member
            rw [forgotten] at member
            cases member
          within := by
            unfold remembering
            rw [history_eq]
            exact PostgresBucket.within_nil rates
          added := rfl }
      part := List.nil_sublist _
      kept := by
        intro first _late
        rw [history_eq]
      apart := invariant.apart
      listed := invariant.listed
      flushed := Nat.le_refl _ }

/-- In clock order an item's windows count as much in the table as in the history. -/
theorem counted {offset : Int}
    (invariant : LeakInvariant (localInstant offset) rates shared) {action : PutAction Client}
    (ordered : shared.InClockOrder (.put action)) (client : Client) (item : RateItem)
    (counting : action = .countWindows client)
    (current : shared.database.phase client = .locked item) (rate : Rate)
    (member : rate ∈ rates) :
    countSince (PostgresBucket.instants (shared.history (localInstant offset)))
        (localInstant offset item.timestamp - rate.interval * 1000) =
      countSince (PostgresBucket.instants shared.database.table)
        (localInstant offset item.timestamp - rate.interval * 1000) := by
  subst counting
  refine (invariant.kept _ ?_).symm
  intro finished present
  exact localInstant_leakBound_le offset member
    (ordered item (by rw [current]; rfl) finished present)

variable [DecidableEq Session] {session : Session}

theorem moved (invariant : LeakInvariant toTimestamp rates shared) {phase : DeletePhase}
    (undeleted : ∀ deletion count, phase ≠ .deleted deletion count) :
    LeakInvariant toTimestamp rates (shared.move session phase) :=
  { invariant with
    listed := by
      intro other deletion count deleted
      change Function.update shared.deleting session phase other = _ at deleted
      by_cases same : other = session
      · rw [same, Function.update_self] at deleted
        exact absurd deleted (undeleted deletion count)
      · rw [Function.update_of_ne same] at deleted
        exact invariant.listed other deletion count deleted }

theorem delete (invariant : LeakInvariant toTimestamp rates shared) {deletion : Deletion}
    (able : shared.canDelete toTimestamp rates deletion = true) (count : Nat) :
    LeakInvariant toTimestamp rates (shared.delete session deletion count) :=
  { invariant with
    apart := by
      intro _deleting
      unfold canDelete at able
      rw [Bool.and_eq_true, Option.isNone_iff_eq_none] at able
      exact able.1
    listed := by
      intro other earlier earlierCount deleted
      change Function.update shared.deleting session _ other = _ at deleted
      by_cases same : other = session
      · rw [same]
        exact List.mem_cons_self
      · rw [Function.update_of_ne same] at deleted
        exact List.mem_cons_of_mem _ (invariant.listed other earlier earlierCount deleted) }

theorem leave (invariant : LeakInvariant toTimestamp rates shared) :
    LeakInvariant toTimestamp rates (shared.leave session) :=
  { invariant with
    apart := by
      intro deleting
      apply invariant.apart
      intro none
      apply deleting
      change shared.deleters.filter _ = []
      rw [none]
      rfl
    listed := by
      intro other deletion count deleted
      change Function.update shared.deleting session .idle other = _ at deleted
      by_cases same : other = session
      · rw [same, Function.update_self] at deleted
        cases deleted
      · rw [Function.update_of_ne same] at deleted
        exact List.mem_filter.mpr
          ⟨invariant.listed other deletion count deleted, decide_eq_true same⟩ }

theorem step {offset : Int} [DecidableEq Client] {clientOf : Session → Client}
    {action : TableAction Client Session} {next : LeakedDatabase Client Session}
    (invariant : LeakInvariant (localInstant offset) rates shared)
    (ordered : shared.InClockOrder action)
    (taken : shared.step (localInstant offset) rates clientOf action = some next) :
    LeakInvariant (localInstant offset) rates next := by
  cases action with
  | put action =>
      have counted := invariant.counted ordered
      by_cases granting : ∃ client, action = .lockTable client true
      · obtain ⟨client, rfl⟩ := granting
        simp only [LeakedDatabase.step] at taken
        split at taken
        · rename_i free
          obtain ⟨database, stepped, rfl⟩ := Option.map_eq_some_iff.mp taken
          exact invariant.put stepped counted (fun _client _granted => free)
        · cases taken
      · have onward : (shared.database.step (localInstant offset) rates action).map
            (fun database => { shared with database := database }) = some next := by
          cases action with
          | lockTable client granted =>
              cases granted with
              | true => exact absurd ⟨client, rfl⟩ granting
              | false => exact taken
          | _ => exact taken
        obtain ⟨database, stepped, rfl⟩ := Option.map_eq_some_iff.mp onward
        exact invariant.put stepped counted
          (fun client granted => absurd ⟨client, granted⟩ granting)
  | leakCount session currentTimestamp =>
      simp only [LeakedDatabase.step] at taken
      split at taken
      · split at taken
        · cases taken
          exact invariant
        · cases taken
          exact invariant.moved (fun _deletion _count impossible => by cases impossible)
      · cases taken
  | leak session =>
      simp only [LeakedDatabase.step] at taken
      split at taken
      · split at taken
        · rename_i able
          cases taken
          exact invariant.delete able _
        · cases taken
      · cases taken
  | flush session =>
      simp only [LeakedDatabase.step] at taken
      split at taken
      · split at taken
        · rename_i able
          cases taken
          have deleting : LeakInvariant (localInstant offset) rates
              (shared.delete session .flush 0) := invariant.delete able 0
          exact { deleting with puts := { deleting.puts with } }
        · cases taken
      · cases taken
  | commit session =>
      simp only [LeakedDatabase.step] at taken
      split at taken
      · rename_i deletion count current
        have deleting : shared.deleters ≠ [] := by
          intro none
          have listed := invariant.listed session deletion count current
          rw [none] at listed
          cases listed
        cases deletion with
        | leak currentTimestamp =>
            cases taken
            exact invariant.leave.leaked currentTimestamp count
        | flush =>
            cases taken
            exact invariant.leave.emptied (invariant.outside deleting)
      · cases taken
  | fail session =>
      simp only [LeakedDatabase.step] at taken
      split at taken
      · cases taken
      · cases taken
        exact invariant.leave

end LeakInvariant

end LeakedDatabase

/-- Whatever the interleaving of the statements of puts, leaks and flushes, and whatever
fails: as long as no put counts its windows before the time of a leak that is over, the
rows put since the last flush, leaked or not, keep every window, and no row is lost that a
leak was not late enough for. -/
theorem postgres_leaks_accounted {Client Session : Type} [DecidableEq Client]
    [DecidableEq Session] (offset : Int) (rates : RateList) (clientOf : Session → Client)
    (actions : List (TableAction Client Session))
    (ordered : StepsMeet (LeakedDatabase.step (localInstant offset) rates clientOf)
      LeakedDatabase.InClockOrder LeakedDatabase.start actions) :
    Always (LeakedDatabase.step (localInstant offset) rates clientOf)
      (LeakedDatabase.LeaksAccounted (localInstant offset) rates) LeakedDatabase.start actions :=
  (Always.of_invariant (fun _before _action _after invariant ordered taken =>
    invariant.step ordered taken) LeakedDatabase.LeakInvariant.start ordered).imp
    (fun _shared invariant => invariant.accounted)

def putStatements (client : Bool) (item : RateItem) : List (TableAction Bool Bool) :=
  [.put (.start client item), .put (.lockTable client true), .put (.countWindows client),
    .put (.admitCheck client), .put (.insert client), .put (.finish client)]

/-- Two sessions count the same two rows, while another put has the table.  The put that
comes before the end of the first leak is refused the table. -/
def leakedTwice : List (TableAction Bool Bool) :=
  putStatements false ⟨"first", 1000, 2⟩ ++
    [.put (.start true ⟨"second", 2001, 1⟩), .put (.lockTable true true),
      .leakCount false 2001, .leakCount true 2001, .put (.countWindows true),
      .put (.admitCheck true), .put (.insert true), .put (.finish true), .leak false,
      .put (.start false ⟨"third", 2002, 1⟩), .put (.lockTable false false),
      .put (.finish false), .commit false, .leak true, .commit true] ++
    putStatements true ⟨"fourth", 2003, 1⟩ ++ [.flush false, .commit false] ++
    putStatements true ⟨"fifth", 2003, 2⟩

theorem postgres_leaks_accounted_leakedTwice :
    (exec (LeakedDatabase.step (localInstant 7200) twoIn100ThreeIn1000 (fun session => !session))
        LeakedDatabase.start leakedTwice).map
        (fun final => (PostgresBucket.instants final.database.table, final.leaks)) =
      some ([7202003000, 7202003000], [⟨2001, 2⟩, ⟨2001, 2⟩]) ∧
      Always (LeakedDatabase.step (localInstant 7200) twoIn100ThreeIn1000
          (fun session => !session))
        (LeakedDatabase.LeaksAccounted (localInstant 7200) twoIn100ThreeIn1000)
        LeakedDatabase.start leakedTwice :=
  ⟨by decide, postgres_leaks_accounted 7200 twoIn100ThreeIn1000 (fun session => !session)
    leakedTwice (by decide)⟩

end PyrateLimiter

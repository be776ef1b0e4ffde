/-
Clients that put into one Postgres table.

A put is a transaction of several statements, and the statements of different
clients interleave freely.  At most one transaction holds the exclusive table
lock, from its grant to the end of the transaction; a client that is not granted
it at once gives up.  What a transaction has inserted becomes visible when it
commits and is gone when it rolls back.
-/

import PyrateLimiter.Foundations.ExclusiveLock
import PyrateLimiter.Foundations.TransitionSystem
import PyrateLimiter.PostgresBucket

namespace PyrateLimiter

open Foundations.ExclusiveLock
open Foundations.TransitionSystem
open Foundations.WindowLog

inductive PutPhase where
  | idle
  | began (item : RateItem)
  | locked (item : RateItem)
  | counted (item : RateItem) (counts : List Int)
  | admitted (item : RateItem)
  | inserted (item : RateItem) (rows : List Row)
  | refused (item : RateItem)
  | raised (item : RateItem) (error : PyError)

def PutPhase.holdsLock : PutPhase → Bool
  | .locked _ | .counted _ _ | .admitted _ | .inserted _ _ => true
  | .idle | .began _ | .refused _ | .raised _ _ => false

def PutPhase.item : PutPhase → Option RateItem
  | .idle => none
  | .began item | .locked item | .counted item _ | .admitted item | .inserted item _
  | .refused item | .raised item _ => some item

structure PutEnd where
  item : RateItem
  outcome : Except PyError Bool

def PutEnd.returnedTrue (finished : PutEnd) : Bool :=
  match finished.outcome with
  | .ok true => true
  | _ => false

inductive PutAction (Client : Type) where
  | start (client : Client) (item : RateItem)
  | lockTable (client : Client) (granted : Bool)
  | countWindows (client : Client)
  | admitCheck (client : Client)
  | insert (client : Client)
  | finish (client : Client)
  | fail (client : Client) (error : PyError)
  deriving DecidableEq, Repr

structure Database (Client : Type) where
  table : List Row
  holder : Option Client
  phase : Client → PutPhase
  failingRate : Client → Option Rate
  ends : List PutEnd

namespace Database

variable {Client : Type}

def start : Database Client :=
  { table := []
    holder := none
    phase := fun _ => .idle
    failingRate := fun _ => none
    ends := [] }

variable [DecidableEq Client]

def move (database : Database Client) (client : Client) (phase : PutPhase) : Database Client :=
  { database with phase := Function.update database.phase client phase }

def setFailingRate (database : Database Client) (client : Client) (rate : Option Rate) :
    Database Client :=
  { database with failingRate := Function.update database.failingRate client rate }

/-- The end of a client's transaction, which gives up its lock. -/
def leave (database : Database Client) (client : Client) (finished : PutEnd) :
    Database Client :=
  { database.move client .idle with
    holder := if database.holder = some client then none else database.holder
    ends := database.ends ++ [finished] }

/-- One statement of a client, or the end of its transaction.  The limiter lets no
negative weight through, and a weightless item never reaches the database. -/
def step (toTimestamp : Int → Int) (rates : RateList) (database : Database Client) :
    PutAction Client → Option (Database Client)
  | .start client item =>
      match database.phase client with
      | .idle =>
          if item.weight < 0 then none
          else if item.weight = 0 then
            some { database with ends := database.ends ++ [{ item := item, outcome := .ok true }] }
          else some (database.move client (.began item))
      | _ => none
  | .lockTable client granted =>
      match database.phase client, granted, database.holder with
      | .began item, true, none =>
          some { database.move client (.locked item) with holder := some client }
      | .began item, false, _ =>
          some ((database.move client (.refused item)).setFailingRate client rates.first)
      | _, _, _ => none
  | .countWindows client =>
      match database.phase client with
      | .locked item =>
          some (database.move client (.counted item
            (PostgresBucket.countWindows toTimestamp database.table rates item.timestamp)))
      | _ => none
  | .admitCheck client =>
      match database.phase client with
      | .counted item counts =>
          match admitDecision rates.toList counts item.weight with
          | .error raised => some (database.move client (.raised item raised))
          | .ok decision =>
              if decision.allowed then
                some ((database.move client (.admitted item)).setFailingRate client none)
              else
                some ((database.move client (.refused item)).setFailingRate client
                  decision.failingRate)
      | _ => none
  | .insert client =>
      match database.phase client with
      | .admitted item =>
          match PostgresBucket.insertRows toTimestamp item with
          | .error raised => some (database.move client (.raised item raised))
          | .ok rows => some (database.move client (.inserted item rows))
      | _ => none
  | .finish client =>
      match database.phase client with
      | .inserted item rows =>
          some
            { database.leave client { item := item, outcome := .ok true } with
              table := database.table ++ rows }
      | .refused item => some (database.leave client { item := item, outcome := .ok false })
      | .raised item raised =>
          some (database.leave client { item := item, outcome := .error raised })
      | _ => none
  | .fail client raised =>
      match (database.phase client).item with
      | some item => some (database.leave client { item := item, outcome := .error raised })
      | none => none

end Database

/-- The rows a put stands for: one for each unit if it returned `True`, else none. -/
def PutEnd.rows (toTimestamp : Int → Int) (finished : PutEnd) : List Row :=
  if finished.returnedTrue then
    List.replicate finished.item.weight.toNat (PostgresBucket.unitRow toTimestamp finished.item)
  else []

/-- The windows keep their limits, and the table holds the rows of the puts that
returned `True` and no others. -/
structure Database.PutsAccounted {Client : Type} (toTimestamp : Int → Int) (rates : RateList)
    (database : Database Client) : Prop where
  within : ∀ rate, rate ∈ rates → ∀ finish,
    (countBetween (PostgresBucket.instants database.table) (finish - rate.interval * 1000)
      finish : Int) ≤ rate.limit
  total : (database.table.length : Int) =
    ((database.ends.filter PutEnd.returnedTrue).map (fun finished => finished.item.weight)).sum
  added : database.table = database.ends.flatMap (PutEnd.rows toTimestamp)

def PutPhase.Sound (toTimestamp : Int → Int) (rates : RateList) (table : List Row) :
    PutPhase → Prop
  | .began item | .locked item => 1 ≤ item.weight
  | .counted item counts =>
      1 ≤ item.weight ∧
        counts = PostgresBucket.countWindows toTimestamp table rates item.timestamp
  | .admitted item =>
      1 ≤ item.weight ∧
        Room rates.instantWindows (PostgresBucket.instants table) (toTimestamp item.timestamp)
          item.weight
  | .inserted item rows =>
      1 ≤ item.weight ∧
        Room rates.instantWindows (PostgresBucket.instants table) (toTimestamp item.timestamp)
          item.weight ∧
        rows = List.replicate item.weight.toNat (PostgresBucket.unitRow toTimestamp item)
  | .idle | .refused _ | .raised _ _ => True

theorem PutPhase.Sound.outside {toTimestamp : Int → Int} {rates : RateList}
    {table grown : List Row} {phase : PutPhase} (sound : phase.Sound toTimestamp rates table)
    (outside : phase.holdsLock = false) : phase.Sound toTimestamp rates grown := by
  cases phase with
  | locked item => cases outside
  | counted item counts => cases outside
  | admitted item => cases outside
  | inserted item rows => cases outside
  | _ => exact sound

namespace Database

variable {Client : Type} {toTimestamp : Int → Int} {rates : RateList}

structure PutInvariant (toTimestamp : Int → Int) (rates : RateList)
    (database : Database Client) : Prop where
  exclusive : Exclusive PutPhase.holdsLock database.phase database.holder
  sound : ∀ client, (database.phase client).Sound toTimestamp rates database.table
  weighty : ∀ finished, finished ∈ database.ends → finished.returnedTrue = true →
    0 ≤ finished.item.weight
  within : Within rates.instantWindows (PostgresBucket.instants database.table)
  added : database.table = database.ends.flatMap (PutEnd.rows toTimestamp)

theorem length_rows {ends : List PutEnd}
    (weighty : ∀ finished, finished ∈ ends → finished.returnedTrue = true →
      0 ≤ finished.item.weight) :
    ((ends.flatMap (PutEnd.rows toTimestamp)).length : Int) =
      ((ends.filter PutEnd.returnedTrue).map (fun finished => finished.item.weight)).sum := by
  induction ends with
  | nil => rfl
  | cons finished rest ih =>
      have tail := ih (fun other member => weighty other (List.mem_cons_of_mem finished member))
      rw [List.flatMap_cons, List.length_append, List.filter_cons, PutEnd.rows]
      cases returned : finished.returnedTrue with
      | true =>
          have nonneg := weighty finished List.mem_cons_self returned
          simp only [if_true, List.length_replicate, List.map_cons, List.sum_cons]
          push_cast
          omega
      | false =>
          simp only [Bool.false_eq_true, if_false, List.length_nil, Nat.zero_add]
          exact tail

namespace PutInvariant

theorem start : PutInvariant toTimestamp rates (Database.start : Database Client) where
  exclusive := fun _client impossible => by cases impossible
  sound := fun _client => trivial
  weighty := fun _finished impossible => by cases impossible
  within := PostgresBucket.within_nil rates
  added := rfl

variable {before after : Database Client}

theorem putsAccounted (invariant : PutInvariant toTimestamp rates before) :
    before.PutsAccounted toTimestamp rates where
  within := by
    have within := invariant.within
    unfold Within RateList.instantWindows at within
    rw [List.forall_mem_map] at within
    exact within
  total := by
    rw [invariant.added]
    exact length_rows invariant.weighty
  added := invariant.added

variable [DecidableEq Client]

theorem moved (invariant : PutInvariant toTimestamp rates before) {client : Client}
    {phase : PutPhase} (sameTable : after.table = before.table)
    (sameEnds : after.ends = before.ends)
    (updated : after.phase = Function.update before.phase client phase)
    (sound : phase.Sound toTimestamp rates before.table)
    (exclusive : Exclusive PutPhase.holdsLock after.phase after.holder) :
    PutInvariant toTimestamp rates after where
  exclusive := exclusive
  sound := by
    rw [sameTable, updated, Function.forall_update_iff before.phase
      (fun _other phase => phase.Sound toTimestamp rates before.table)]
    exact ⟨sound, fun other _different => invariant.sound other⟩
  weighty := by rw [sameEnds]; exact invariant.weighty
  within := by rw [sameTable]; exact invariant.within
  added := by rw [sameTable, sameEnds]; exact invariant.added

theorem left (invariant : PutInvariant toTimestamp rates before) (client : Client)
    {finished : PutEnd} (unsuccessful : finished.returnedTrue = false) :
    PutInvariant toTimestamp rates (before.leave client finished) where
  exclusive := invariant.exclusive.leave rfl
  sound := by
    change ∀ other, (Function.update before.phase client PutPhase.idle other).Sound
      toTimestamp rates before.table
    rw [Function.forall_update_iff before.phase
      (fun _other phase => phase.Sound toTimestamp rates before.table)]
    exact ⟨trivial, fun other _different => invariant.sound other⟩
  weighty := by
    intro other member returned
    rcases List.mem_append.mp member with old | new
    · exact invariant.weighty other old returned
    · rw [List.mem_singleton.mp new, unsuccessful] at returned
      cases returned
  within := invariant.within
  added := by
    simp only [leave, move, List.flatMap_append, List.flatMap_cons, List.flatMap_nil,
      PutEnd.rows, unsuccessful, Bool.false_eq_true, if_false, List.append_nil]
    exact invariant.added

/-- A commit: the lock kept the table as it was when the put was admitted. -/
theorem committed (invariant : PutInvariant toTimestamp rates before) {client : Client}
    {item : RateItem} {rows : List Row}
    (current : before.phase client = .inserted item rows) :
    PutInvariant toTimestamp rates
      { before.leave client { item := item, outcome := .ok true } with
        table := before.table ++ rows } := by
  have known := invariant.sound client
  rw [current] at known
  obtain ⟨positive, room, inserted⟩ := known
  have inside : (before.phase client).holdsLock = true := by rw [current]; rfl
  exact
    { exclusive := invariant.exclusive.leave rfl
      sound := by
        change ∀ other, (Function.update before.phase client PutPhase.idle other).Sound
          toTimestamp rates (before.table ++ rows)
        rw [Function.forall_update_iff before.phase
          (fun _other phase => phase.Sound toTimestamp rates (before.table ++ rows))]
        exact ⟨trivial, fun other different =>
          (invariant.sound other).outside (invariant.exclusive.outside inside different)⟩
      weighty := by
        intro other member returned
        rcases List.mem_append.mp member with old | new
        · exact invariant.weighty other old returned
        · rw [List.mem_singleton.mp new]
          exact Int.le_trans (by decide) positive
      within := by
        change Within rates.instantWindows (PostgresBucket.instants (before.table ++ rows))
        rw [PostgresBucket.instants, List.map_append, inserted]
        change Within rates.instantWindows (PostgresBucket.instants before.table ++
          PostgresBucket.instants (List.replicate item.weight.toNat
            (PostgresBucket.unitRow toTimestamp item)))
        rw [PostgresBucket.instants_unitRows]
        exact invariant.within.record room item.weight.toNat (by omega)
      added := by
        simp only [leave, move, List.flatMap_append, List.flatMap_cons, List.flatMap_nil,
          List.append_nil]
        rw [← invariant.added, inserted]
        rfl }

theorem step {action : PutAction Client} (invariant : PutInvariant toTimestamp rates before)
    (taken : before.step toTimestamp rates action = some after) :
    PutInvariant toTimestamp rates after := by
  have exclusive := invariant.exclusive
  cases action with
  | start client item =>
      simp only [Database.step] at taken
      split at taken
      · split at taken
        · cases taken
        · rename_i notNegative
          split at taken
          · rename_i weightless
            cases taken
            exact
              { invariant with
                weighty := by
                  intro other member returned
                  rcases List.mem_append.mp member with old | new
                  · exact invariant.weighty other old returned
                  · rw [List.mem_singleton.mp new]
                    exact Int.not_lt.mp notNegative
                added := by
                  simp only [List.flatMap_append, List.flatMap_cons, List.flatMap_nil,
                    List.append_nil, PutEnd.rows, weightless, Int.toNat_zero,
                    List.replicate_zero, ite_self]
                  exact invariant.added }
          · rename_i weighty
            cases taken
            refine invariant.moved rfl rfl rfl ?_
              (exclusive.move (fun impossible => by cases impossible))
            change 1 ≤ item.weight
            omega
      · cases taken
  | lockTable client granted =>
      simp only [Database.step] at taken
      split at taken
      · rename_i item current free
        have known := invariant.sound client
        rw [current] at known
        cases taken
        exact invariant.moved rfl rfl rfl known (exclusive.acquire free client _)
      · cases taken
        exact invariant.moved rfl rfl rfl trivial
          (exclusive.move (fun impossible => by cases impossible))
      · cases taken
  | countWindows client =>
      simp only [Database.step] at taken
      split at taken
      · rename_i item current
        have known := invariant.sound client
        rw [current] at known
        cases taken
        exact invariant.moved rfl rfl rfl ⟨known, rfl⟩
          (exclusive.move (fun _ => exclusive client (by rw [current]; rfl)))
      · cases taken
  | admitCheck client =>
      simp only [Database.step] at taken
      split at taken
      · rename_i item counts current
        have known := invariant.sound client
        rw [current] at known
        obtain ⟨positive, counted⟩ := known
        split at taken
        · cases taken
          exact invariant.moved rfl rfl rfl trivial
            (exclusive.move (fun impossible => by cases impossible))
        · rename_i decision decided
          rw [counted] at decided
          split at taken
          · rename_i allowed
            cases taken
            exact invariant.moved rfl rfl rfl
              ⟨positive, (PostgresBucket.admit_countWindows decided).mp allowed⟩
              (exclusive.move (fun _ => exclusive client (by rw [current]; rfl)))
          · cases taken
            exact invariant.moved rfl rfl rfl trivial
              (exclusive.move (fun impossible => by cases impossible))
      · cases taken
  | insert client =>
      simp only [Database.step] at taken
      split at taken
      · rename_i item current
        have known := invariant.sound client
        rw [current] at known
        split at taken
        · cases taken
          exact invariant.moved rfl rfl rfl trivial
            (exclusive.move (fun impossible => by cases impossible))
        · rename_i rows inserted
          cases taken
          refine invariant.moved rfl rfl rfl ⟨known.1, known.2, ?_⟩
            (exclusive.move (fun _ => exclusive client (by rw [current]; rfl)))
          unfold PostgresBucket.insertRows at inserted
          split at inserted
          · cases inserted
          · cases inserted
            rfl
      · cases taken
  | finish client =>
      simp only [Database.step] at taken
      split at taken
      · rename_i item rows current
        cases taken
        exact invariant.committed current
      · cases taken
        exact invariant.left client rfl
      · cases taken
        exact invariant.left client rfl
      · cases taken
  | fail client raised =>
      simp only [Database.step] at taken
      split at taken
      · cases taken
        exact invariant.left client rfl
      · cases taken

end PutInvariant

end Database

/-- Whatever the interleaving of their statements, and whatever fails, clients
keep every window of the table within its limit, and its rows are those of the
puts that returned `True`. -/
theorem postgres_puts_accounted {Client : Type} [DecidableEq Client] (toTimestamp : Int → Int)
    (rates : RateList) (actions : List (PutAction Client)) :
    Always (Database.step toTimestamp rates) (Database.PutsAccounted toTimestamp rates)
      Database.start actions := by
  have kept : Always (Database.step toTimestamp rates)
      (Database.PutInvariant toTimestamp rates) (Database.start : Database Client) actions :=
    Always.of_preserved (fun _before _action _after invariant taken => invariant.step taken)
      Database.PutInvariant.start actions
  exact kept.imp (fun _database invariant => invariant.putsAccounted)

end PyrateLimiter

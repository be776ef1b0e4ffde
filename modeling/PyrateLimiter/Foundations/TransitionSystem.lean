/-
Runs of a deterministic partial step function, and the induction rules for them.

A run is a list of actions; an action that is not enabled ends it.  The rules
say once how an invariant of single steps becomes a property of every state of
a run, for runs whose steps all meet a side condition, and when that condition
is also forced by the property.
-/

import Mathlib.Init

namespace Foundations.TransitionSystem

variable {State Action : Type*} (step : State → Action → Option State)

def exec : State → List Action → Option State
  | state, [] => some state
  | state, action :: rest =>
      match step state action with
      | some next => exec next rest
      | none => none

theorem exec_append (state : State) (first second : List Action) :
    exec step state (first ++ second) =
      (exec step state first).bind (fun reached => exec step reached second) := by
  induction first generalizing state with
  | nil => rfl
  | cons action rest ih =>
      rw [List.cons_append]
      simp only [exec]
      cases step state action with
      | none => rfl
      | some next => exact ih next

/-- Every state of the run, the first one included, has the property. -/
def Always (property : State → Prop) : State → List Action → Prop
  | state, [] => property state
  | state, action :: rest =>
      property state ∧ ∀ next, step state action = some next → Always property next rest

/-- Every step of the run meets the condition, read in the state before it. -/
def StepsMeet (condition : State → Action → Prop) : State → List Action → Prop
  | _, [] => True
  | state, action :: rest =>
      ∀ next, step state action = some next →
        condition state action ∧ StepsMeet condition next rest

instance StepsMeet.decidable {condition : State → Action → Prop}
    [decidable : ∀ state action, Decidable (condition state action)] :
    ∀ state actions, Decidable (StepsMeet step condition state actions)
  | _, [] => .isTrue trivial
  | state, action :: rest =>
      match taken : step state action with
      | none => .isTrue (fun _next impossible => by rw [taken] at impossible; cases impossible)
      | some next =>
          have _later : Decidable (StepsMeet step condition next rest) :=
            StepsMeet.decidable next rest
          decidable_of_iff (condition state action ∧ StepsMeet step condition next rest)
            ⟨fun met _other same => by rw [taken] at same; cases same; exact met,
              fun met => met next taken⟩

variable {step}

theorem exec_single {state next : State} {action : Action} (taken : step state action = some next) :
    exec step state [action] = some next := by
  simp only [exec, taken]

theorem StepsMeet.of_forall {condition : State → Action → Prop}
    (all : ∀ state action, condition state action) (state : State) (actions : List Action) :
    StepsMeet step condition state actions := by
  induction actions generalizing state with
  | nil => trivial
  | cons action rest ih => exact fun next _taken => ⟨all state action, ih next⟩

theorem StepsMeet.of_forall_mem {admissible : Action → Prop} (state : State)
    {actions : List Action} (all : ∀ action, action ∈ actions → admissible action) :
    StepsMeet step (fun _state action => admissible action) state actions := by
  induction actions generalizing state with
  | nil => trivial
  | cons action rest ih =>
      exact fun next _taken => ⟨all action List.mem_cons_self,
        ih next (fun other member => all other (List.mem_cons_of_mem action member))⟩

theorem StepsMeet.and_forall_mem {condition : State → Action → Prop} {admissible : Action → Prop}
    {state : State} {actions : List Action}
    (met : StepsMeet step condition state actions)
    (all : ∀ action, action ∈ actions → admissible action) :
    StepsMeet step (fun state action => admissible action ∧ condition state action)
      state actions := by
  induction actions generalizing state with
  | nil => trivial
  | cons action rest ih =>
      intro next taken
      obtain ⟨here, later⟩ := met next taken
      exact ⟨⟨all action List.mem_cons_self, here⟩,
        ih later (fun other member => all other (List.mem_cons_of_mem action member))⟩

theorem Always.initial {property : State → Prop} {state : State} {actions : List Action}
    (always : Always step property state actions) : property state := by
  cases actions with
  | nil => exact always
  | cons action rest => exact always.1

theorem Always.reached {property : State → Prop} {state final : State} {actions : List Action}
    (always : Always step property state actions) (run : exec step state actions = some final) :
    property final := by
  induction actions generalizing state with
  | nil =>
      cases run
      exact always
  | cons action rest ih =>
      cases taken : step state action with
      | none =>
          simp only [exec, taken] at run
          cases run
      | some next =>
          simp only [exec, taken] at run
          exact ih (always.2 next taken) run

theorem Always.imp {strong weak : State → Prop} (implies : ∀ state, strong state → weak state)
    {state : State} {actions : List Action} (always : Always step strong state actions) :
    Always step weak state actions := by
  induction actions generalizing state with
  | nil => exact implies state always
  | cons action rest ih =>
      exact ⟨implies state always.1, fun next taken => ih (always.2 next taken)⟩

section Invariants

variable {invariant : State → Prop} {condition : State → Action → Prop}

/-- An invariant that each step meeting the condition preserves holds in every
state of a run whose steps all meet it. -/
theorem Always.of_invariant
    (preserved : ∀ before action after, invariant before → condition before action →
      step before action = some after → invariant after)
    {state : State} (start : invariant state) {actions : List Action}
    (met : StepsMeet step condition state actions) : Always step invariant state actions := by
  induction actions generalizing state with
  | nil => exact start
  | cons action rest ih =>
      refine ⟨start, ?_⟩
      intro next taken
      obtain ⟨here, later⟩ := met next taken
      exact ih (preserved state action next start here taken) later

/-- An invariant of every single step holds in every state of every run. -/
theorem Always.of_preserved
    (preserved : ∀ before action after, invariant before →
      step before action = some after → invariant after)
    {state : State} (start : invariant state) (actions : List Action) :
    Always step invariant state actions :=
  Always.of_invariant
    (fun before action after holds _met taken => preserved before action after holds taken) start
    (StepsMeet.of_forall (fun _state _action => trivial) state actions)

/-- Where every step outside the condition leaves the property, the condition is
exact: all states of a run have the property if and only if all its steps meet
the condition. -/
theorem always_iff_stepsMeet {property : State → Prop}
    (sound : ∀ state, invariant state → property state)
    (preserved : ∀ before action after, invariant before → condition before action →
      step before action = some after → invariant after)
    (forced : ∀ before action after, invariant before → ¬condition before action →
      step before action = some after → ¬property after)
    {state : State} (start : invariant state) (actions : List Action) :
    Always step property state actions ↔ StepsMeet step condition state actions := by
  constructor
  · intro always
    induction actions generalizing state with
    | nil => trivial
    | cons action rest ih =>
        intro next taken
        have here : condition state action := by
          apply Classical.byContradiction
          intro outside
          exact forced state action next start outside taken (always.2 next taken).initial
        exact ⟨here, ih (preserved state action next start here taken) (always.2 next taken)⟩
  · intro met
    exact (Always.of_invariant preserved start met).imp sound

end Invariants

/-- Where each step is simulated by an operation of an abstract state, or by none, a run is
simulated by its operations in their order. -/
theorem simulated_exec {Abstract Operation : Type*} {operation : Action → Option Operation}
    {perform : Abstract → Operation → Abstract} {admissible : Action → Prop}
    (simulates : Abstract → State → Prop)
    (simulated : ∀ abstract before action after, simulates abstract before → admissible action →
      step before action = some after →
        simulates ((operation action).elim abstract (perform abstract)) after)
    {abstract : Abstract} {state final : State} (start : simulates abstract state)
    {actions : List Action} (all : ∀ action, action ∈ actions → admissible action)
    (run : exec step state actions = some final) :
    simulates ((actions.filterMap operation).foldl perform abstract) final := by
  induction actions generalizing abstract state with
  | nil =>
      cases run
      exact start
  | cons action rest ih =>
      simp only [exec] at run
      split at run
      · rename_i next taken
        have onward := ih
          (simulated abstract state action next start (all action List.mem_cons_self) taken)
          (fun other member => all other (List.mem_cons_of_mem action member)) run
        rw [List.filterMap_cons]
        cases performed : operation action with
        | none =>
            rw [performed] at onward
            exact onward
        | some first =>
            rw [performed] at onward
            exact onward
      · cases run

/-- Where each step of a system is met by a step of another into related states, each of its
runs is met by a run of the other. -/
theorem exec_simulated {Other : Type*} {counterpart : Other → Action → Option Other}
    {related : State → Other → Prop} {condition : State → Action → Prop}
    (met : ∀ state action next other, related state other → condition state action →
      step state action = some next →
        ∃ following, counterpart other action = some following ∧ related next following)
    {state final : State} {other : Other} (start : related state other) {actions : List Action}
    (all : StepsMeet step condition state actions) (run : exec step state actions = some final) :
    ∃ reached, exec counterpart other actions = some reached ∧ related final reached := by
  induction actions generalizing state other with
  | nil =>
      cases run
      exact ⟨other, rfl, start⟩
  | cons action rest ih =>
      cases taken : step state action with
      | none =>
          simp only [exec, taken] at run
          cases run
      | some next =>
          simp only [exec, taken] at run
          obtain ⟨here, later⟩ := all next taken
          obtain ⟨following, followed, after⟩ := met state action next other start here taken
          obtain ⟨reached, onward, ended⟩ := ih after later run
          refine ⟨reached, ?_, ended⟩
          simp only [exec, followed]
          exact onward

/-- What a run shows to an observer who sees each of its steps as some steps of another system. -/
def shown {Other : Type*} (step : State → Action → Option State)
    (seen : State → Action → List Other) : State → List Action → List Other
  | _, [] => []
  | state, action :: rest =>
      match step state action with
      | some next => seen state action ++ shown step seen next rest
      | none => []

/-- Where each step is seen as steps of another system that lead to related states, so is
each run. -/
theorem exec_shown {Other Counteraction : Type*}
    {counterpart : Other → Counteraction → Option Other}
    {seen : State → Action → List Counteraction} {related : State → Other → Prop}
    (met : ∀ state action next other, related state other → step state action = some next →
      ∃ following, exec counterpart other (seen state action) = some following ∧
        related next following)
    {state final : State} {other : Other} (start : related state other) {actions : List Action}
    (run : exec step state actions = some final) :
    ∃ reached, exec counterpart other (shown step seen state actions) = some reached ∧
      related final reached := by
  induction actions generalizing state other with
  | nil =>
      cases run
      exact ⟨other, rfl, start⟩
  | cons action rest ih =>
      cases taken : step state action with
      | none =>
          simp only [exec, taken] at run
          cases run
      | some next =>
          simp only [exec, taken] at run
          obtain ⟨following, followed, after⟩ := met state action next other start taken
          obtain ⟨reached, onward, ended⟩ := ih after run
          refine ⟨reached, ?_, ended⟩
          simp only [shown, taken]
          rw [exec_append, followed]
          exact onward

end Foundations.TransitionSystem

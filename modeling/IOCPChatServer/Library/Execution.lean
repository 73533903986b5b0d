import Mathlib

/-!
# Executions of partial transition functions

A component is a step function which may have no successor.  An execution is
driven by a finite list of events; `Always` speaks about every state it
visits, `Throughout` about every step it takes and `Meets` about every step it
tries.  All are defined along the list of events, so each induction over an
execution is an induction over that list, and the rules below package it once.
-/

/-- The literals of `Fin 1`, and below of `Fin 2`, by which schedules name threads and clients. -/
instance neZero_one : NeZero 1 := ⟨Nat.one_ne_zero⟩

instance neZero_two : NeZero 2 := ⟨two_ne_zero⟩

namespace Execution

section Runs

variable {State Event : Type*} (step : State → Event → Option State)

/-- The state after a finite list of events, if every step has a successor. -/
def run? : State → List Event → Option State
  | state, [] => some state
  | state, event :: rest => (step state event).bind (fun next => run? next rest)

/-- The predicate holds in every state which the events visit. -/
def Always (holds : State → Prop) : State → List Event → Prop
  | state, [] => holds state
  | state, event :: rest =>
      holds state ∧ ∀ next, step state event = some next → Always holds next rest

/-- The condition holds of every step which the events take. -/
def Throughout (condition : State → Event → Prop) : State → List Event → Prop
  | _, [] => True
  | state, event :: rest => ∀ next, step state event = some next →
      condition state event ∧ Throughout condition next rest

/-- The condition holds of every event which is tried, that without a successor included. -/
def Meets (condition : State → Event → Prop) : State → List Event → Prop
  | _, [] => True
  | state, event :: rest => condition state event ∧
      ∀ next, step state event = some next → Meets condition next rest

variable {step}

/-- The first step of a completed run, and the run after it. -/
theorem run?_cons_some {state last : State} {event : Event} {rest : List Event}
    (completed : run? step state (event :: rest) = some last) :
    ∃ next, step state event = some next ∧ run? step next rest = some last :=
  Option.bind_eq_some_iff.mp completed

/-- A run of two lists of events is the run of the second after the run of the first. -/
theorem run?_append (state : State) (first second : List Event) :
    run? step state (first ++ second) =
      (run? step state first).bind fun middle => run? step middle second := by
  induction first generalizing state with
  | nil => rfl
  | cons event rest ih =>
      simp only [List.cons_append, run?, ih]
      cases step state event with
      | none => rfl
      | some next => rfl

/-- What holds in every visited state holds in the last one. -/
theorem Always.last {holds : State → Prop} {state last : State}
    {events : List Event} (always : Always step holds state events)
    (completed : run? step state events = some last) : holds last := by
  induction events generalizing state with
  | nil =>
      cases completed
      exact always
  | cons event rest ih =>
      obtain ⟨next, taken, remaining⟩ := run?_cons_some completed
      exact ih (always.2 next taken) remaining

/-- An observation of the last state is made in a good state. -/
theorem Always.observed {Value : Type*} {observe : State → Value} {holds : State → Prop}
    {state : State} {events : List Event} {value : Value}
    (always : Always step holds state events)
    (seen : (run? step state events).map observe = some value) :
    ∃ last, holds last ∧ observe last = value := by
  obtain ⟨last, completed, observed⟩ := Option.map_eq_some_iff.mp seen
  exact ⟨last, always.last completed, observed⟩

theorem Always.mono {first second : State → Prop}
    (implies : ∀ state, first state → second state)
    {state : State} {events : List Event}
    (always : Always step first state events) : Always step second state events := by
  induction events generalizing state with
  | nil => exact implies state always
  | cons event rest ih =>
      exact ⟨implies state always.1, fun next taken => ih (always.2 next taken)⟩

/-- Two predicates which agree under an invariant. -/
theorem always_congr {invariant first second : State → Prop}
    (preserved : ∀ state event next, invariant state →
      step state event = some next → invariant next)
    (agree : ∀ state, invariant state → (first state ↔ second state))
    {state : State} (initially : invariant state) (events : List Event) :
    Always step first state events ↔ Always step second state events := by
  induction events generalizing state with
  | nil => exact agree state initially
  | cons event rest ih =>
      refine and_congr (agree state initially) ?_
      refine forall_congr' fun next => forall_congr' fun taken => ?_
      exact ih (preserved state event next initially taken)

theorem Always.and {first second : State → Prop} {state : State} {events : List Event}
    (always : Always step first state events) (also : Always step second state events) :
    Always step (fun state => first state ∧ second state) state events := by
  induction events generalizing state with
  | nil => exact ⟨always, also⟩
  | cons event rest ih =>
      exact ⟨⟨always.1, also.1⟩, fun next taken => ih (always.2 next taken) (also.2 next taken)⟩

theorem Throughout.mono {first second : State → Event → Prop}
    (implies : ∀ state event, first state event → second state event)
    {state : State} {events : List Event}
    (conditions : Throughout step first state events) :
    Throughout step second state events := by
  induction events generalizing state with
  | nil => trivial
  | cons event rest ih =>
      intro next taken
      obtain ⟨condition, later⟩ := conditions next taken
      exact ⟨implies state event condition, ih later⟩

/-- The steps of a run and those of another from where it ends. -/
theorem Throughout.append {condition : State → Event → Prop} {state : State}
    {first second : List Event} (before : Throughout step condition state first)
    (after : ∀ middle, run? step state first = some middle →
      Throughout step condition middle second) :
    Throughout step condition state (first ++ second) := by
  induction first generalizing state with
  | nil => exact after state rfl
  | cons event rest ih =>
      intro next taken
      obtain ⟨here, later⟩ := before next taken
      refine ⟨here, ih later fun middle completed => after middle ?_⟩
      rw [run?, taken]
      exact completed

/-- Two conditions which agree on every step under an invariant. -/
theorem throughout_congr {invariant : State → Prop} {first second : State → Event → Prop}
    (preserved : ∀ state event next, invariant state →
      step state event = some next → invariant next)
    (agree : ∀ state event next, invariant state → step state event = some next →
      (first state event ↔ second state event))
    {state : State} (initially : invariant state) (events : List Event) :
    Throughout step first state events ↔ Throughout step second state events := by
  induction events generalizing state with
  | nil => exact Iff.rfl
  | cons event rest ih =>
      refine forall_congr' fun next => forall_congr' fun taken => ?_
      exact and_congr (agree state event next initially taken)
        (ih (preserved state event next initially taken))

/-- Two conditions which agree on every step. -/
theorem throughout_congr_of_step {first second : State → Event → Prop}
    (agree : ∀ state event next, step state event = some next →
      (first state event ↔ second state event)) (state : State) (events : List Event) :
    Throughout step first state events ↔ Throughout step second state events := by
  have preserved : ∀ state event next, (fun _ => True) state →
      step state event = some next → (fun _ => True) next := fun _ _ _ _ _ => trivial
  exact throughout_congr preserved (fun state event next _ => agree state event next) trivial events

/-- The condition holds of the step which ends a run. -/
theorem Throughout.final {condition : State → Event → Prop} {state last next : State}
    {events : List Event} {event : Event}
    (conditions : Throughout step condition state (events ++ [event]))
    (completed : run? step state events = some last) (taken : step last event = some next) :
    condition last event := by
  induction events generalizing state with
  | nil =>
      cases completed
      exact (conditions next taken).1
  | cons first rest ih =>
      obtain ⟨middle, firstTaken, remaining⟩ := run?_cons_some completed
      exact ih (conditions middle firstTaken).2 remaining

/-- A condition which only names the event is a condition on the list. -/
theorem throughout_of_forall {condition : Event → Prop} {events : List Event}
    (all : ∀ event ∈ events, condition event) (state : State) :
    Throughout step (fun _ event => condition event) state events := by
  induction events generalizing state with
  | nil => trivial
  | cons event rest ih =>
      intro next _
      exact ⟨all event List.mem_cons_self,
        ih (fun later member => all later (List.mem_cons_of_mem _ member)) next⟩

/--
The exactness rule.  If, under an invariant, a step from a good state ends in a
good state precisely when it meets the condition, then a run stays in good
states precisely when all its steps meet the condition.  The invariant need only
be preserved by steps from good states.
-/
theorem always_iff_throughout_while {invariant holds : State → Prop}
    {condition : State → Event → Prop}
    (preserved : ∀ state event next, invariant state → holds state →
      step state event = some next → invariant next)
    (exact : ∀ state event next, invariant state → holds state →
      step state event = some next → (holds next ↔ condition state event))
    {state : State} (initially : invariant state) (good : holds state)
    (events : List Event) :
    Always step holds state events ↔ Throughout step condition state events := by
  induction events generalizing state with
  | nil => exact ⟨fun _ => trivial, fun _ => good⟩
  | cons event rest ih =>
      constructor
      · intro always next taken
        have later := always.2 next taken
        have goodNext : holds next := by
          cases rest with
          | nil => exact later
          | cons _ _ => exact later.1
        have invariantNext := preserved state event next initially good taken
        exact ⟨(exact state event next initially good taken).mp goodNext,
          (ih invariantNext goodNext).mp later⟩
      · intro conditions
        refine ⟨good, fun next taken => ?_⟩
        obtain ⟨condition, later⟩ := conditions next taken
        have goodNext := (exact state event next initially good taken).mpr condition
        exact (ih (preserved state event next initially good taken) goodNext).mpr later

/-- The exactness rule with an invariant of every step. -/
theorem always_iff_throughout {invariant holds : State → Prop}
    {condition : State → Event → Prop}
    (preserved : ∀ state event next, invariant state →
      step state event = some next → invariant next)
    (exact : ∀ state event next, invariant state → holds state →
      step state event = some next → (holds next ↔ condition state event))
    {state : State} (initially : invariant state) (good : holds state)
    (events : List Event) :
    Always step holds state events ↔ Throughout step condition state events :=
  always_iff_throughout_while (fun state event next kept _ => preserved state event next kept)
    exact initially good events

/-- The exactness rule without an invariant. -/
theorem always_iff_throughout_of_exact {holds : State → Prop}
    {condition : State → Event → Prop}
    (exact : ∀ state event next, holds state → step state event = some next →
      (holds next ↔ condition state event))
    {state : State} (good : holds state) (events : List Event) :
    Always step holds state events ↔ Throughout step condition state events := by
  have preserved : ∀ state event next, (fun _ => True) state →
      step state event = some next → (fun _ => True) next := fun _ _ _ _ _ => trivial
  exact always_iff_throughout preserved
    (fun state event next _ => exact state event next) trivial good events

/-- An inductive invariant holds in every visited state. -/
theorem always_of_invariant {invariant : State → Prop}
    (preserved : ∀ state event next, invariant state →
      step state event = some next → invariant next)
    {state : State} (initially : invariant state) (events : List Event) :
    Always step invariant state events := by
  induction events generalizing state with
  | nil => exact initially
  | cons event rest ih =>
      exact ⟨initially, fun next taken => ih (preserved state event next initially taken)⟩

/-- Under a preserved predicate every visited state is good. -/
theorem always_of_throughout {holds : State → Prop}
    {condition : State → Event → Prop}
    (preserved : ∀ state event next, holds state → condition state event →
      step state event = some next → holds next)
    {state : State} (good : holds state) {events : List Event}
    (conditions : Throughout step condition state events) :
    Always step holds state events := by
  induction events generalizing state with
  | nil => exact good
  | cons event rest ih =>
      refine ⟨good, fun next taken => ?_⟩
      obtain ⟨condition, later⟩ := conditions next taken
      exact ih (preserved state event next good condition taken) later

/-- A history which every step extends by what its event emits has what the events of a run
emit, in their order. -/
theorem history_of_run? {Entry : Type*} {emits : Event → Option Entry}
    {history : State → List Entry} {invariant : State → Prop}
    (preserved : ∀ state event next, invariant state →
      step state event = some next → invariant next)
    (grows : ∀ state event next, invariant state → step state event = some next →
      history next = history state ++ (emits event).toList)
    {state last : State} (initially : invariant state) {events : List Event}
    (completed : run? step state events = some last) :
    history last = history state ++ events.filterMap emits := by
  induction events generalizing state with
  | nil =>
      cases completed
      exact (List.append_nil _).symm
  | cons event rest ih =>
      obtain ⟨next, taken, remaining⟩ := run?_cons_some completed
      have kept := preserved state event next initially taken
      rw [ih kept remaining, grows state event next initially taken, List.append_assoc,
        List.filterMap_cons]
      cases emits event with
      | none => rfl
      | some entry => rfl

/-- A component which every step leaves alone or takes one step of its own makes a run of its
own. -/
theorem run?_component {Part Call : Type*} {partStep : Part → Call → Option Part}
    {part : State → Part} {call? : Event → Option Call}
    (moves : ∀ state event next, step state event = some next →
      run? partStep (part state) (call? event).toList = some (part next))
    {state last : State} {events : List Event} (completed : run? step state events = some last) :
    run? partStep (part state) (events.filterMap call?) = some (part last) := by
  induction events generalizing state with
  | nil =>
      cases completed
      rfl
  | cons event rest ih =>
      obtain ⟨next, taken, remaining⟩ := run?_cons_some completed
      have calls : (event :: rest).filterMap call? =
          (call? event).toList ++ rest.filterMap call? := by
        rw [List.filterMap_cons]
        cases call? event with
        | none => rfl
        | some call => rfl
      rw [calls, run?_append, moves state event next taken]
      exact ih remaining

/-- What every step from a state of the invariant establishes is established throughout. -/
theorem throughout_of_invariant {invariant : State → Prop} {condition : State → Event → Prop}
    (preserved : ∀ state event next, invariant state →
      step state event = some next → invariant next)
    (established : ∀ state event, invariant state → condition state event)
    {state : State} (initially : invariant state) (events : List Event) :
    Throughout step condition state events := by
  induction events generalizing state with
  | nil => trivial
  | cons event rest ih =>
      intro next taken
      exact ⟨established state event initially, ih (preserved state event next initially taken)⟩

/-- Under an invariant which tried events keep, and on which the goal rests, a run whose
tried events meet the condition visits the invariant's states and meets the goal. -/
theorem always_and_meets_of_meets {invariant : State → Prop} {condition goal : State → Event → Prop}
    (preserved : ∀ state event next, invariant state → condition state event →
      step state event = some next → invariant next)
    (reached : ∀ state event, invariant state → condition state event → goal state event)
    {state : State} (initially : invariant state) {events : List Event}
    (conditions : Meets step condition state events) :
    Always step invariant state events ∧ Meets step goal state events := by
  induction events generalizing state with
  | nil => exact ⟨initially, trivial⟩
  | cons event rest ih =>
      obtain ⟨condition, later⟩ := conditions
      have remaining (next : State) (taken : step state event = some next) :=
        ih (preserved state event next initially condition taken) (later next taken)
      exact ⟨⟨initially, fun next taken => (remaining next taken).1⟩,
        reached state event initially condition, fun next taken => (remaining next taken).2⟩

instance decidableMeets {State Event : Type*} (step : State → Event → Option State)
    (condition : State → Event → Prop) [∀ state event, Decidable (condition state event)]
    (state : State) (events : List Event) : Decidable (Meets step condition state events) :=
  match events with
  | [] => isTrue trivial
  | event :: rest =>
      match taken : step state event with
      | none => decidable_of_iff (condition state event)
          ⟨fun holds => ⟨holds, fun _ some => nomatch taken.symm.trans some⟩, And.left⟩
      | some next =>
          have := decidableMeets step condition next rest
          decidable_of_iff (condition state event ∧ Meets step condition next rest)
            ⟨fun holds => ⟨holds.1, fun _ some => by
              cases taken.symm.trans some
              exact holds.2⟩, fun all => ⟨all.1, all.2 next taken⟩⟩

instance decidableThroughout {State Event : Type*} (step : State → Event → Option State)
    (condition : State → Event → Prop) [∀ state event, Decidable (condition state event)]
    (state : State) (events : List Event) : Decidable (Throughout step condition state events) :=
  match events with
  | [] => isTrue trivial
  | event :: rest =>
      match taken : step state event with
      | none => isTrue fun next some => nomatch taken.symm.trans some
      | some next =>
          have := decidableThroughout step condition next rest
          decidable_of_iff (condition state event ∧ Throughout step condition next rest)
            ⟨fun holds next' some => by
              cases taken.symm.trans some
              exact holds, fun all => all next taken⟩

end Runs

section Histories

variable {Entry : Type*} {allowed : List Entry → Entry → Prop}

/-- Every entry of a history was allowed after the entries before it. -/
def Admits (allowed : List Entry → Entry → Prop) (history : List Entry) : Prop :=
  ∀ earlier entry later, history = earlier ++ entry :: later → allowed earlier entry

theorem admits_nil : Admits allowed [] :=
  fun _ _ _ split => absurd split.symm (List.append_ne_nil_of_right_ne_nil _ (List.cons_ne_nil _ _))

/-- A history grows by an entry which is allowed after it. -/
theorem admits_append_singleton {history : List Entry} {entry : Entry} :
    Admits allowed (history ++ [entry]) ↔ Admits allowed history ∧ allowed history entry := by
  constructor
  · intro admits
    refine ⟨fun earlier old later split => ?_, admits history entry [] rfl⟩
    refine admits earlier old (later ++ [entry]) ?_
    rw [split, List.append_assoc, List.cons_append]
  · rintro ⟨admits, last⟩ earlier old later split
    rcases List.eq_nil_or_concat later with rfl | ⟨front, final, rfl⟩
    · obtain ⟨rfl, same⟩ := List.append_inj' split rfl
      cases same
      exact last
    · rw [List.concat_eq_append, ← List.cons_append, ← List.append_assoc] at split
      obtain ⟨rfl, _⟩ := List.append_inj' split rfl
      exact admits earlier old front rfl

/-- Entries which are allowed after the history, and after whatever extends it, may be added
to it. -/
theorem Admits.append {history added : List Entry} (admits : Admits allowed history)
    (allows : ∀ entry ∈ added, ∀ earlier, history <+: earlier → allowed earlier entry) :
    Admits allowed (history ++ added) := by
  induction added generalizing history with
  | nil => rwa [List.append_nil]
  | cons entry rest ih =>
      rw [List.append_cons]
      refine ih (admits_append_singleton.mpr ⟨admits, ?_⟩) fun later member earlier longer => ?_
      · exact allows entry List.mem_cons_self history (List.prefix_refl _)
      · exact allows later (List.mem_cons_of_mem _ member) earlier
          ((List.prefix_append ..).trans longer)

/-- Entries which are always allowed may be added to a history. -/
theorem Admits.append_free {history added : List Entry} (admits : Admits allowed history)
    (free : ∀ entry ∈ added, ∀ earlier, allowed earlier entry) :
    Admits allowed (history ++ added) :=
  admits.append fun entry member earlier _ => free entry member earlier

end Histories

end Execution

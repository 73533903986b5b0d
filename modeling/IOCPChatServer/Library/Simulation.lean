import IOCPChatServer.Library.Execution

/-!
# Simulation by a total service

A component with partial steps is seen through a view of its states, and the view is served
by a total function.  Where every admissible event has a successor, whose view is what the
service makes of the view before, a run of the component is a fold of the service, and what
holds along the run can be proved along the fold.
-/

namespace Simulation

variable {State View Event : Type*}

/-- Every event of the list is admissible in the view which the events before it led to. -/
def Admissible (serve : View → Event → View) (condition : View → Event → Prop) :
    View → List Event → Prop
  | _, [] => True
  | view, event :: rest =>
      condition view event ∧ Admissible serve condition (serve view event) rest

instance decidableAdmissible (serve : View → Event → View) (condition : View → Event → Prop)
    [∀ current event, Decidable (condition current event)] (start : View) (events : List Event) :
    Decidable (Admissible serve condition start events) :=
  match events with
  | [] => isTrue trivial
  | event :: rest =>
      have := decidableAdmissible serve condition (serve start event) rest
      inferInstanceAs (Decidable (_ ∧ _))

/-- The predicate holds of the view after each of the events. -/
def AfterEach (serve : View → Event → View) (holds : View → Prop) : View → List Event → Prop
  | _, [] => True
  | view, event :: rest =>
      holds (serve view event) ∧ AfterEach serve holds (serve view event) rest

/-- Admissible events have successors, and these are served in the view. -/
def Simulates (step : State → Event → Option State) (serve : View → Event → View)
    (condition : View → Event → Prop) (view : State → View) (good : State → Prop) : Prop :=
  ∀ state event, good state → condition (view state) event →
    ∃ next, step state event = some next ∧ good next ∧ view next = serve (view state) event

variable {step : State → Event → Option State} {serve : View → Event → View}
  {condition : View → Event → Prop} {view : State → View} {good : State → Prop}

theorem admissible_append {start : View} {first second : List Event} :
    Admissible serve condition start (first ++ second) ↔
      Admissible serve condition start first ∧
        Admissible serve condition (first.foldl serve start) second := by
  induction first generalizing start with
  | nil => exact ⟨fun later => ⟨trivial, later⟩, And.right⟩
  | cons event rest ih =>
      rw [List.cons_append, Admissible, Admissible, ih, List.foldl_cons, and_assoc]

/-- What admissible events keep holds after all of them. -/
theorem Admissible.invariant {invariant : View → Prop}
    (kept : ∀ current event, invariant current → condition current event →
      invariant (serve current event))
    {start : View} (initially : invariant start) {events : List Event}
    (admissible : Admissible serve condition start events) :
    invariant (events.foldl serve start) := by
  induction events generalizing start with
  | nil => exact initially
  | cons event rest ih => exact ih (kept start event initially admissible.1) admissible.2

/-- A run over admissible events completes, and it is a fold of the service. -/
theorem Simulates.run (simulates : Simulates step serve condition view good) {state : State}
    (initially : good state) {events : List Event}
    (admissible : Admissible serve condition (view state) events) :
    ∃ last, Execution.run? step state events = some last ∧ good last ∧
      view last = events.foldl serve (view state) := by
  induction events generalizing state with
  | nil => exact ⟨state, rfl, initially, rfl⟩
  | cons event rest ih =>
      obtain ⟨next, taken, goodNext, served⟩ := simulates state event initially admissible.1
      have later := admissible.2
      rw [← served] at later
      obtain ⟨last, completed, goodLast, folded⟩ := ih goodNext later
      refine ⟨last, ?_, goodLast, ?_⟩
      · rw [Execution.run?, taken, Option.bind_some]
        exact completed
      · rw [folded, served, List.foldl_cons]

/-- What every step of a run establishes in the view holds after each event of the fold. -/
theorem Simulates.afterEach (simulates : Simulates step serve condition view good)
    {holds : View → Prop} {state : State} (initially : good state) {events : List Event}
    (admissible : Admissible serve condition (view state) events)
    (throughout : Execution.Throughout step
      (fun before event => ∀ after, step before event = some after → holds (view after))
      state events) :
    AfterEach serve holds (view state) events := by
  induction events generalizing state with
  | nil => trivial
  | cons event rest ih =>
      obtain ⟨next, taken, goodNext, served⟩ := simulates state event initially admissible.1
      obtain ⟨established, later⟩ := throughout next taken
      have here := established next taken
      have rest := admissible.2
      rw [← served] at rest
      have following := ih goodNext rest later
      rw [served] at here following
      exact ⟨here, following⟩

/-! ## Runs which are matched by runs -/

section Matching

variable {Other Call Label : Type*} {otherStep : Other → Call → Option Other}
  {related : State → Other → Prop} {label? : Event → Option Label} {labelOf : Call → Label}

/-- Every step from a related state is matched by a run of the other system, which has the label
of the event, if any, and ends in a related state. -/
def Matches (step : State → Event → Option State) (otherStep : Other → Call → Option Other)
    (related : State → Other → Prop) (label? : Event → Option Label) (labelOf : Call → Label) :
    Prop :=
  ∀ state other event next, related state other → step state event = some next →
    ∃ calls after, Execution.run? otherStep other calls = some after ∧
      calls.map labelOf = (label? event).toList ∧ related next after

theorem Matches.run (matched : Matches step otherStep related label? labelOf)
    {state last : State} {other : Other} (initially : related state other) {events : List Event}
    (completed : Execution.run? step state events = some last) :
    ∃ calls after, Execution.run? otherStep other calls = some after ∧
      calls.map labelOf = events.filterMap label? ∧ related last after := by
  induction events generalizing state other with
  | nil =>
      cases completed
      exact ⟨[], other, rfl, rfl, initially⟩
  | cons event rest ih =>
      obtain ⟨next, taken, remaining⟩ := Execution.run?_cons_some completed
      obtain ⟨calls, middle, ran, labels, relatedMiddle⟩ :=
        matched state other event next initially taken
      obtain ⟨later, after, ranLater, labelsLater, relatedAfter⟩ := ih relatedMiddle remaining
      refine ⟨calls ++ later, after, ?_, ?_, relatedAfter⟩
      · rw [Execution.run?_append, ran]
        exact ranLater
      · rw [List.map_append, labels, labelsLater, List.filterMap_cons]
        cases label? event with
        | none => rfl
        | some label => rfl

end Matching

end Simulation

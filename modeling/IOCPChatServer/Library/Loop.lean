import Mathlib

/-!
# Loops of a deterministic thread

A loop is a partial step and the states in which it runs.  It ends when it reaches a state
in which it does not run any more, or cannot make its next step.
-/

structure Loop (State : Type*) where
  step : State → Option State
  running : State → Prop

namespace Loop

variable {State : Type*} {loop : Loop State}

/-- The states which the loop passes, its first and its last one included. -/
inductive Reaches (loop : Loop State) : State → State → Prop where
  | refl (state : State) : Reaches loop state state
  | next {state middle last : State} (running : loop.running state)
      (taken : loop.step state = some middle) (later : Reaches loop middle last) :
      Reaches loop state last

def Ends (loop : Loop State) (state : State) : Prop :=
  ∃ last, loop.Reaches state last ∧ (loop.running last → loop.step last = none)

/-- What a step of the loop keeps holds in every state which it passes. -/
theorem Reaches.keeps (invariant : State → Prop)
    (preserved : ∀ state next, invariant state → loop.running state →
      loop.step state = some next → invariant next)
    {state last : State} (reaches : loop.Reaches state last) (initially : invariant state) :
    invariant last := by
  induction reaches with
  | refl state => exact initially
  | next running taken later ih => exact ih (preserved _ _ initially running taken)

/-- One more step at the end. -/
theorem Reaches.step {state middle last : State} (reaches : loop.Reaches state middle)
    (running : loop.running middle) (taken : loop.step middle = some last) :
    loop.Reaches state last := by
  induction reaches with
  | refl state => exact .next running taken (.refl last)
  | next first firstTaken later ih => exact .next first firstTaken (ih running taken)

/-- A loop whose measure decreases while it runs ends. -/
theorem ends_of_measure (invariant : State → Prop) (measure : State → Nat)
    (preserved : ∀ state next, invariant state → loop.running state →
      loop.step state = some next → invariant next)
    (decreases : ∀ state next, invariant state → loop.running state →
      loop.step state = some next → loop.running next → measure next < measure state)
    {state : State} (initially : invariant state) : loop.Ends state := by
  generalize size : measure state = bound
  induction bound using Nat.strong_induction_on generalizing state with
  | _ bound ih =>
      by_cases running : loop.running state
      · cases taken : loop.step state with
        | none => exact ⟨state, .refl state, fun _ => taken⟩
        | some next =>
            have kept := preserved state next initially running taken
            by_cases goesOn : loop.running next
            · have smaller := decreases state next initially running taken goesOn
              obtain ⟨last, reaches, ended⟩ := ih (measure next) (size ▸ smaller) kept rfl
              exact ⟨last, .next running taken reaches, ended⟩
            · exact ⟨next, .next running taken (.refl next), fun runs => absurd runs goesOn⟩
      · exact ⟨state, .refl state, fun runs => absurd runs running⟩

/-- A loop which always finds its invariant again never ends. -/
theorem not_ends_of_progress (invariant : State → Prop)
    (progress : ∀ state, invariant state → loop.running state ∧
      ∃ next, loop.step state = some next ∧ invariant next)
    {state : State} (initially : invariant state) : ¬ loop.Ends state := by
  rintro ⟨last, reaches, ended⟩
  have preserved : ∀ state next, invariant state → loop.running state →
      loop.step state = some next → invariant next := by
    intro state next holds _ taken
    obtain ⟨_, other, otherTaken, kept⟩ := progress state holds
    cases taken.symm.trans otherTaken
    exact kept
  obtain ⟨running, next, taken, _⟩ := progress last (reaches.keeps invariant preserved initially)
  cases (ended running).symm.trans taken

end Loop

import Mathlib

/-!
# Resumable readers

A reader gets its input in pieces.  In each state it either waits for more input or consumes
a part of what it has, and may put something out.  If what it does not depend on input which
it has not seen, then the pieces in which the input comes do not matter (`read_append`).
The law may be limited to a capacity, the largest input for which the reader's own counters
are exact (`LawfulUpTo.limited`).
-/

namespace Resumable

/-- What a reader does which does not wait. -/
structure Taken (State Output : Type*) where
  state : State
  consumed : Nat
  output : Option Output := none

/-- What has become of some input. -/
structure Reading (State Input Output : Type*) where
  state : State
  rest : List Input
  outputs : List Output

variable {State Input Output : Type*}

/-- One step comes before a reading. -/
def Reading.after (taken : Taken State Output) (reading : Reading State Input Output) :
    Reading State Input Output :=
  { reading with outputs := taken.output.toList ++ reading.outputs }

/-- A reading of earlier input comes before a reading. -/
def Reading.andThen (earlier later : Reading State Input Output) : Reading State Input Output :=
  { later with outputs := earlier.outputs ++ later.outputs }

/-- The reader goes on until it waits, for `fuel` steps at most. -/
def readFrom (step : State → List Input → Option (Taken State Output)) :
    Nat → State → List Input → Reading State Input Output
  | 0, state, input => ⟨state, input, []⟩
  | fuel + 1, state, input =>
      match step state input with
      | none => ⟨state, input, []⟩
      | some taken =>
          (readFrom step fuel taken.state (input.drop taken.consumed)).after taken

/-- The reader goes on until it waits. -/
def read (step : State → List Input → Option (Taken State Output)) (state : State)
    (input : List Input) : Reading State Input Output :=
  readFrom step input.length state input

/-- Every step consumes something, and no step changes when there is more input. -/
structure Lawful (step : State → List Input → Option (Taken State Output)) : Prop where
  positive : ∀ {state input taken}, step state input = some taken → 0 < taken.consumed
  available : ∀ {state input taken}, step state input = some taken →
    taken.consumed ≤ input.length
  stable : ∀ {state input taken}, step state input = some taken → ∀ more,
    step state (input ++ more) = some taken

/-- The law for no more input than the capacity. -/
structure LawfulUpTo (capacity : Nat) (step : State → List Input → Option (Taken State Output)) :
    Prop where
  positive : ∀ {state input taken}, step state input = some taken → 0 < taken.consumed
  available : ∀ {state input taken}, step state input = some taken →
    taken.consumed ≤ input.length
  stable : ∀ {state input taken}, step state input = some taken → ∀ more,
    (input ++ more).length ≤ capacity → step state (input ++ more) = some taken

/-- The steps of a reader which looks at no more input than the capacity. -/
def limited (capacity : Nat) (step : State → List Input → Option (Taken State Output))
    (state : State) (input : List Input) : Option (Taken State Output) :=
  step state (input.take capacity)

variable {step : State → List Input → Option (Taken State Output)}

theorem limited_eq {capacity : Nat} {state : State} {input : List Input}
    (fits : input.length ≤ capacity) : limited capacity step state input = step state input := by
  rw [limited, List.take_of_length_le fits]

/-- A reader whose steps are lawful up to its capacity is lawful when it looks no further. -/
theorem LawfulUpTo.limited {capacity : Nat} (lawful : LawfulUpTo capacity step) :
    Lawful (limited capacity step) where
  positive takes := lawful.positive takes
  available takes := (lawful.available takes).trans (List.length_take_le' _ _)
  stable {state input taken} takes more := by
    have front : (input ++ more).take capacity =
        input.take capacity ++ more.take (capacity - input.length) := List.take_append
    have fits : (input.take capacity ++ more.take (capacity - input.length)).length ≤ capacity :=
      front ▸ List.length_take_le _ _
    rw [Resumable.limited, front]
    exact lawful.stable takes _ fits

theorem Lawful.shorter (lawful : Lawful step) {state : State} {input : List Input}
    {taken : Taken State Output} (takes : step state input = some taken) :
    (input.drop taken.consumed).length < input.length := by
  have positive := lawful.positive takes
  have available := lawful.available takes
  rw [List.length_drop]
  omega

/-- Fuel beyond the length of the input changes nothing. -/
theorem Lawful.readFrom_eq (lawful : Lawful step) {fuel : Nat} {state : State}
    {input : List Input} (enough : input.length ≤ fuel) :
    readFrom step fuel state input = read step state input := by
  suffices same : ∀ other, input.length ≤ other →
      readFrom step fuel state input = readFrom step other state input from
    same input.length (Nat.le_refl _)
  induction fuel generalizing state input with
  | zero =>
      intro other _
      have empty := List.eq_nil_of_length_eq_zero (Nat.le_zero.mp enough)
      subst empty
      cases other with
      | zero => rfl
      | succ other =>
          have waits : step state [] = none := by
            cases takes : step state [] with
            | none => rfl
            | some taken => exact absurd (lawful.shorter takes) (Nat.not_lt_zero _)
          simp only [readFrom, waits]
  | succ fuel ih =>
      intro other enoughOther
      cases takes : step state input with
      | none =>
          cases other with
          | zero => simp only [readFrom, takes]
          | succ other => simp only [readFrom, takes]
      | some taken =>
          have shorter := lawful.shorter takes
          cases other with
          | zero => omega
          | succ other =>
              simp only [readFrom, takes]
              rw [ih (by omega) other (by omega)]

theorem read_of_none {state : State} {input : List Input} (waits : step state input = none) :
    read step state input = ⟨state, input, []⟩ := by
  unfold read
  cases input with
  | nil => rfl
  | cons first rest => simp only [List.length_cons, readFrom, waits]

theorem Lawful.read_of_some (lawful : Lawful step) {state : State} {input : List Input}
    {taken : Taken State Output} (takes : step state input = some taken) :
    read step state input =
      (read step taken.state (input.drop taken.consumed)).after taken := by
  have shorter := lawful.shorter takes
  have more : readFrom step (input.length + 1) state input = read step state input :=
    lawful.readFrom_eq (Nat.le_succ _)
  rw [← more]
  simp only [readFrom, takes]
  rw [lawful.readFrom_eq shorter.le]

/-- The induction rule of a reading: what holds where the reader waits, and before a step if
after it, holds of every reading. -/
theorem Lawful.read_induction (lawful : Lawful step)
    (holds : State → List Input → Reading State Input Output → Prop)
    (waiting : ∀ state input, step state input = none → holds state input ⟨state, input, []⟩)
    (taking : ∀ state input taken reading, step state input = some taken →
      holds taken.state (input.drop taken.consumed) reading →
      holds state input (reading.after taken))
    (state : State) (input : List Input) : holds state input (read step state input) := by
  suffices all : ∀ length (state : State) (input : List Input), input.length ≤ length →
      holds state input (read step state input) from all input.length state input (Nat.le_refl _)
  intro length
  induction length with
  | zero =>
      intro state input short
      have empty := List.eq_nil_of_length_eq_zero (Nat.le_zero.mp short)
      subst empty
      refine waiting state [] ?_
      cases takes : step state [] with
      | none => rfl
      | some taken => exact absurd (lawful.shorter takes) (Nat.not_lt_zero _)
  | succ length ih =>
      intro state input short
      cases takes : step state input with
      | none =>
          rw [read_of_none takes]
          exact waiting state input takes
      | some taken =>
          rw [lawful.read_of_some takes]
          have shorter := lawful.shorter takes
          exact taking state input taken _ takes (ih _ _ (by omega))

/-- The reader stops where it waits. -/
theorem Lawful.read_waits (lawful : Lawful step) (state : State) (input : List Input) :
    step (read step state input).state (read step state input).rest = none :=
  lawful.read_induction (fun _ _ reading => step reading.state reading.rest = none)
    (fun _ _ waits => waits) (fun _ _ _ _ _ waits => waits) state input

/-- What is left is the end of the input. -/
theorem Lawful.read_suffix (lawful : Lawful step) (state : State)
    (input : List Input) : (read step state input).rest <:+ input :=
  lawful.read_induction (fun _ input reading => reading.rest <:+ input)
    (fun _ _ _ => List.suffix_refl _)
    (fun _ _ _ _ _ later => later.trans (List.drop_suffix _ _)) state input

theorem Reading.andThen_after (taken : Taken State Output)
    (earlier later : Reading State Input Output) :
    (earlier.after taken).andThen later = (earlier.andThen later).after taken := by
  simp [Reading.andThen, Reading.after]

/-- Input which comes later is read after what came before. -/
theorem Lawful.read_append (lawful : Lawful step) (state : State)
    (input more : List Input) :
    read step state (input ++ more) =
      (read step state input).andThen
        (read step (read step state input).state ((read step state input).rest ++ more)) := by
  refine lawful.read_induction
    (fun state input reading => read step state (input ++ more) =
      reading.andThen (read step reading.state (reading.rest ++ more)))
    (fun _ _ _ => rfl) (fun state input taken reading takes later => ?_) state input
  rw [lawful.read_of_some (lawful.stable takes more),
    List.drop_append_of_le_length (lawful.available takes), later, Reading.andThen_after]
  rfl

end Resumable

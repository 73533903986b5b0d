import Mathlib

/-!
# The bounded queue

A component answers each operation with a result and a next state.  One component refines
another if a relation between their states is kept by every operation and the results
agree.  The bounded queue of bytes is the specification of ring buffers: a list to whose
end bytes are added while there is room.
-/

/-- What one operation does: its result, and the next state. -/
abbrev Component (State Operation Result : Type*) := State → Operation → Result × State

namespace Component

variable {Concrete Abstract Operation Result : Type*}

/-- The results of a list of operations, and the last state. -/
def run (component : Component Concrete Operation Result) :
    Concrete → List Operation → List Result × Concrete
  | state, [] => ([], state)
  | state, operation :: rest =>
      let stepped := component state operation
      let later := run component stepped.2 rest
      (stepped.1 :: later.1, later.2)

/-- Related states answer every operation with the same result and stay related. -/
structure Refines (concrete : Component Concrete Operation Result)
    (abstract : Component Abstract Operation Result) (represents : Concrete → Abstract → Prop) :
    Prop where
  result : ∀ state view operation, represents state view →
    (concrete state operation).1 = (abstract view operation).1
  next : ∀ state view operation, represents state view →
    represents (concrete state operation).2 (abstract view operation).2

theorem Refines.run {concrete : Component Concrete Operation Result}
    {abstract : Component Abstract Operation Result} {represents : Concrete → Abstract → Prop}
    (refines : concrete.Refines abstract represents) {state : Concrete} {view : Abstract}
    (related : represents state view) (operations : List Operation) :
    (concrete.run state operations).1 = (abstract.run view operations).1 ∧
      represents (concrete.run state operations).2 (abstract.run view operations).2 := by
  induction operations generalizing state view with
  | nil => exact ⟨rfl, related⟩
  | cons operation rest ih =>
      obtain ⟨results, last⟩ := ih (refines.next state view operation related)
      refine ⟨?_, last⟩
      have first := refines.result state view operation related
      simp only [Component.run, first, results]

end Component

namespace BoundedFifo

inductive Operation (α : Type) where
  | writeByte (byte : α)
  | readByte
  | write (data : List α)
  | read (maxLength : Nat)
  | peek (offset : Nat)
  | clear
  deriving DecidableEq, Repr

/-- What an operation reports: whether or which byte, how many bytes, which bytes. -/
inductive Result (α : Type) where
  | flag (success : Bool)
  | byte (value : Option α)
  | count (written : Nat)
  | bytes (output : List α)
  | done
  deriving DecidableEq, Repr

variable {α : Type}

/-- The bounded queue: the oldest byte comes first. -/
def component (capacity : Nat) : Component (List α) (Operation α) (Result α)
  | queue, .writeByte byte =>
      if queue.length < capacity then (.flag true, queue ++ [byte]) else (.flag false, queue)
  | queue, .readByte =>
      match queue with
      | [] => (.byte none, [])
      | byte :: rest => (.byte (some byte), rest)
  | queue, .write data =>
      let written := min data.length (capacity - queue.length)
      (.count written, queue ++ data.take written)
  | queue, .read maxLength =>
      let count := min maxLength queue.length
      (.bytes (queue.take count), queue.drop count)
  | queue, .peek offset => (.byte queue[offset]?, queue)
  | _, .clear => (.done, [])

end BoundedFifo

import Mathlib

/-!
# A condition variable with one waiting thread

The waiting thread holds the mutex while it tests its predicate and, after a test which
failed, until it is registered as waiting; the test and the registration are two steps.
A notification wakes it only when it is registered.  A thread which has changed what the
predicate reads owes a notification until it has issued it.

A wakeup is lost when the thread is blocked, the predicate would hold, and nobody owes
a notification any more.  `lostWakeup_register` says that this begins with a
registration: owing and notifying never lose a wakeup.
-/

/-- Where the waiting thread is. -/
inductive Waiter where
  | running
  | locked
  | ready
  | unready
  | waiting
  | notified
  deriving DecidableEq, Repr

structure ConditionVariable (Thread : Type*) where
  waiter : Waiter := .running
  owes : Thread → Bool := fun _ => false

namespace ConditionVariable

variable {Thread : Type*} (condition : ConditionVariable Thread) {pending : Prop}

/-- Whether a thread other than the waiting one can take the mutex. -/
def mutexFree : Bool :=
  match condition.waiter with
  | .locked | .ready | .unready => false
  | .running | .waiting | .notified => true

/-! ## The waiting thread -/

def lock : ConditionVariable Thread := { condition with waiter := .locked }

/-- The predicate is evaluated under the mutex. -/
def test (holds : Bool) : ConditionVariable Thread :=
  { condition with waiter := if holds then .ready else .unready }

/-- The thread is registered, which releases the mutex. -/
def register : ConditionVariable Thread := { condition with waiter := .waiting }

def unlock : ConditionVariable Thread := { condition with waiter := .running }

/-- A registered thread leaves its wait and has to take the mutex again. -/
def wake : ConditionVariable Thread :=
  { condition with
    waiter := if condition.waiter = .waiting then .notified else condition.waiter }

/-! ## The other threads -/

section Owing

variable [DecidableEq Thread]

def owe (thread : Thread) : ConditionVariable Thread :=
  { condition with owes := Function.update condition.owes thread true }

/-- `notify_one`, which the thread owed. -/
def notifyOne (thread : Thread) : ConditionVariable Thread :=
  { condition.wake with owes := Function.update condition.owes thread false }

end Owing

/-! ## Lost wakeups -/

/-- The thread is blocked although its predicate would hold, and no notification is
still to come. -/
def LostWakeup (pending : Prop) : Prop :=
  condition.waiter = .waiting ∧ (∀ thread, condition.owes thread = false) ∧ pending

variable {condition}

theorem not_lostWakeup_of_awake (awake : condition.waiter ≠ .waiting) :
    ¬ condition.LostWakeup pending :=
  fun lost => awake lost.1

theorem not_lostWakeup_of_owes {thread : Thread} (owes : condition.owes thread = true) :
    ¬ condition.LostWakeup pending := by
  rintro ⟨_, none, _⟩
  exact absurd ((none thread).symm.trans owes) Bool.false_ne_true

theorem wake_awake : condition.wake.waiter ≠ .waiting := by
  intro waits
  dsimp only [wake] at waits
  split at waits
  · cases waits
  · contradiction

theorem wake_of_awake (awake : condition.waiter ≠ .waiting) :
    condition.wake.waiter = condition.waiter :=
  if_neg awake

/-- A wakeup only leads to `notified`. -/
theorem waiter_of_wake {waiter : Waiter} (woken : condition.wake.waiter = waiter)
    (other : waiter ≠ .notified) : condition.waiter = waiter := by
  dsimp only [wake] at woken
  split at woken
  · exact absurd woken.symm other
  · exact woken

/-- A registration loses a wakeup exactly if the predicate has become true since its
test and everybody who made it true has notified already. -/
theorem lostWakeup_register :
    condition.register.LostWakeup pending ↔
      (∀ thread, condition.owes thread = false) ∧ pending :=
  and_iff_right rfl

section Owing

variable [DecidableEq Thread]

theorem not_lostWakeup_owe (thread : Thread) : ¬ (condition.owe thread).LostWakeup pending := by
  have owes : (condition.owe thread).owes thread = true := Function.update_self ..
  exact not_lostWakeup_of_owes owes

theorem not_lostWakeup_notifyOne (thread : Thread) :
    ¬ (condition.notifyOne thread).LostWakeup pending :=
  not_lostWakeup_of_awake wake_awake

end Owing

end ConditionVariable

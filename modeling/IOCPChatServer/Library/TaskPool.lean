import IOCPChatServer.Library.ConditionVariable
import IOCPChatServer.Library.Execution
import Mathlib

/-!
# A pool of workers behind one queue

One producer pushes tasks, any number of workers take them.  A worker waits on a condition
variable until the queue is not empty or the run flag is down, leaves when the flag is down
and the queue is empty, and takes the front otherwise; test, registration and taking are
steps of their own, made under the mutex.  Whoever ends the pool waits for the producer,
lowers the flag under the mutex, notifies all workers and joins them.

The histories `pushed`, `taken` and `finished` are looked at by no step.
-/

/-- Where a worker is: at the wait, with a task, or out of its loop. -/
inductive TaskPool.Worker (Task : Type*) where
  | consuming (waiter : Waiter)
  | working (task : Task)
  | exited
  deriving DecidableEq

/-- Where the producer is; it has the mutex while it is `holding`. -/
inductive TaskPool.Producer where
  | running
  | holding
  | owing
  | joined
  deriving DecidableEq, Repr

/-- How far the end of the pool has come. -/
inductive TaskPool.Ending where
  | running
  | stopped
  | notified
  | joined
  deriving DecidableEq, Repr

structure TaskPool (k : Nat) (Task : Type*) where
  queue : List Task := []
  isRun : Bool := true
  workers : Fin k → TaskPool.Worker Task := fun _ => .consuming .running
  producer : TaskPool.Producer := .running
  ending : TaskPool.Ending := .running
  pushed : List Task := []
  taken : List (Fin k × Task) := []
  finished : List (Fin k × Task) := []

namespace TaskPool

variable {k : Nat} {Task : Type*}

/-- The worker has the mutex. -/
def Worker.holds : Worker Task → Bool
  | .consuming .locked => true
  | .consuming .ready => true
  | .consuming .unready => true
  | _ => false

/-- The worker is registered at the condition variable. -/
def Worker.waits : Worker Task → Bool
  | .consuming .waiting => true
  | _ => false

/-- The worker has left its loop. -/
def Worker.hasExited : Worker Task → Bool
  | .exited => true
  | _ => false

/-- The task which the worker has in its hands. -/
def Worker.hand (worker : Fin k) : Worker Task → List (Fin k × Task)
  | .working task => [(worker, task)]
  | _ => []

/-- Nobody has the mutex. -/
def mutexFree (pool : TaskPool k Task) : Prop :=
  pool.producer ≠ .holding ∧ ∀ worker, (pool.workers worker).holds = false

instance (pool : TaskPool k Task) : Decidable pool.mutexFree :=
  inferInstanceAs (Decidable (_ ∧ _))

def setWorker (pool : TaskPool k Task) (worker : Fin k) (status : Worker Task) :
    TaskPool k Task :=
  { pool with workers := Function.update pool.workers worker status }

/-- A registered worker leaves its wait and has to take the mutex again. -/
def Worker.wake : Worker Task → Worker Task
  | .consuming .waiting => .consuming .notified
  | status => status

/-! ## The producer -/

/-- The producer pushes under the mutex; `keepsMutex` tells whether it notifies before it
gives the mutex back. -/
def push (pool : TaskPool k Task) (keepsMutex : Bool) (task : Task) : TaskPool k Task :=
  { pool with
    queue := pool.queue ++ [task]
    producer := if keepsMutex then .holding else .owing
    pushed := pool.pushed ++ [task] }

/-- `notify_one` wakes a registered worker if there is one. -/
def MayWake (pool : TaskPool k Task) : Option (Fin k) → Prop
  | none => ∀ worker, (pool.workers worker).waits = false
  | some worker => (pool.workers worker).waits = true

instance (pool : TaskPool k Task) (woken : Option (Fin k)) : Decidable (pool.MayWake woken) :=
  match woken with
  | none => inferInstanceAs (Decidable (∀ _, _))
  | some _ => inferInstanceAs (Decidable (_ = _))

def notifyOne (pool : TaskPool k Task) (woken : Option (Fin k)) : TaskPool k Task :=
  { pool with
    producer := .running
    workers := match woken with
      | none => pool.workers
      | some worker => Function.update pool.workers worker (pool.workers worker).wake }

/-! ## The workers -/

/-- The worker takes the front of the queue and gives the mutex back. -/
def take (pool : TaskPool k Task) (worker : Fin k) (task : Task) (rest : List Task) :
    TaskPool k Task :=
  { pool with
    queue := rest
    workers := Function.update pool.workers worker (.working task)
    taken := pool.taken ++ [(worker, task)] }

/-- The next step of a worker which is at its wait.  The front of an empty queue is taken by
nobody: such a step has no successor. -/
def consume (pool : TaskPool k Task) (worker : Fin k) : Waiter → Option (TaskPool k Task)
  | .running => if pool.mutexFree then some (pool.setWorker worker (.consuming .locked)) else none
  | .notified => if pool.mutexFree then some (pool.setWorker worker (.consuming .locked)) else none
  | .locked =>
      some (pool.setWorker worker
        (.consuming (if !pool.queue.isEmpty || !pool.isRun then .ready else .unready)))
  | .unready => some (pool.setWorker worker (.consuming .waiting))
  | .waiting => none
  | .ready =>
      if !pool.isRun && pool.queue.isEmpty then some (pool.setWorker worker .exited)
      else
        match pool.queue with
        | [] => none
        | task :: rest => some (pool.take worker task rest)

/-- The worker is done with its task and begins its loop again. -/
def finish (pool : TaskPool k Task) (worker : Fin k) (task : Task) : TaskPool k Task :=
  { pool with
    workers := Function.update pool.workers worker (.consuming .running)
    finished := pool.finished ++ [(worker, task)] }

/-! ## Schedules -/

/-- A step of some thread. -/
inductive Event (k : Nat) (Task : Type*) where
  | push (task : Task)
  | notifyOne (woken : Option (Fin k))
  | consume (worker : Fin k)
  | finish (worker : Fin k)
  | spuriousWakeup (worker : Fin k)
  | joinProducer
  | stop
  | notifyAll
  | joinWorkers
  deriving DecidableEq

/-- The task which the event pushes. -/
def Event.pushTask? : Event k Task → Option Task
  | .push task => some task
  | _ => none

def step (keepsMutex : Bool) (pool : TaskPool k Task) : Event k Task → Option (TaskPool k Task)
  | .push task =>
      if pool.producer = .running ∧ pool.mutexFree then some (pool.push keepsMutex task) else none
  | .notifyOne woken =>
      if (pool.producer = .holding ∨ pool.producer = .owing) ∧ pool.MayWake woken then
        some (pool.notifyOne woken)
      else none
  | .consume worker =>
      match pool.workers worker with
      | .consuming waiter => pool.consume worker waiter
      | _ => none
  | .finish worker =>
      match pool.workers worker with
      | .working task => some (pool.finish worker task)
      | _ => none
  | .spuriousWakeup worker =>
      some { pool with
        workers := Function.update pool.workers worker (pool.workers worker).wake }
  | .joinProducer =>
      if pool.producer = .running then some { pool with producer := .joined } else none
  | .stop =>
      if pool.producer = .joined ∧ pool.ending = .running ∧ pool.mutexFree then
        some { pool with
          isRun := false
          ending := .stopped }
      else none
  | .notifyAll =>
      if pool.ending = .stopped then
        some { pool with
          workers := fun worker => (pool.workers worker).wake
          ending := .notified }
      else none
  | .joinWorkers =>
      if pool.ending = .notified ∧ ∀ worker, (pool.workers worker).hasExited = true then
        some { pool with ending := .joined }
      else none

/-- The ways in which a step can happen. -/
inductive StepCase (keepsMutex : Bool) (pool : TaskPool k Task) :
    Event k Task → TaskPool k Task → Prop where
  | push (task : Task) (running : pool.producer = .running) (free : pool.mutexFree) :
      StepCase keepsMutex pool (.push task) (pool.push keepsMutex task)
  | notifyOne (woken : Option (Fin k))
      (owes : pool.producer = .holding ∨ pool.producer = .owing) :
      StepCase keepsMutex pool (.notifyOne woken) (pool.notifyOne woken)
  | lock (worker : Fin k) (status : pool.workers worker = .consuming .running ∨
        pool.workers worker = .consuming .notified) (free : pool.mutexFree) :
      StepCase keepsMutex pool (.consume worker) (pool.setWorker worker (.consuming .locked))
  | test (worker : Fin k) (status : pool.workers worker = .consuming .locked) :
      StepCase keepsMutex pool (.consume worker)
        (pool.setWorker worker
          (.consuming (if !pool.queue.isEmpty || !pool.isRun then .ready else .unready)))
  | register (worker : Fin k) (status : pool.workers worker = .consuming .unready) :
      StepCase keepsMutex pool (.consume worker) (pool.setWorker worker (.consuming .waiting))
  | exit (worker : Fin k) (status : pool.workers worker = .consuming .ready)
      (stopped : pool.isRun = false) (empty : pool.queue = []) :
      StepCase keepsMutex pool (.consume worker) (pool.setWorker worker .exited)
  | take (worker : Fin k) (task : Task) (rest : List Task)
      (status : pool.workers worker = .consuming .ready) (front : pool.queue = task :: rest) :
      StepCase keepsMutex pool (.consume worker) (pool.take worker task rest)
  | finish (worker : Fin k) (task : Task) (status : pool.workers worker = .working task) :
      StepCase keepsMutex pool (.finish worker) (pool.finish worker task)
  | spuriousWakeup (worker : Fin k) :
      StepCase keepsMutex pool (.spuriousWakeup worker)
        (pool.setWorker worker (pool.workers worker).wake)
  | joinProducer (running : pool.producer = .running) :
      StepCase keepsMutex pool .joinProducer { pool with producer := .joined }
  | stop (joined : pool.producer = .joined) (ending : pool.ending = .running)
      (free : pool.mutexFree) :
      StepCase keepsMutex pool .stop
        { pool with
          isRun := false
          ending := .stopped }
  | notifyAll (ending : pool.ending = .stopped) :
      StepCase keepsMutex pool .notifyAll
        { pool with
          workers := fun worker => (pool.workers worker).wake
          ending := .notified }
  | joinWorkers (ending : pool.ending = .notified)
      (exited : ∀ worker, (pool.workers worker).hasExited = true) :
      StepCase keepsMutex pool .joinWorkers { pool with ending := .joined }

theorem consume_cases {keepsMutex : Bool} {pool next : TaskPool k Task} {worker : Fin k}
    {waiter : Waiter} (status : pool.workers worker = .consuming waiter)
    (taken : pool.consume worker waiter = some next) :
    StepCase keepsMutex pool (.consume worker) next := by
  cases waiter with
  | running =>
      obtain ⟨free, locked⟩ := Option.ite_none_right_eq_some.mp taken
      cases locked
      exact .lock worker (Or.inl status) free
  | notified =>
      obtain ⟨free, locked⟩ := Option.ite_none_right_eq_some.mp taken
      cases locked
      exact .lock worker (Or.inr status) free
  | locked =>
      cases taken
      exact .test worker status
  | unready =>
      cases taken
      exact .register worker status
  | waiting => cases taken
  | ready =>
      simp only [consume] at taken
      split at taken
      · rename_i leaves
        cases taken
        obtain ⟨stopped, empty⟩ := Bool.and_eq_true_iff.mp leaves
        exact .exit worker status (by simpa using stopped) (List.isEmpty_iff.mp empty)
      · split at taken
        · cases taken
        · rename_i task rest front
          cases taken
          exact .take worker task rest status front

/-- The inversion of one step of the pool. -/
theorem step_cases {keepsMutex : Bool} {pool next : TaskPool k Task} {event : Event k Task}
    (taken : pool.step keepsMutex event = some next) : StepCase keepsMutex pool event next := by
  cases event with
  | push task =>
      obtain ⟨⟨running, free⟩, pushed⟩ := Option.ite_none_right_eq_some.mp taken
      cases pushed
      exact .push task running free
  | notifyOne woken =>
      obtain ⟨⟨owes, _⟩, notified⟩ := Option.ite_none_right_eq_some.mp taken
      cases notified
      exact .notifyOne woken owes
  | consume worker =>
      simp only [step] at taken
      split at taken
      · rename_i waiter status
        exact consume_cases status taken
      · cases taken
  | finish worker =>
      simp only [step] at taken
      split at taken
      · rename_i task status
        cases taken
        exact .finish worker task status
      · cases taken
  | spuriousWakeup worker =>
      cases taken
      exact .spuriousWakeup worker
  | joinProducer =>
      obtain ⟨running, joined⟩ := Option.ite_none_right_eq_some.mp taken
      cases joined
      exact .joinProducer running
  | stop =>
      obtain ⟨⟨joined, ending, free⟩, stopped⟩ := Option.ite_none_right_eq_some.mp taken
      cases stopped
      exact .stop joined ending free
  | notifyAll =>
      obtain ⟨ending, notified⟩ := Option.ite_none_right_eq_some.mp taken
      cases notified
      exact .notifyAll ending
  | joinWorkers =>
      obtain ⟨⟨ending, exited⟩, joined⟩ := Option.ite_none_right_eq_some.mp taken
      cases joined
      exact .joinWorkers ending exited

/-! ## The invariant -/

/-- What the status of a worker tells about the pool: who is about to take or to leave can do
so, nobody registers or stays registered once everybody was notified of the end, and who has
left leaves nothing behind. -/
def Worker.Sound (queue : List Task) (isRun : Bool) (ending : Ending) : Worker Task → Prop
  | .consuming .ready => queue ≠ [] ∨ isRun = false
  | .consuming .unready => isRun = true
  | .consuming .waiting => ending = .running ∨ ending = .stopped
  | .exited => queue = [] ∧ isRun = false
  | _ => True

structure Valid (pool : TaskPool k Task) : Prop where
  fifo : pool.taken.map Prod.snd ++ pool.queue = pool.pushed
  hands : ∀ worker, pool.taken.filter (·.1 = worker) =
    pool.finished.filter (·.1 = worker) ++ (pool.workers worker).hand worker
  exclusive : ∀ first second, (pool.workers first).holds = true →
    (pool.workers second).holds = true → first = second
  apart : pool.producer = .holding → ∀ worker, (pool.workers worker).holds = false
  sound : ∀ worker, (pool.workers worker).Sound pool.queue pool.isRun pool.ending
  closed : pool.ending ≠ .running → pool.producer = .joined
  flag : pool.isRun = false ↔ pool.ending ≠ .running
  left : pool.ending = .joined → ∀ worker, (pool.workers worker).hasExited = true

theorem valid_init : ({} : TaskPool k Task).Valid where
  fifo := rfl
  hands _ := rfl
  exclusive _ _ holds := nomatch holds
  apart holding := nomatch holding
  sound _ := trivial
  closed other := absurd rfl other
  flag := ⟨nofun, fun other => absurd rfl other⟩
  left ending := nomatch ending

theorem Worker.holds_wake (status : Worker Task) : status.wake.holds = status.holds := by
  unfold Worker.wake
  split <;> rfl

theorem Worker.hand_wake (worker : Fin k) (status : Worker Task) :
    status.wake.hand worker = status.hand worker := by
  unfold Worker.wake
  split <;> rfl

theorem Worker.hasExited_wake (status : Worker Task) :
    status.wake.hasExited = status.hasExited := by
  unfold Worker.wake
  split <;> rfl

/-- A worker which is woken does not wait, and what its status told still holds. -/
theorem Worker.Sound.wake {queue : List Task} {isRun : Bool} {ending : Ending}
    {status : Worker Task} (sound : status.Sound queue isRun ending) (later : Ending) :
    status.wake.Sound queue isRun later := by
  cases status with
  | consuming waiter =>
      cases waiter with
      | running => trivial
      | locked => trivial
      | ready => exact sound
      | unready => exact sound
      | waiting => trivial
      | notified => trivial
  | working task => trivial
  | exited => exact sound

section Steps

variable {pool : TaskPool k Task}

theorem setWorker_self (pool : TaskPool k Task) (worker : Fin k) (status : Worker Task) :
    (pool.setWorker worker status).workers worker = status := Function.update_self ..

theorem setWorker_of_ne (pool : TaskPool k Task) {worker other : Fin k} (status : Worker Task)
    (different : other ≠ worker) :
    (pool.setWorker worker status).workers other = pool.workers other :=
  Function.update_of_ne different ..

/-- A property of all workers after one has changed its status. -/
theorem forall_setWorker (holds : Fin k → Worker Task → Prop) {worker : Fin k}
    {status : Worker Task} (all : ∀ other, holds other (pool.workers other))
    (self : holds worker status) (other : Fin k) :
    holds other ((pool.setWorker worker status).workers other) := by
  rcases eq_or_ne other worker with rfl | different
  · rw [setWorker_self]
    exact self
  · rw [setWorker_of_ne pool status different]
    exact all other

/-- A worker gets the mutex only when it has it or nobody does. -/
theorem Valid.exclusive_setWorker (valid : pool.Valid) {worker : Fin k} {status : Worker Task}
    (mutex : status.holds = true → (pool.workers worker).holds = true ∨ pool.mutexFree)
    (first second : Fin k)
    (firstHolds : ((pool.setWorker worker status).workers first).holds = true)
    (secondHolds : ((pool.setWorker worker status).workers second).holds = true) :
    first = second := by
  have alone {other : Fin k} (different : other ≠ worker) (holds : status.holds = true)
      (otherHolds : (pool.workers other).holds = true) : False := by
    rcases mutex holds with had | free
    · exact different (valid.exclusive other worker otherHolds had)
    · exact absurd ((free.2 other).symm.trans otherHolds) Bool.false_ne_true
  rcases eq_or_ne first worker with rfl | firstOther
  · rcases eq_or_ne second first with rfl | secondOther
    · rfl
    · rw [setWorker_self] at firstHolds
      rw [setWorker_of_ne pool status secondOther] at secondHolds
      exact (alone secondOther firstHolds secondHolds).elim
  · rw [setWorker_of_ne pool status firstOther] at firstHolds
    rcases eq_or_ne second worker with rfl | secondOther
    · rw [setWorker_self] at secondHolds
      exact (alone firstOther secondHolds firstHolds).elim
    · rw [setWorker_of_ne pool status secondOther] at secondHolds
      exact valid.exclusive first second firstHolds secondHolds

/-- While the producer has the mutex no worker gets it. -/
theorem Valid.apart_setWorker (valid : pool.Valid) {worker : Fin k} {status : Worker Task}
    (mutex : status.holds = true → (pool.workers worker).holds = true ∨ pool.mutexFree)
    (holding : pool.producer = .holding) (other : Fin k) :
    ((pool.setWorker worker status).workers other).holds = false := by
  refine forall_setWorker (fun _ status => status.holds = false) (valid.apart holding) ?_ other
  refine Bool.eq_false_iff.mpr fun holds => ?_
  rcases mutex holds with had | free
  · exact absurd ((valid.apart holding worker).symm.trans had) Bool.false_ne_true
  · exact free.1 holding

/-- One worker changes its status with the same task, if any, in its hands. -/
theorem Valid.setWorker (valid : pool.Valid) (worker : Fin k) {status : Worker Task}
    (hand : status.hand worker = (pool.workers worker).hand worker)
    (mutex : status.holds = true → (pool.workers worker).holds = true ∨ pool.mutexFree)
    (sound : status.Sound pool.queue pool.isRun pool.ending)
    (exited : (pool.workers worker).hasExited = true → status.hasExited = true) :
    (pool.setWorker worker status).Valid where
  fifo := valid.fifo
  hands := forall_setWorker (fun other status => pool.taken.filter (·.1 = other) =
    pool.finished.filter (·.1 = other) ++ status.hand other) valid.hands
      ((valid.hands worker).trans (congrArg (_ ++ ·) hand.symm))
  exclusive := valid.exclusive_setWorker mutex
  apart := valid.apart_setWorker mutex
  sound := forall_setWorker (fun _ status => status.Sound pool.queue pool.isRun pool.ending)
    valid.sound sound
  closed := valid.closed
  flag := valid.flag
  left ending := forall_setWorker (fun _ status => status.hasExited = true)
    (valid.left ending) (exited (valid.left ending worker))

/-- The end begins when the producer is gone. -/
theorem Valid.ending_of_producer (valid : pool.Valid) (present : pool.producer ≠ .joined) :
    pool.ending = .running :=
  not_not.mp fun other => present (valid.closed other)

theorem Valid.isRun_of_producer (valid : pool.Valid) (present : pool.producer ≠ .joined) :
    pool.isRun = true :=
  Bool.not_eq_false _ ▸ fun stopped =>
    valid.flag.mp stopped (valid.ending_of_producer present)

/-! ## Steps keep the invariant -/

/-- A worker which neither holds the mutex nor waits has nothing to tell unless it has left. -/
theorem Worker.sound_of_idle {queue : List Task} {isRun : Bool} {ending : Ending}
    {status : Worker Task} (idle : status.holds = false)
    (waits : status.waits = true → ending = .running ∨ ending = .stopped)
    (exited : status.hasExited = true → queue = [] ∧ isRun = false) :
    status.Sound queue isRun ending := by
  cases status with
  | consuming waiter =>
      cases waiter with
      | running => trivial
      | locked => trivial
      | ready => cases idle
      | unready => cases idle
      | waiting => exact waits rfl
      | notified => trivial
  | working task => trivial
  | exited => exact exited rfl

/-- The outcome of the test tells what the test has seen. -/
theorem Worker.sound_test (queue : List Task) (isRun : Bool) (ending : Ending) :
    (Worker.consuming (if !queue.isEmpty || !isRun then .ready else .unready) :
      Worker Task).Sound queue isRun ending := by
  by_cases holds : (!queue.isEmpty || !isRun) = true
  · rw [if_pos holds]
    exact (Bool.or_eq_true_iff.mp holds).imp (by simp) (by simp)
  · rw [if_neg holds]
    simp only [Bool.or_eq_true, not_or, Bool.not_eq_true, Bool.not_eq_false'] at holds
    exact holds.2

theorem Worker.Sound.waiting {queue : List Task} {isRun : Bool} {ending : Ending}
    {status : Worker Task} (sound : status.Sound queue isRun ending)
    (waits : status.waits = true) : ending = .running ∨ ending = .stopped := by
  cases status with
  | consuming waiter =>
      cases waiter with
      | waiting => exact sound
      | running => cases waits
      | locked => cases waits
      | ready => cases waits
      | unready => cases waits
      | notified => cases waits
  | working task => cases waits
  | exited => cases waits

theorem Worker.eq_exited {status : Worker Task} (exited : status.hasExited = true) :
    status = .exited := by
  cases status with
  | consuming waiter => cases exited
  | working task => cases exited
  | exited => rfl

theorem Worker.Sound.exited {queue : List Task} {isRun : Bool} {ending : Ending}
    {status : Worker Task} (sound : status.Sound queue isRun ending)
    (exited : status.hasExited = true) : queue = [] ∧ isRun = false := by
  rw [Worker.eq_exited exited] at sound
  exact sound

theorem Valid.push (valid : pool.Valid) {keepsMutex : Bool} {task : Task}
    (running : pool.producer = .running) (free : pool.mutexFree) :
    (pool.push keepsMutex task).Valid := by
  have present : pool.producer ≠ .joined := running ▸ nofun
  have ending := valid.ending_of_producer present
  have isRun := valid.isRun_of_producer present
  exact {
    fifo := by
      rw [TaskPool.push, ← List.append_assoc, valid.fifo]
    hands := valid.hands
    exclusive := valid.exclusive
    apart := fun _ => free.2
    sound := fun worker => by
      refine Worker.sound_of_idle (free.2 worker) (fun _ => Or.inl ending) fun exited => ?_
      exact absurd ((valid.sound worker).exited exited).2 (isRun ▸ nofun)
    closed := fun other => absurd ending other
    flag := valid.flag
    left := valid.left }

theorem Valid.take (valid : pool.Valid) {worker : Fin k} {task : Task} {rest : List Task}
    (status : pool.workers worker = .consuming .ready) (front : pool.queue = task :: rest) :
    (pool.take worker task rest).Valid where
  fifo := by
    have before := valid.fifo
    rw [front] at before
    simpa [TaskPool.take] using before
  hands other := by
    have before := valid.hands other
    rcases eq_or_ne other worker with rfl | different
    · rw [status] at before
      simp [TaskPool.take, before, Worker.hand]
    · simp [TaskPool.take, before, different, different.symm]
  exclusive := valid.exclusive_setWorker (fun holds => nomatch holds)
  apart := valid.apart_setWorker (fun holds => nomatch holds)
  sound := by
    have holds : (pool.workers worker).holds = true := status ▸ rfl
    intro other
    rcases eq_or_ne other worker with rfl | different
    · simp [TaskPool.take, Worker.Sound]
    · have unchanged : (pool.take worker task rest).workers other = pool.workers other :=
        Function.update_of_ne different ..
      rw [unchanged]
      refine Worker.sound_of_idle ?_ (valid.sound other).waiting fun exited => ?_
      · exact Bool.eq_false_iff.mpr fun held => different (valid.exclusive other worker held holds)
      · exact absurd ((valid.sound other).exited exited).1 (front ▸ nofun)
  closed := valid.closed
  flag := valid.flag
  left ending := absurd (valid.left ending worker) (status ▸ nofun)

theorem Valid.finish (valid : pool.Valid) {worker : Fin k} {task : Task}
    (status : pool.workers worker = .working task) : (pool.finish worker task).Valid where
  fifo := valid.fifo
  hands other := by
    have before := valid.hands other
    rcases eq_or_ne other worker with rfl | different
    · rw [status] at before
      simp [TaskPool.finish, before, Worker.hand]
    · simp [TaskPool.finish, before, different, different.symm]
  exclusive := valid.exclusive_setWorker (fun holds => nomatch holds)
  apart := valid.apart_setWorker (fun holds => nomatch holds)
  sound := forall_setWorker (fun _ status => status.Sound pool.queue pool.isRun pool.ending)
    valid.sound trivial
  closed := valid.closed
  flag := valid.flag
  left ending := absurd (valid.left ending worker) (status ▸ nofun)

/-- The producer goes on to `later` without the mutex. -/
theorem Valid.setProducer (valid : pool.Valid) {later : Producer}
    (present : pool.producer ≠ .joined) (released : later ≠ .holding) :
    ({ pool with producer := later } : TaskPool k Task).Valid where
  fifo := valid.fifo
  hands := valid.hands
  exclusive := valid.exclusive
  apart holding := absurd holding released
  sound := valid.sound
  closed other := absurd (valid.ending_of_producer present) other
  flag := valid.flag
  left := valid.left

theorem Valid.wake (valid : pool.Valid) (worker : Fin k) :
    (pool.setWorker worker (pool.workers worker).wake).Valid := by
  refine valid.setWorker worker (Worker.hand_wake ..) (fun holds => ?_)
    ((valid.sound worker).wake _) fun exited => ?_
  · exact Or.inl (Worker.holds_wake _ ▸ holds)
  · exact (Worker.hasExited_wake _).trans exited

theorem Valid.notifyOne (valid : pool.Valid) (woken : Option (Fin k))
    (owes : pool.producer = .holding ∨ pool.producer = .owing) :
    (pool.notifyOne woken).Valid := by
  have present : pool.producer ≠ .joined := by
    rcases owes with holding | owing
    · exact holding ▸ nofun
    · exact owing ▸ nofun
  cases woken with
  | none => exact valid.setProducer present nofun
  | some worker => exact (valid.wake worker).setProducer present nofun

theorem Valid.stop (valid : pool.Valid) (joined : pool.producer = .joined)
    (free : pool.mutexFree) :
    ({ pool with
      isRun := false
      ending := .stopped } : TaskPool k Task).Valid where
  fifo := valid.fifo
  hands := valid.hands
  exclusive := valid.exclusive
  apart := valid.apart
  sound worker := Worker.sound_of_idle (free.2 worker) (fun _ => Or.inr rfl)
    fun exited => ⟨((valid.sound worker).exited exited).1, rfl⟩
  closed _ := joined
  flag := iff_of_true rfl nofun
  left other := nomatch other

theorem Valid.notifyAll (valid : pool.Valid) (ending : pool.ending = .stopped) :
    ({ pool with
      workers := fun worker => (pool.workers worker).wake
      ending := .notified } : TaskPool k Task).Valid where
  fifo := valid.fifo
  hands worker := (Worker.hand_wake worker _).symm ▸ valid.hands worker
  exclusive first second firstHolds secondHolds :=
    valid.exclusive first second (Worker.holds_wake _ ▸ firstHolds)
      (Worker.holds_wake _ ▸ secondHolds)
  apart holding worker := (Worker.holds_wake _).trans (valid.apart holding worker)
  sound worker := (valid.sound worker).wake _
  closed _ := valid.closed (ending ▸ nofun)
  flag := iff_of_true (valid.flag.mpr (ending ▸ nofun)) nofun
  left other := nomatch other

theorem Valid.joinWorkers (valid : pool.Valid) (notified : pool.ending = .notified)
    (exited : ∀ worker, (pool.workers worker).hasExited = true) :
    ({ pool with ending := .joined } : TaskPool k Task).Valid where
  fifo := valid.fifo
  hands := valid.hands
  exclusive := valid.exclusive
  apart := valid.apart
  sound worker := by
    have left := (valid.sound worker).exited (exited worker)
    rw [Worker.eq_exited (exited worker)]
    exact left
  closed _ := valid.closed (notified ▸ nofun)
  flag := iff_of_true (valid.flag.mpr (notified ▸ nofun)) nofun
  left _ := exited

theorem valid_step {keepsMutex : Bool} {event : Event k Task} {next : TaskPool k Task}
    (valid : pool.Valid) (taken : pool.step keepsMutex event = some next) : next.Valid := by
  cases step_cases taken with
  | push task running free => exact valid.push running free
  | notifyOne woken owes => exact valid.notifyOne woken owes
  | lock worker status free =>
      refine valid.setWorker worker ?_ (fun _ => Or.inr free) trivial ?_
      · rcases status with running | notified
        · rw [running]; rfl
        · rw [notified]; rfl
      · rcases status with running | notified
        · rw [running]; nofun
        · rw [notified]; nofun
  | test worker status =>
      refine valid.setWorker worker ?_ (fun _ => Or.inl (status ▸ rfl)) ?_ (status ▸ nofun)
      · rw [status]; rfl
      · exact Worker.sound_test ..
  | register worker status =>
      refine valid.setWorker worker (status ▸ rfl) nofun ?_ (status ▸ nofun)
      have told := valid.sound worker
      rw [status] at told
      refine Or.inl (not_not.mp fun other => ?_)
      exact absurd (told.symm.trans (valid.flag.mpr other)) nofun
  | exit worker status stopped empty =>
      exact valid.setWorker worker (status ▸ rfl) nofun ⟨empty, stopped⟩ (status ▸ nofun)
  | take worker task rest status front => exact valid.take status front
  | finish worker task status => exact valid.finish status
  | spuriousWakeup worker => exact valid.wake worker
  | joinProducer running =>
      exact valid.setProducer (running ▸ nofun) nofun
  | stop joined ending free => exact valid.stop joined free
  | notifyAll ending => exact valid.notifyAll ending
  | joinWorkers ending exited => exact valid.joinWorkers ending exited

/-! ## The histories under a step -/

theorem finished_step {keepsMutex : Bool} {event : Event k Task} {next : TaskPool k Task}
    (taken : pool.step keepsMutex event = some next) (other : ∀ worker, event ≠ .finish worker) :
    next.finished = pool.finished := by
  cases step_cases taken with
  | finish worker task status => exact absurd rfl (other worker)
  | _ => rfl

/-- Only a push adds to what was pushed. -/
theorem pushed_step {keepsMutex : Bool} {event : Event k Task} {next : TaskPool k Task}
    (taken : pool.step keepsMutex event = some next) :
    next.pushed = pool.pushed ++ event.pushTask?.toList := by
  cases step_cases taken with
  | push task running free => rfl
  | _ => exact (List.append_nil _).symm

/-- A worker which has not begun is moved by its own steps only. -/
theorem workers_step_of_running {keepsMutex : Bool} {event : Event k Task}
    {next : TaskPool k Task} {worker : Fin k} (taken : pool.step keepsMutex event = some next)
    (running : pool.workers worker = .consuming .running) (other : event ≠ .consume worker) :
    next.workers worker = .consuming .running := by
  have elsewhere {mover : Fin k} (status : Worker Task) (different : worker ≠ mover) :
      (pool.setWorker mover status).workers worker = .consuming .running :=
    (setWorker_of_ne pool status different).trans running
  have apart {mover : Fin k} (moves : event = .consume mover) : worker ≠ mover := by
    rintro rfl
    exact other moves
  have woken (mover : Fin k) :
      (pool.setWorker mover (pool.workers mover).wake).workers worker = .consuming .running := by
    rcases eq_or_ne worker mover with rfl | different
    · rw [setWorker_self, running]
      rfl
    · exact elsewhere _ different
  cases step_cases taken with
  | push task producer free => exact running
  | notifyOne mover owes =>
      cases mover with
      | none => exact running
      | some mover => exact woken mover
  | lock mover status free => exact elsewhere _ (apart rfl)
  | test mover status => exact elsewhere _ (apart rfl)
  | register mover status => exact elsewhere _ (apart rfl)
  | exit mover status stopped empty => exact elsewhere _ (apart rfl)
  | take mover task rest status front => exact elsewhere _ (apart rfl)
  | finish mover task status =>
      refine elsewhere _ fun same => ?_
      rw [same, status] at running
      cases running
  | spuriousWakeup mover => exact woken mover
  | joinProducer producer => exact running
  | stop joined ending free => exact running
  | notifyAll ending =>
      change (pool.workers worker).wake = .consuming .running
      rw [running]
      rfl
  | joinWorkers ending exited => exact running

end Steps

/-! ## What becomes of a task -/

/-- The tasks in the hands of the workers. -/
def hands (pool : TaskPool k Task) : List (Fin k × Task) :=
  (List.finRange k).flatMap fun worker => (pool.workers worker).hand worker

section Tasks

variable {pool : TaskPool k Task}

theorem Worker.mem_hand {worker : Fin k} {status : Worker Task} {entry : Fin k × Task}
    (member : entry ∈ status.hand worker) : entry.1 = worker := by
  cases status with
  | consuming waiter => cases member
  | working task =>
      rw [List.mem_singleton.mp member]
  | exited => cases member

open Classical in
theorem count_hands (entry : Fin k × Task) :
    pool.hands.count entry = ((pool.workers entry.1).hand entry.1).count entry := by
  have other : ∀ worker, worker ≠ entry.1 → worker ∈ List.finRange k →
      ((pool.workers worker).hand worker).count entry = 0 := by
    intro worker different _
    exact List.count_eq_zero.mpr fun member => different (Worker.mem_hand member).symm
  rw [hands, List.count_flatMap]
  refine (List.sum_map_eq_nsmul_single entry.1 _ other).trans ?_
  rw [List.count_eq_one_of_mem (List.nodup_finRange k) (List.mem_finRange _), one_nsmul]

/-- A task which was taken is finished or still in the hands of its worker. -/
theorem Valid.perm_taken (valid : pool.Valid) : pool.taken.Perm (pool.finished ++ pool.hands) := by
  classical
  refine List.perm_iff_count.mpr fun entry => ?_
  have ofWorker (list : List (Fin k × Task)) :
      (list.filter (·.1 = entry.1)).count entry = list.count entry :=
    List.count_filter (decide_eq_true rfl)
  rw [List.count_append, count_hands, ← ofWorker pool.taken, ← ofWorker pool.finished,
    valid.hands, List.count_append]

/-- A single worker finishes the tasks in the order in which it took them. -/
theorem Valid.taken_of_single (valid : pool.Valid) (single : k = 1) :
    pool.taken = pool.finished ++ pool.hands := by
  subst single
  have everything (list : List (Fin 1 × Task)) : list.filter (·.1 = 0) = list :=
    List.filter_eq_self.mpr fun entry _ => decide_eq_true (Subsingleton.elim entry.1 0)
  have hand : pool.hands = (pool.workers 0).hand 0 := by
    simp [TaskPool.hands, List.finRange_succ]
  rw [hand, ← everything pool.taken, valid.hands, everything]

/-- What a worker has in its hands was pushed. -/
theorem Valid.mem_pushed (valid : pool.Valid) {worker : Fin k} {task : Task}
    (status : pool.workers worker = .working task) : task ∈ pool.pushed := by
  have member : (worker, task) ∈ pool.taken.filter (·.1 = worker) := by
    rw [valid.hands, status]
    exact List.mem_append_right _ List.mem_cons_self
  rw [← valid.fifo]
  exact List.mem_append_left _ (List.mem_map_of_mem (List.mem_of_mem_filter member))

theorem hands_of_exited (exited : ∀ worker, (pool.workers worker).hasExited = true) :
    pool.hands = [] := by
  refine List.flatMap_eq_nil_iff.mpr fun worker _ => ?_
  rw [Worker.eq_exited (exited worker)]
  rfl

/-- Workers which have left leave an empty queue. -/
theorem Valid.queue_of_exited (valid : pool.Valid) (staffed : 0 < k)
    (exited : ∀ worker, (pool.workers worker).hasExited = true) : pool.queue = [] :=
  ((valid.sound ⟨0, staffed⟩).exited (exited ⟨0, staffed⟩)).1

/-- Nobody is registered after the notification of the end. -/
theorem Valid.not_waits (valid : pool.Valid)
    (ending : pool.ending = .notified ∨ pool.ending = .joined) (worker : Fin k) :
    (pool.workers worker).waits = false := by
  refine Bool.eq_false_iff.mpr fun waits => ?_
  rcases (valid.sound worker).waiting waits with running | stopped
  · rw [running] at ending
    exact ending.elim nofun nofun
  · rw [stopped] at ending
    exact ending.elim nofun nofun

end Tasks

end TaskPool

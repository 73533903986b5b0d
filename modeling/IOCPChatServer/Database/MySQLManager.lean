import IOCPChatServer.Library.TaskPool
import IOCPChatServer.Packet

/-!
# The MySQL tasks

`MysqlManager.h`: the logic thread calls `PushTask`, which notifies while it holds
`mReqLock`; `TaskProcessThread` takes the front of `mRequestTask` and inserts a row if its
connection works.  `PacketManager::End` joins the logic thread before it calls
`MySQLManager::End`.

`pool.pushed`, `pool.taken`, `pool.finished` and `inserted` are histories.
-/

namespace IOCPChatServer

/-- `MySQLManager` with `k` workers. -/
structure MySQLManager (k n : Nat) where
  pool : TaskPool k (MySQLTask n) := {}
  inserted : List (Fin k × MySQLTask n) := []

namespace MySQLManager

variable {k n : Nat}

/-- `handleTask` is the body of `TaskProcessThread` after the lock; `ensured` is what
`EnsureConnection` returned.  All other steps are those of the pool. -/
inductive Event (k n : Nat) where
  | pool (event : TaskPool.Event k (MySQLTask n))
  | handleTask (worker : Fin k) (ensured : Bool)
  deriving DecidableEq

/-- A task is inserted if there is a connection, and released in any case. -/
def handleTask (manager : MySQLManager k n) (worker : Fin k) (ensured : Bool)
    (task : MySQLTask n) : MySQLManager k n where
  pool := manager.pool.finish worker task
  inserted := if ensured then manager.inserted ++ [(worker, task)] else manager.inserted

def step (manager : MySQLManager k n) : Event k n → Option (MySQLManager k n)
  | .pool (.finish _) => none
  | .pool event => (manager.pool.step true event).map fun pool => { manager with pool }
  | .handleTask worker ensured =>
      match manager.pool.workers worker with
      | .working task => some (manager.handleTask worker ensured task)
      | _ => none

/-- The ways in which a step can happen. -/
inductive StepCase (manager : MySQLManager k n) : Event k n → MySQLManager k n → Prop where
  | pool (event : TaskPool.Event k (MySQLTask n)) (pool : TaskPool k (MySQLTask n))
      (other : ∀ worker, event ≠ .finish worker)
      (taken : manager.pool.step true event = some pool) :
      StepCase manager (.pool event) { manager with pool }
  | handleTask (worker : Fin k) (ensured : Bool) (task : MySQLTask n)
      (status : manager.pool.workers worker = .working task) :
      StepCase manager (.handleTask worker ensured) (manager.handleTask worker ensured task)

theorem step_cases {manager next : MySQLManager k n} {event : Event k n}
    (taken : manager.step event = some next) : manager.StepCase event next := by
  cases event with
  | pool event =>
      cases event with
      | finish worker => cases taken
      | _ =>
          simp only [step] at taken
          obtain ⟨pool, stepped, rfl⟩ := Option.map_eq_some_iff.mp taken
          exact .pool _ pool nofun stepped
  | handleTask worker ensured =>
      simp only [step] at taken
      split at taken
      · rename_i task status
        cases taken
        exact .handleTask worker ensured task status
      · cases taken

/-- The pool is as it must be, and what was inserted is part of what was finished. -/
structure Valid (manager : MySQLManager k n) : Prop where
  pool : manager.pool.Valid
  inserted : manager.inserted.Sublist manager.pool.finished

theorem valid_init : ({} : MySQLManager k n).Valid where
  pool := TaskPool.valid_init
  inserted := List.Sublist.refl []

theorem valid_step {manager next : MySQLManager k n} {event : Event k n} (valid : manager.Valid)
    (taken : manager.step event = some next) : next.Valid := by
  cases step_cases taken with
  | pool event pool other stepped =>
      refine ⟨TaskPool.valid_step valid.pool stepped, ?_⟩
      have unchanged := TaskPool.finished_step stepped other
      exact unchanged.symm ▸ valid.inserted
  | handleTask worker ensured task status =>
      refine ⟨valid.pool.finish status, ?_⟩
      cases ensured with
      | true => exact valid.inserted.append (List.Sublist.refl _)
      | false => exact valid.inserted.trans (List.sublist_append_left _ _)

/-! ## Graceful shutdown -/

/-- Every push is dequeued by one worker, in the order of the pushes; what is dequeued is
finished or in the hands of that worker, and its row is inserted at most once.  Nobody waits
once `MySQLManager::End` has notified all workers, and nothing is left when it returns. -/
structure DrainsGracefully (manager : MySQLManager k n) : Prop where
  dequeued : manager.pool.taken.map Prod.snd ++ manager.pool.queue = manager.pool.pushed
  once : manager.pool.taken.Perm (manager.pool.finished ++ manager.pool.hands)
  inserted : manager.inserted.Sublist manager.pool.finished
  drained : manager.pool.ending = .joined →
    manager.pool.queue = [] ∧ manager.pool.taken.map Prod.snd = manager.pool.pushed ∧
      manager.pool.taken.Perm manager.pool.finished
  released : manager.pool.ending = .notified ∨ manager.pool.ending = .joined →
    ∀ worker, (manager.pool.workers worker).waits = false

theorem Valid.drainsGracefully {manager : MySQLManager k n} (valid : manager.Valid)
    (staffed : 0 < k) : manager.DrainsGracefully where
  dequeued := valid.pool.fifo
  once := valid.pool.perm_taken
  inserted := valid.inserted
  drained joined := by
    have exited := valid.pool.left joined
    have empty := valid.pool.queue_of_exited staffed exited
    have order := valid.pool.fifo
    have once := valid.pool.perm_taken
    rw [empty, List.append_nil] at order
    rw [TaskPool.hands_of_exited exited, List.append_nil] at once
    exact ⟨empty, order, once⟩
  released := valid.pool.not_waits

/-- The task which the event pushes. -/
def Event.pushTask? : Event k n → Option (MySQLTask n)
  | .pool event => event.pushTask?
  | .handleTask _ _ => none

theorem pushed_step {manager next : MySQLManager k n} {event : Event k n}
    (taken : manager.step event = some next) :
    next.pool.pushed = manager.pool.pushed ++ event.pushTask?.toList := by
  cases step_cases taken with
  | pool event pool other stepped => exact TaskPool.pushed_step stepped
  | handleTask worker ensured task status => exact (List.append_nil _).symm

/-- No MySQL task is lost or run twice by the shutdown: in every order of the steps of the
logic thread, of the workers and of `PacketManager::End`.  What was pushed is what the events
of the run push. -/
theorem always_drainsGracefully (staffed : 0 < k) (events : List (Event k n)) :
    Execution.Always step DrainsGracefully {} events ∧
      ∀ last, Execution.run? step ({} : MySQLManager k n) events = some last →
        last.pool.pushed = events.filterMap Event.pushTask? := by
  have preserved (manager : MySQLManager k n) (event : Event k n) (next : MySQLManager k n)
      (valid : manager.Valid) (taken : manager.step event = some next) : next.Valid :=
    valid_step valid taken
  have always := Execution.always_of_invariant preserved valid_init events
  refine ⟨always.mono fun _ valid => valid.drainsGracefully staffed, fun last completed => ?_⟩
  exact Execution.history_of_run? preserved
    (fun manager event next _ taken => pushed_step taken) valid_init completed

/-- The worker locks, tests, and takes the front, registers or leaves. -/
def consumeOnce (worker : Fin k) : List (Event k n) :=
  List.replicate 3 (.pool (.consume worker))

/-- Two workers, the second of which is at its wait, two tasks, and the end before either is
taken. -/
def endBeforeTaking : List (Event 2 1) :=
  List.flatten [
    consumeOnce 1,
    [.pool (.push (.insertLoginEvent 0 [])), .pool (.notifyOne (some 1)),
      .pool (.push (.insertRoomEvent 0 [] 0 .enter)), .pool (.notifyOne none),
      .pool .joinProducer, .pool .stop, .pool .notifyAll],
    consumeOnce 0, [.handleTask 0 true], consumeOnce 1, [.handleTask 1 false],
    consumeOnce 0, consumeOnce 1, [.pool .joinWorkers]]

theorem always_drainsGracefully_endBeforeTaking :
    (Execution.run? step {} endBeforeTaking).map (fun manager =>
        (manager.pool.ending, manager.pool.finished, manager.inserted)) =
      some (.joined,
        [(0, .insertLoginEvent 0 []), (1, .insertRoomEvent 0 [] 0 .enter)],
        [(0, .insertLoginEvent 0 [])]) ∧
    ∀ last, Execution.run? step {} endBeforeTaking = some last →
      last.DrainsGracefully ∧ last.pool.pushed = endBeforeTaking.filterMap Event.pushTask? := by
  obtain ⟨always, pushed⟩ := always_drainsGracefully (by decide) endBeforeTaking
  exact ⟨by decide +kernel, fun last completed => ⟨always.last completed, pushed last completed⟩⟩

end MySQLManager

end IOCPChatServer

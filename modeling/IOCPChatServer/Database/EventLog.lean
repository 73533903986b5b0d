import IOCPChatServer.Database.MySQLStatements
import IOCPChatServer.Library.TaskPool
import IOCPChatServer.Logic.LoggedTasks
import IOCPChatServer.Logic.Transcript

/-!
# The log of the server in its tables

The way of an event from its handler into its table: a call of `ProcessRecvPacket` makes up
its task, `PushTask` hands it over as the bytes of its structure, and the one worker which
`PacketManager::Run` asks for takes it, makes sure of its connection and inserts what the
bytes say.  The steps of the two threads and of the shutdown are taken in any order.

`entries`, `outcomes` and the histories of the pool are looked at by no step.
-/

namespace IOCPChatServer

/-! ## Attempts -/

section Attempts

variable {Entry : Type*}

/-- The entries whose attempt succeeded; an entry behind the attempts is not tried yet. -/
def succeeded : List Entry → List Bool → List Entry
  | entry :: entries, outcome :: outcomes =>
      if outcome then entry :: succeeded entries outcomes else succeeded entries outcomes
  | _, _ => []

theorem succeeded_nil (entries : List Entry) : succeeded entries [] = [] := by
  cases entries with
  | nil => rfl
  | cons entry rest => rfl

theorem succeeded_singleton (entry : Entry) (rest : List Entry) (outcome : Bool) :
    succeeded (entry :: rest) [outcome] = if outcome then [entry] else [] := by
  rw [succeeded, succeeded_nil]

theorem succeeded_append {tried rest : List Entry} {outcomes more : List Bool}
    (same : tried.length = outcomes.length) :
    succeeded (tried ++ rest) (outcomes ++ more) =
      succeeded tried outcomes ++ succeeded rest more := by
  induction tried generalizing outcomes with
  | nil =>
      obtain rfl := List.length_eq_zero_iff.mp same.symm
      rfl
  | cons entry entries ih =>
      cases outcomes with
      | nil => cases same
      | cons outcome outcomes =>
          have later := ih (Nat.succ.inj same)
          cases outcome with
          | false => exact later
          | true => exact congrArg (entry :: ·) later

/-- The next attempt. -/
theorem succeeded_attempt {tried rest : List Entry} {outcomes : List Bool} (entry : Entry)
    (outcome : Bool) (same : tried.length = outcomes.length) :
    succeeded (tried ++ entry :: rest) (outcomes ++ [outcome]) =
      succeeded (tried ++ entry :: rest) outcomes ++ if outcome then [entry] else [] := by
  have before := @succeeded_append _ _ (entry :: rest) _ [] same
  rw [List.append_nil, succeeded_nil, List.append_nil] at before
  rw [succeeded_append same, before, succeeded_singleton]

/-- An entry which is not tried yet. -/
theorem succeeded_append_untried {entries more : List Entry} {outcomes : List Bool}
    (tried : outcomes.length ≤ entries.length) :
    succeeded (entries ++ more) outcomes = succeeded entries outcomes := by
  have split := List.take_append_drop outcomes.length entries
  have front : (entries.take outcomes.length).length = outcomes.length :=
    List.length_take_of_le tried
  have all (behind : List Entry) :
      succeeded (entries.take outcomes.length ++ behind) outcomes =
        succeeded (entries.take outcomes.length) outcomes := by
    have appended := @succeeded_append _ _ behind _ [] front
    rwa [List.append_nil, succeeded_nil, List.append_nil] at appended
  rw [← split, List.append_assoc, all, all]

theorem succeeded_of_forall {entries : List Entry} {outcomes : List Bool}
    (all : ∀ outcome ∈ outcomes, outcome = true) (tried : outcomes.length = entries.length) :
    succeeded entries outcomes = entries := by
  induction entries generalizing outcomes with
  | nil =>
      obtain rfl := List.length_eq_zero_iff.mp tried
      rfl
  | cons entry entries ih =>
      cases outcomes with
      | nil => cases tried
      | cons outcome outcomes =>
          obtain rfl := all _ List.mem_cons_self
          have later := ih (fun other member => all other (List.mem_cons_of_mem _ member))
            (Nat.succ.inj tried)
          exact congrArg (entry :: ·) later

end Attempts

variable {n : Nat}

/-! ## The threads -/

/-- A task which was pushed, with the time at which its handler stamped it. -/
structure LogEntry (n : Nat) where
  task : MySQLTask n
  TimeStampSec : UInt64
  deriving DecidableEq

/-- The row which the entry stands for. -/
def LogEntry.row (entry : LogEntry n) : EventRow := entry.task.row entry.TimeStampSec

/-- The logic thread, whose handlers have made up the tasks of `unpushed` and not pushed them
yet, the worker of `MySQLManager` and the rows in the order in which they were inserted. -/
structure EventLog (n : Nat) where
  logic : PacketManager n
  unpushed : List (MySQLTask n) := []
  pool : TaskPool 1 (MySQLTaskData n) := {}
  worker : MySQLWorker n := {}
  rows : List EventRow := []
  entries : List (LogEntry n) := []
  outcomes : List Bool := []

/-- What `TaskProcessThread` does with a task after the lock: the row which it inserts, and the
worker afterwards. -/
def MySQLTaskData.process (task : MySQLTaskData n) (worker : MySQLWorker n)
    (answers : MySQLAnswers) : Option EventRow × MySQLWorker n :=
  if task.TaskID = .invalid then (none, worker)
  else
    let ensured := worker.ensureConnection answers
    if ensured.1 then
      (if answers.bindParam && answers.execute then task.insertedRow else none, ensured.2)
    else (none, ensured.2.mysqlError)

theorem MySQLTaskData.ne_invalid {task : MySQLTaskData n} {row : EventRow}
    (inserts : task.insertedRow = some row) : task.TaskID ≠ .invalid := by
  intro invalid
  rw [insertedRow, invalid] at inserts
  cases inserts

namespace EventLog

/-- The server before its first packet. -/
def start (memory : Fin n → Bytes) : EventLog n where
  logic := PacketManager.init memory

/-- `recv` is a call of `ProcessRecvPacket` up to its `PushTask`, `pushTask` that call with
the array behind the strings and the time, `threadStart` the beginning of `TaskProcessThread`
and `handleTask` what it does after the lock.  All other steps are those of the pool. -/
inductive Event (n : Nat) where
  | recv (call : RecvCall n)
  | pushTask (memory : PacketMemory) (TimeStampSec : UInt64)
  | threadStart (answers : MySQLAnswers)
  | handleTask (answers : MySQLAnswers)
  | pool (event : TaskPool.Event 1 (MySQLTaskData n))

/-- The steps of the pool which the two threads are ready for. -/
def ready (log : EventLog n) : TaskPool.Event 1 (MySQLTaskData n) → Bool
  | .push _ => false
  | .finish _ => false
  | .consume _ => log.worker.started
  | .joinProducer => log.unpushed.isEmpty
  | _ => true

def recv (log : EventLog n) (logic : PacketManager n) : EventLog n :=
  { log with
    logic
    unpushed := logic.mysqlTasks.drop log.logic.mysqlTasks.length }

def pushTask (log : EventLog n) (entry : LogEntry n) (rest : List (MySQLTask n))
    (pool : TaskPool 1 (MySQLTaskData n)) : EventLog n :=
  { log with
    unpushed := rest
    pool
    entries := log.entries ++ [entry] }

def handleTask (log : EventLog n) (task : MySQLTaskData n) (answers : MySQLAnswers) :
    EventLog n :=
  let processed := task.process log.worker answers
  { log with
    pool := log.pool.finish 0 task
    worker := processed.2
    rows := log.rows ++ processed.1.toList
    outcomes := log.outcomes ++ [processed.1.isSome] }

def step (log : EventLog n) : Event n → Option (EventLog n)
  | .recv call =>
      if log.pool.producer = .running ∧ log.unpushed = [] then
        (log.logic.recv call).map log.recv
      else none
  | .pushTask memory TimeStampSec =>
      match log.unpushed with
      | [] => none
      | task :: rest =>
          (log.pool.step true (.push (task.pack memory TimeStampSec))).map
            (log.pushTask ⟨task, TimeStampSec⟩ rest)
  | .threadStart answers =>
      if log.worker.started then none
      else some { log with worker := log.worker.threadStart answers }
  | .handleTask answers =>
      match log.pool.workers 0 with
      | .working task => some (log.handleTask task answers)
      | _ => none
  | .pool event =>
      if log.ready event then (log.pool.step true event).map fun pool => { log with pool }
      else none

/-- The ways in which a step can happen. -/
inductive StepCase (log : EventLog n) : Event n → EventLog n → Prop where
  | recv (call : RecvCall n) (logic : PacketManager n) (running : log.pool.producer = .running)
      (settled : log.unpushed = []) (taken : log.logic.recv call = some logic) :
      StepCase log (.recv call) (log.recv logic)
  | pushTask (memory : PacketMemory) (TimeStampSec : UInt64) (task : MySQLTask n)
      (rest : List (MySQLTask n)) (pool : TaskPool 1 (MySQLTaskData n))
      (front : log.unpushed = task :: rest)
      (taken : log.pool.step true (.push (task.pack memory TimeStampSec)) = some pool) :
      StepCase log (.pushTask memory TimeStampSec) (log.pushTask ⟨task, TimeStampSec⟩ rest pool)
  | threadStart (answers : MySQLAnswers) (unstarted : log.worker.started = false) :
      StepCase log (.threadStart answers) { log with worker := log.worker.threadStart answers }
  | handleTask (answers : MySQLAnswers) (task : MySQLTaskData n)
      (status : log.pool.workers 0 = .working task) :
      StepCase log (.handleTask answers) (log.handleTask task answers)
  | pool (event : TaskPool.Event 1 (MySQLTaskData n)) (pool : TaskPool 1 (MySQLTaskData n))
      (ready : log.ready event = true) (taken : log.pool.step true event = some pool) :
      StepCase log (.pool event) { log with pool }

theorem step_cases {log next : EventLog n} {event : Event n} (taken : log.step event = some next) :
    log.StepCase event next := by
  cases event with
  | recv call =>
      obtain ⟨⟨running, settled⟩, stepped⟩ := Option.ite_none_right_eq_some.mp taken
      obtain ⟨logic, received, rfl⟩ := Option.map_eq_some_iff.mp stepped
      exact .recv call logic running settled received
  | pushTask memory TimeStampSec =>
      simp only [step] at taken
      split at taken
      · cases taken
      · rename_i task rest front
        obtain ⟨pool, pushed, rfl⟩ := Option.map_eq_some_iff.mp taken
        exact .pushTask memory TimeStampSec task rest pool front pushed
  | threadStart answers =>
      obtain ⟨unstarted, started⟩ := Option.ite_none_left_eq_some.mp taken
      cases started
      exact .threadStart answers (Bool.not_eq_true _ ▸ unstarted)
  | handleTask answers =>
      simp only [step] at taken
      split at taken
      · rename_i task status
        cases taken
        exact .handleTask answers task status
      · cases taken
  | pool event =>
      obtain ⟨ready, stepped⟩ := Option.ite_none_right_eq_some.mp taken
      obtain ⟨pool, moved, rfl⟩ := Option.map_eq_some_iff.mp stepped
      exact .pool event pool ready moved

/-! ## The invariant -/

/-- The pool and the logic thread are as they must be, what was pushed says what was logged and
has its size, and the rows are those of the attempts which succeeded. -/
structure Recording (log : EventLog n) : Prop where
  pool : log.pool.Valid
  logic : log.logic.LogsFittingTasks
  logged : log.entries.map LogEntry.task ++ log.unpushed = log.logic.mysqlTasks
  pushed : log.pool.pushed.map MySQLTaskData.insertedRow =
    log.entries.map fun entry => some entry.row
  sized : ∀ task ∈ log.pool.pushed, task.pData.length = task.DataSize
  tried : log.outcomes.length = log.pool.finished.length
  rows : log.rows = (succeeded log.entries log.outcomes).map LogEntry.row
  settled : log.pool.producer = .joined → log.unpushed = []

theorem recording_start (memory : Fin n → Bytes) : (start memory).Recording where
  pool := TaskPool.valid_init
  logic := PacketManager.logsFittingTasks_init memory
  logged := rfl
  pushed := rfl
  sized _ pushed := absurd pushed List.not_mem_nil
  tried := rfl
  rows := rfl
  settled _ := rfl

section Steps

variable {log : EventLog n}

/-- The one worker finishes the tasks in the order in which they were pushed. -/
theorem Recording.finished_append (recording : log.Recording) :
    log.pool.finished.map Prod.snd ++ (log.pool.hands.map Prod.snd ++ log.pool.queue) =
      log.pool.pushed := by
  rw [← List.append_assoc, ← List.map_append, ← recording.pool.taken_of_single rfl]
  exact recording.pool.fifo

theorem Recording.length_pushed (recording : log.Recording) :
    log.pool.pushed.length = log.entries.length := by
  simpa only [List.length_map] using congrArg List.length recording.pushed

/-- What is tried was pushed. -/
theorem Recording.tried_le (recording : log.Recording) :
    log.outcomes.length ≤ log.entries.length := by
  have total := congrArg List.length recording.finished_append
  simp only [List.length_append, List.length_map] at total
  rw [recording.tried, ← recording.length_pushed]
  omega

/-- The task in the hands of the worker is that of the first entry which is not tried. -/
theorem Recording.entry_of_working (recording : log.Recording) {task : MySQLTaskData n}
    (status : log.pool.workers 0 = .working task) :
    ∃ done entry rest, log.entries = done ++ entry :: rest ∧
      done.length = log.outcomes.length ∧ task.insertedRow = some entry.row := by
  have hands : log.pool.hands = [(0, task)] := by
    simp [TaskPool.hands, List.finRange_succ, status, TaskPool.Worker.hand]
  have order := recording.pushed
  rw [← recording.finished_append, hands, List.map_append] at order
  obtain ⟨done, behind, split, finished, later⟩ := List.map_eq_append_iff.mp order.symm
  obtain ⟨entry, rest, rfl, same, _⟩ := List.map_eq_cons_iff.mp later
  refine ⟨done, entry, rest, split, ?_, same.symm⟩
  have lengths := congrArg List.length finished
  simpa only [List.length_map, recording.tried] using lengths

theorem Recording.recv (recording : log.Recording) {call : RecvCall n} {logic : PacketManager n}
    (running : log.pool.producer = .running) (settled : log.unpushed = [])
    (taken : log.logic.recv call = some logic) : (log.recv logic).Recording := by
  obtain ⟨tasks, logs⟩ := recording.logic.logs taken
  exact {
    pool := recording.pool
    logic := recording.logic.recv taken
    logged := by
      have before := recording.logged
      rw [settled, List.append_nil] at before
      change log.entries.map LogEntry.task ++
        logic.mysqlTasks.drop log.logic.mysqlTasks.length = logic.mysqlTasks
      rw [logs.added, List.drop_left, before]
    pushed := recording.pushed
    sized := recording.sized
    tried := recording.tried
    rows := recording.rows
    settled := fun joined => nomatch running.symm.trans joined }

theorem Recording.pushTask (recording : log.Recording) {memory : PacketMemory}
    {TimeStampSec : UInt64} {task : MySQLTask n} {rest : List (MySQLTask n)}
    {pool : TaskPool 1 (MySQLTaskData n)} (front : log.unpushed = task :: rest)
    (taken : log.pool.step true (.push (task.pack memory TimeStampSec)) = some pool) :
    (log.pushTask ⟨task, TimeStampSec⟩ rest pool).Recording := by
  have logged := recording.logged
  rw [front] at logged
  have fits : task.Fits := by
    refine recording.logic.tasks task ?_
    rw [← logged]
    exact List.mem_append_right _ List.mem_cons_self
  have pushed : pool.pushed = log.pool.pushed ++ [task.pack memory TimeStampSec] :=
    TaskPool.pushed_step taken
  have finished : pool.finished = log.pool.finished := TaskPool.finished_step taken nofun
  exact {
    pool := TaskPool.valid_step recording.pool taken
    logic := recording.logic
    logged := by
      refine Eq.trans ?_ logged
      simp [EventLog.pushTask]
    pushed := by
      change pool.pushed.map MySQLTaskData.insertedRow = (log.entries ++ [_]).map _
      rw [pushed, List.map_append, List.map_append, recording.pushed, List.map_singleton,
        List.map_singleton, MySQLTask.insertedRow_pack fits]
      rfl
    sized := by
      change ∀ task ∈ pool.pushed, task.pData.length = task.DataSize
      rw [pushed]
      intro packed member
      rcases List.mem_append.mp member with earlier | last
      · exact recording.sized packed earlier
      · rw [List.mem_singleton.mp last]
        exact MySQLTask.length_data fits memory TimeStampSec
    tried := recording.tried.trans (congrArg List.length finished.symm)
    rows := by
      refine recording.rows.trans ?_
      exact congrArg (List.map LogEntry.row) (succeeded_append_untried recording.tried_le).symm
    settled := fun joined => by
      cases TaskPool.step_cases taken with
      | push pushedTask running free => cases joined }

/-- An attempt inserts the row of its task if it succeeds, and nothing otherwise. -/
theorem process_row (task : MySQLTaskData n) (worker : MySQLWorker n) (answers : MySQLAnswers)
    {row : EventRow} (inserts : task.insertedRow = some row) :
    (task.process worker answers).1.toList =
      if (task.process worker answers).1.isSome then [row] else [] := by
  have cases : (task.process worker answers).1 = none ∨
      (task.process worker answers).1 = some row := by
    unfold MySQLTaskData.process
    rw [← inserts]
    dsimp only
    split
    · exact Or.inl rfl
    · split
      · split
        · exact Or.inr rfl
        · exact Or.inl rfl
      · exact Or.inl rfl
  rcases cases with nothing | inserted
  · rw [nothing]
    rfl
  · rw [inserted]
    rfl

theorem Recording.handleTask (recording : log.Recording) {task : MySQLTaskData n}
    (status : log.pool.workers 0 = .working task) (answers : MySQLAnswers) :
    (log.handleTask task answers).Recording := by
  obtain ⟨done, entry, rest, split, tried, inserts⟩ := recording.entry_of_working status
  exact {
    pool := recording.pool.finish status
    logic := recording.logic
    logged := recording.logged
    pushed := recording.pushed
    sized := recording.sized
    tried := by
      simp [EventLog.handleTask, TaskPool.finish, recording.tried]
    rows := by
      change log.rows ++ (task.process log.worker answers).1.toList =
        (succeeded log.entries (log.outcomes ++ [_])).map LogEntry.row
      rw [recording.rows, split, succeeded_attempt entry _ tried, List.map_append,
        process_row _ _ _ inserts, apply_ite (List.map LogEntry.row), List.map_singleton,
        List.map_nil]
    settled := recording.settled }

theorem Recording.pooled (recording : log.Recording)
    {event : TaskPool.Event 1 (MySQLTaskData n)} {pool : TaskPool 1 (MySQLTaskData n)}
    (ready : log.ready event = true) (taken : log.pool.step true event = some pool) :
    ({ log with pool } : EventLog n).Recording := by
  have nothing : event.pushTask? = none := by
    cases event with
    | push task => cases ready
    | _ => rfl
  have pushed : pool.pushed = log.pool.pushed := by
    rw [TaskPool.pushed_step taken, nothing]
    exact List.append_nil _
  have finished : pool.finished = log.pool.finished :=
    TaskPool.finished_step taken fun worker same => by
      subst same
      cases ready
  exact {
    pool := TaskPool.valid_step recording.pool taken
    logic := recording.logic
    logged := recording.logged
    pushed := (congrArg (List.map _) pushed).trans recording.pushed
    sized := fun task member => recording.sized task (pushed ▸ member)
    tried := recording.tried.trans (congrArg List.length finished.symm)
    rows := recording.rows
    settled := fun joined => by
      cases TaskPool.step_cases taken with
      | push task running free => cases joined
      | notifyOne woken owes => cases joined
      | joinProducer running => exact List.isEmpty_iff.mp ready
      | _ => exact recording.settled joined }

theorem Recording.step {next : EventLog n} {event : Event n} (recording : log.Recording)
    (taken : log.step event = some next) : next.Recording := by
  cases step_cases taken with
  | recv call logic running settled received => exact recording.recv running settled received
  | pushTask memory TimeStampSec task rest pool front pushed =>
      exact recording.pushTask front pushed
  | threadStart answers unstarted =>
      exact ⟨recording.pool, recording.logic, recording.logged, recording.pushed,
        recording.sized, recording.tried, recording.rows, recording.settled⟩
  | handleTask answers task status => exact recording.handleTask status answers
  | pool event pool ready moved => exact recording.pooled ready moved

end Steps

/-! ## What the tables record -/

/-- What a call of `ProcessRecvPacket` logs is pushed once and in order, as a structure of its
`DataSize`, the rows are those of the pushed events whose insertion succeeded, and when
`MySQLManager::End` has returned no event is left untried. -/
structure Records (log : EventLog n) : Prop where
  logged : log.entries.map LogEntry.task ++ log.unpushed = log.logic.mysqlTasks
  sized : ∀ task ∈ log.pool.pushed, task.pData.length = task.DataSize
  rows : log.rows = (succeeded log.entries log.outcomes).map LogEntry.row
  tried : log.outcomes.length ≤ log.entries.length
  drained : log.pool.ending = .joined →
    log.unpushed = [] ∧ log.outcomes.length = log.entries.length

theorem Recording.records {log : EventLog n} (recording : log.Recording) : log.Records where
  logged := recording.logged
  sized := recording.sized
  rows := recording.rows
  tried := recording.tried_le
  drained joined := by
    have producer := recording.pool.closed (joined ▸ nofun)
    have exited := recording.pool.left joined
    have order := recording.finished_append
    rw [TaskPool.hands_of_exited exited, recording.pool.queue_of_exited Nat.one_pos exited,
      List.map_nil, List.append_nil, List.append_nil] at order
    have total := congrArg List.length order
    rw [List.length_map, recording.length_pushed, ← recording.tried] at total
    exact ⟨recording.settled producer, total⟩

/-- The call of `ProcessRecvPacket`. -/
def Event.recv? : Event n → Option (RecvCall n)
  | .recv call => some call
  | _ => none

/-- The time which the event stamps. -/
def Event.timeStamp? : Event n → Option UInt64
  | .pushTask _ TimeStampSec => some TimeStampSec
  | _ => none

theorem recv_step {log next : EventLog n} {event : Event n} (taken : log.step event = some next) :
    Execution.run? PacketManager.recv log.logic event.recv?.toList = some next.logic := by
  cases step_cases taken with
  | recv call logic running settled received =>
      exact (congrArg (Option.bind · some) received).trans rfl
  | _ => rfl

theorem timeStamps_step {log next : EventLog n} {event : Event n}
    (taken : log.step event = some next) :
    next.entries.map LogEntry.TimeStampSec =
      log.entries.map LogEntry.TimeStampSec ++ event.timeStamp?.toList := by
  cases step_cases taken with
  | pushTask memory TimeStampSec task rest pool front pushed => exact List.map_append
  | _ => exact (List.append_nil _).symm

/-- The calls of `ProcessRecvPacket` make a run of the logic layer. -/
theorem run_logic {memory : Fin n → Bytes} {events : List (Event n)} {last : EventLog n}
    (completed : Execution.run? step (start memory) events = some last) :
    Execution.run? PacketManager.recv (PacketManager.init memory)
      (events.filterMap Event.recv?) = some last.logic :=
  Execution.run?_component (fun _ _ _ taken => recv_step taken) completed

/-- A call which logs one event, and its push. -/
def logs (call : RecvCall n) (TimeStampSec : UInt64) : List (Event n) :=
  [.recv call, .pushTask {} TimeStampSec, .pool (.notifyOne none)]

/-- The worker locks, tests and takes the front or leaves. -/
def consumeOnce : List (Event n) := List.replicate 3 (.pool (.consume 0))

/-- The worker takes a task and is done with it. -/
def inserts (answers : MySQLAnswers) : List (Event n) := consumeOnce ++ [.handleTask answers]

/-- `PacketManager::End` once the logic thread is done. -/
def shutdown : List (Event n) :=
  [.pool .joinProducer, .pool .stop, .pool .notifyAll] ++ consumeOnce ++ [.pool .joinWorkers]

/-- Somebody logs in, which is recorded, enters a room, which is not, and says something, which
is recorded after the end has begun. -/
def lostRow : List (Event 1) :=
  [.threadStart {}] ++ logs (PacketManager.loginAccepted 0 (text ['a'])) 1 ++ inserts {} ++
    logs (.roomEnterRequest 0) 2 ++ logs (.roomChatRequest 0 (text ['h', 'i'])) 3 ++
    inserts { execute := false } ++
    [.pool .joinProducer, .pool .stop, .pool .notifyAll] ++ inserts {} ++ consumeOnce ++
    [.pool .joinWorkers]

/-- Every call of the MySQL client succeeds. -/
def Event.Succeeds : Event n → Prop
  | .threadStart answers => answers = {}
  | .handleTask answers => answers = {}
  | _ => True

instance (event : Event n) : Decidable event.Succeeds :=
  match event with
  | .recv _ => isTrue trivial
  | .pushTask _ _ => isTrue trivial
  | .threadStart answers => inferInstanceAs (Decidable (answers = {}))
  | .handleTask answers => inferInstanceAs (Decidable (answers = {}))
  | .pool _ => isTrue trivial

theorem ensureConnection_succeeds (worker : MySQLWorker n) :
    (worker.ensureConnection {}).1 = true := by
  unfold MySQLWorker.ensureConnection
  split <;> rfl

theorem process_succeeds {task : MySQLTaskData n} {row : EventRow} (worker : MySQLWorker n)
    (inserts : task.insertedRow = some row) : (task.process worker {}).1 = some row := by
  rw [MySQLTaskData.process, if_neg (MySQLTaskData.ne_invalid inserts)]
  dsimp only
  rw [if_pos (ensureConnection_succeeds worker)]
  exact inserts

/-- Every attempt so far has succeeded. -/
structure Flawless (log : EventLog n) : Prop where
  recording : log.Recording
  outcomes : ∀ outcome ∈ log.outcomes, outcome = true

theorem flawless_start (memory : Fin n → Bytes) : (start memory).Flawless where
  recording := recording_start memory
  outcomes _ member := absurd member List.not_mem_nil

theorem Flawless.step {log next : EventLog n} {event : Event n} (flawless : log.Flawless)
    (succeeds : event.Succeeds) (taken : log.step event = some next) : next.Flawless := by
  refine ⟨flawless.recording.step taken, ?_⟩
  cases step_cases taken with
  | handleTask answers task status =>
      obtain ⟨done, entry, rest, split, tried, inserts⟩ :=
        flawless.recording.entry_of_working status
      obtain rfl : answers = {} := succeeds
      intro outcome member
      rcases List.mem_append.mp member with earlier | last
      · exact flawless.outcomes outcome earlier
      · rw [List.mem_singleton.mp last, process_succeeds _ inserts]
        rfl
  | _ => exact flawless.outcomes

/-- When the server has ended, the rows are the events which were logged, each once and in
their order. -/
theorem rows_of_joined {memory : Fin n → Bytes} {events : List (Event n)} {last : EventLog n}
    (succeeds : ∀ event ∈ events, event.Succeeds)
    (completed : Execution.run? step (start memory) events = some last)
    (joined : last.pool.ending = .joined) :
    last.entries.map LogEntry.task = last.logic.mysqlTasks ∧
      last.rows = last.entries.map LogEntry.row := by
  have always := Execution.always_of_throughout
    (fun log event next flawless condition taken => Flawless.step flawless condition taken)
    (flawless_start memory) (Execution.throughout_of_forall succeeds (start memory))
  obtain ⟨recording, all⟩ := always.last completed
  obtain ⟨settled, tried⟩ := recording.records.drained joined
  have logged := recording.logged
  rw [settled, List.append_nil] at logged
  exact ⟨logged, by rw [recording.rows, succeeded_of_forall all tried]⟩

end EventLog

/-! ## The tables and the members of a room -/

/-- The notification which a row stands for. -/
def EventRow.notice? (room : Int) : EventRow → Option ServerPacket
  | .loginEvent _ _ => none
  | .roomEvent userID roomNumber event _ =>
      if roomNumber = room then
        some (.roomChatNotify userID
          (if event = 1 then PacketManager.enteredText else PacketManager.leftText))
      else none
  | .chatMessage userID roomNumber msg _ =>
      if roomNumber = room then some (.roomChatNotify userID msg) else none

/-- A row says what its event said. -/
theorem LogEntry.notice?_row (room : Int) (entry : LogEntry n) :
    entry.row.notice? room = ChatService.notice? room entry.task := by
  obtain ⟨task, TimeStampSec⟩ := entry
  cases task with
  | insertLoginEvent UserIndex UserID => rfl
  | insertRoomEvent UserIndex UserID RoomNumber EventType => cases EventType <;> rfl
  | insertChatMessage UserIndex UserID RoomNumber Message => rfl

theorem transcript_eq_rows (room : Int) (entries : List (LogEntry n)) :
    ChatService.transcript room (entries.map LogEntry.task) =
      (entries.map LogEntry.row).filterMap (EventRow.notice? room) := by
  rw [ChatService.transcript, List.filterMap_map, List.filterMap_map]
  exact congrArg (List.filterMap · entries)
    (funext fun entry => (entry.notice?_row room).symm)

namespace EventLog

/--
The server has ended after orderly calls and its database has worked.  Whoever was in a room
over the last of these calls was told, once and in the same order, what the rows which these
calls have left in the tables say about the room.
-/
theorem notices_eq_rows (memory : Fin n → Bytes) {calls during : List (RecvCall n)}
    (orderly : Simulation.Admissible PacketManager.serveCall PacketManager.OrderlyCall {}
      (calls ++ during))
    {events : List (Event n)} (received : events.filterMap Event.recv? = calls ++ during)
    (succeeds : ∀ event ∈ events, event.Succeeds) {last : EventLog n}
    (completed : Execution.run? step (start memory) events = some last)
    (joined : last.pool.ending = .joined) :
    ∃ before, Execution.run? PacketManager.recv (PacketManager.init memory) calls = some before ∧
      ∀ client room, before.StaysIn during client room →
        ∃ packets, PacketManager.packetsTo client last.logic.sentPackets =
            PacketManager.packetsTo client before.sentPackets ++ packets ∧
          ChatService.notices packets =
            (last.rows.drop before.mysqlTasks.length).filterMap (EventRow.notice? room) := by
  obtain ⟨before, served, intact, after⟩ := PacketManager.intact_of_orderly memory orderly
  obtain ⟨logic, tasks, later, logged, told⟩ :=
    PacketManager.notices_eq_of_intact intact after
  have ran := run_logic completed
  rw [received, Execution.run?_append, served, Option.bind_some, later] at ran
  obtain rfl := Option.some.inj ran
  obtain ⟨entries, rows⟩ := rows_of_joined succeeds completed joined
  refine ⟨before, served, fun client room stays => ?_⟩
  obtain ⟨packets, sent, same⟩ := told client room stays
  refine ⟨packets, sent, same.trans ?_⟩
  have behind : (last.entries.drop before.mysqlTasks.length).map LogEntry.task = tasks := by
    rw [List.map_drop, entries, logged, List.drop_left]
  rw [rows, ← List.map_drop, ← transcript_eq_rows, behind]

/-- Somebody enters the room of client 0, says something and leaves, and the server ends. -/
def loggedVisit : List (Event 2) :=
  [.threadStart {}] ++ logs (PacketManager.loginAccepted 0 (text ['a'])) 1 ++
    logs (PacketManager.loginAccepted 1 (text ['b'])) 2 ++ logs (.roomEnterRequest 0) 3 ++
    logs (.roomEnterRequest 1) 4 ++ logs (.roomChatRequest 1 (text ['h', 'i'])) 5 ++
    logs (.roomLeaveRequest 1) 6 ++ (List.replicate 6 (inserts {})).flatten ++ shutdown

theorem notices_eq_rows_loggedVisit :
    ∃ last before packets,
      Execution.run? step (start fun _ => []) loggedVisit = some last ∧
      last.rows.drop 3 =
        [.roomEvent (text ['b']) 0 1 4, .chatMessage (text ['b']) 0 (text ['h', 'i']) 5,
          .roomEvent (text ['b']) 0 2 6] ∧
      Execution.run? PacketManager.recv (PacketManager.init fun _ => [])
        PacketManager.beforeVisit = some before ∧
      before.StaysIn PacketManager.visit 0 0 ∧
      PacketManager.packetsTo 0 last.logic.sentPackets =
        PacketManager.packetsTo 0 before.sentPackets ++ packets ∧
      ChatService.notices packets =
        (last.rows.drop before.mysqlTasks.length).filterMap (EventRow.notice? 0) := by
  have ran : (Execution.run? step (start fun _ => []) loggedVisit).map
      (fun log => (log.rows.drop 3, log.pool.ending)) =
        some ([.roomEvent (text ['b']) 0 1 4, .chatMessage (text ['b']) 0 (text ['h', 'i']) 5,
          .roomEvent (text ['b']) 0 2 6], .joined) := by
    decide +kernel
  obtain ⟨last, completed, seen⟩ := Option.map_eq_some_iff.mp ran
  obtain ⟨rows, joined⟩ := Prod.mk.injEq .. ▸ seen
  have there : (Execution.run? PacketManager.recv (PacketManager.init fun _ => [])
      PacketManager.beforeVisit).map
        (fun start => decide (start.StaysIn PacketManager.visit 0 0)) = some true := by
    decide +kernel
  have succeeds : ∀ event ∈ loggedVisit, event.Succeeds := by
    decide +kernel
  obtain ⟨before, served, told⟩ := @notices_eq_rows _ (fun _ => []) PacketManager.beforeVisit
    PacketManager.visit (by decide +kernel) loggedVisit rfl succeeds last completed joined
  rw [served, Option.map_some, Option.some.injEq, decide_eq_true_iff] at there
  obtain ⟨packets, sent, same⟩ := told 0 0 there
  exact ⟨last, before, packets, completed, rows, served, there, sent, same⟩

end EventLog

end IOCPChatServer

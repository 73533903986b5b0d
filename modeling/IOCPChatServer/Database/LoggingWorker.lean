import IOCPChatServer.Database.EventLog
import IOCPChatServer.Library.Simulation

/-!
# The worker of the log and its connection

The log processes the bytes of its tasks and keeps the rows; `MySQLWorker` processes tasks and
keeps the connections and statements which its handlers use.  Both are the one worker of
`MySQLManager`: every run of the log is a run of `MySQLWorker` with the same answers of the
MySQL client, which inserts the tasks of the rows.
-/

namespace IOCPChatServer

variable {n : Nat}

namespace MySQLWorker

/-- The worker without what its handlers have done. -/
def forget (worker : MySQLWorker n) : MySQLWorker n :=
  { worker with
    used := []
    inserted := [] }

theorem initandConnect_forget (worker : MySQLWorker n) (answers : MySQLAnswers) :
    worker.forget.initandConnect answers =
      ((worker.initandConnect answers).1, (worker.initandConnect answers).2.forget) := by
  unfold initandConnect
  cases answers.mysqlInit with
  | false => rfl
  | true =>
      cases answers.mysqlRealConnect with
      | false => rfl
      | true => rfl

theorem prepareStatements_forget (worker : MySQLWorker n) (answers : MySQLAnswers) :
    worker.forget.prepareStatements answers =
      ((worker.prepareStatements answers).1, (worker.prepareStatements answers).2.forget) := by
  have same (answer : Bool) : worker.forget.stmtInit answer = worker.stmtInit answer := rfl
  unfold prepareStatements
  simp only [same]
  split_ifs <;> rfl

theorem ensureConnection_forget (worker : MySQLWorker n) (answers : MySQLAnswers) :
    worker.forget.ensureConnection answers =
      ((worker.ensureConnection answers).1, (worker.ensureConnection answers).2.forget) := by
  unfold ensureConnection
  have same : worker.forget.cleanupStatements.closeConnection =
      worker.cleanupStatements.closeConnection.forget := rfl
  have connection : worker.forget.myConn = worker.myConn := rfl
  rw [same, connection, initandConnect_forget]
  dsimp only
  split
  · rfl
  · split
    · exact prepareStatements_forget _ answers
    · rfl

theorem threadStart_forget (worker : MySQLWorker n) (answers : MySQLAnswers) :
    worker.forget.threadStart answers = (worker.threadStart answers).forget := by
  have same : ({ worker.forget with started := true } : MySQLWorker n) =
      ({ worker with started := true } : MySQLWorker n).forget := rfl
  rw [threadStart, same, initandConnect_forget, prepareStatements_forget, threadStart]

/-- A setup inserts nothing. -/
theorem inserted_ensureConnection (worker : MySQLWorker n) (answers : MySQLAnswers) :
    (worker.ensureConnection answers).2.inserted = worker.inserted := by
  by_cases alive : (worker.myConn.connection.isSome && answers.mysqlPing) = true
  · rw [ensureConnection_alive alive]
  · obtain ⟨_, _, _, errors, setup, _⟩ := ensureConnection_reconnects alive
    exact setup.inserted

theorem inserted_threadStart (worker : MySQLWorker n) (answers : MySQLAnswers) :
    (worker.threadStart answers).inserted = worker.inserted := by
  obtain ⟨errors, setup, _⟩ := initandConnect_setup { worker with started := true } answers
  exact (prepareStatements_setup _ answers).inserted.trans setup.inserted

/-- The answers which the event brings. -/
def Event.answers : Event n → MySQLAnswers
  | .threadStart answers => answers
  | .processTask _ answers => answers

end MySQLWorker

namespace EventLog

/-- The answers which the event brings to the worker. -/
def Event.answers? : Event n → Option MySQLAnswers
  | .threadStart answers => some answers
  | .handleTask answers => some answers
  | _ => none

/-- The bytes of an entry are processed as its task is. -/
theorem process_forget {task : MySQLTaskData n} {entry : LogEntry n}
    (inserts : task.insertedRow = some entry.row) (worker : MySQLWorker n)
    (answers : MySQLAnswers) :
    (task.process worker.forget answers).2 =
        (worker.processTask (some entry.task) answers).forget ∧
      (worker.processTask (some entry.task) answers).inserted =
        worker.inserted ++
          if (task.process worker.forget answers).1.isSome then [entry.task] else [] := by
  have valid := MySQLTaskData.ne_invalid inserts
  have kept := worker.inserted_ensureConnection answers
  rw [MySQLTaskData.process, if_neg valid, MySQLWorker.ensureConnection_forget,
    MySQLWorker.processTask_some, inserts]
  dsimp only
  cases ensured : (worker.ensureConnection answers).1 with
  | false =>
      rw [if_neg Bool.false_ne_true, if_neg Bool.false_ne_true]
      exact ⟨rfl, kept.trans (List.append_nil _).symm⟩
  | true =>
      rw [if_pos rfl, if_pos rfl]
      refine ⟨rfl, ?_⟩
      rw [MySQLWorker.handleInsert, kept]
      cases answers.bindParam && answers.execute with
      | false => exact (List.append_nil _).symm
      | true => rfl

/-- The worker which keeps its connections and statements has done what the log has; it takes
no task before it has started. -/
structure WorkedBy (log : EventLog n) (worker : MySQLWorker n) : Prop where
  recording : log.Recording
  forgets : log.worker = worker.forget
  inserted : worker.inserted = (succeeded log.entries log.outcomes).map LogEntry.task
  idle : worker.started = false → log.pool.workers 0 = .consuming .running

theorem workedBy_start (memory : Fin n → Bytes) : (start memory).WorkedBy {} where
  recording := recording_start memory
  forgets := rfl
  inserted := rfl
  idle _ := rfl

/-- A step of the log at which the worker does nothing. -/
theorem WorkedBy.of_same {log next : EventLog n} {worker : MySQLWorker n}
    (worked : log.WorkedBy worker) (recording : next.Recording)
    (same : next.worker = log.worker)
    (rows : succeeded next.entries next.outcomes = succeeded log.entries log.outcomes)
    (idle : worker.started = false → next.pool.workers 0 = .consuming .running) :
    next.WorkedBy worker where
  recording := recording
  forgets := same.trans worked.forgets
  inserted := by rw [rows, worked.inserted]
  idle := idle

/-- A step of the pool leaves a worker which has not started where it is. -/
theorem WorkedBy.idle_step {log : EventLog n} {worker : MySQLWorker n}
    (worked : log.WorkedBy worker) {event : TaskPool.Event 1 (MySQLTaskData n)}
    {pool : TaskPool 1 (MySQLTaskData n)} (taken : log.pool.step true event = some pool)
    (other : worker.started = false → event ≠ .consume 0) :
    worker.started = false → pool.workers 0 = .consuming .running := fun unstarted =>
  TaskPool.workers_step_of_running taken (worked.idle unstarted) (other unstarted)

theorem WorkedBy.started {log : EventLog n} {worker : MySQLWorker n}
    (worked : log.WorkedBy worker) : log.worker.started = worker.started := by
  rw [worked.forgets]
  rfl

theorem matches_worker :
    Simulation.Matches (@step n) MySQLWorker.step WorkedBy Event.answers?
      MySQLWorker.Event.answers := by
  intro log worker event next worked taken
  have recording := worked.recording.step taken
  cases step_cases taken with
  | recv call logic running settled received =>
      exact ⟨[], worker, rfl, rfl, worked.of_same recording rfl rfl worked.idle⟩
  | pushTask memory TimeStampSec task rest pool front pushed =>
      have rows := @succeeded_append_untried _ _ [⟨task, TimeStampSec⟩] _
        worked.recording.tried_le
      have idle := worked.idle_step pushed fun _ consumes => by cases consumes
      exact ⟨[], worker, rfl, rfl, worked.of_same recording rfl rows idle⟩
  | pool event pool ready moved =>
      have idle := worked.idle_step moved fun unstarted consumes => by
        subst consumes
        exact absurd (worked.started.symm.trans ready) (unstarted ▸ Bool.false_ne_true)
      exact ⟨[], worker, rfl, rfl, worked.of_same recording rfl rfl idle⟩
  | threadStart answers unstarted =>
      have notStarted : worker.started = false := worked.started.symm.trans unstarted
      refine ⟨[.threadStart answers], worker.threadStart answers, ?_, rfl, recording, ?_, ?_, ?_⟩
      · simp [Execution.run?, MySQLWorker.step, notStarted]
      · change log.worker.threadStart answers = _
        rw [worked.forgets, MySQLWorker.threadStart_forget]
      · exact (worker.inserted_threadStart answers).trans worked.inserted
      · exact fun _ => worked.idle notStarted
  | handleTask answers task status =>
      obtain ⟨done, entry, rest, split, tried, inserts⟩ :=
        worked.recording.entry_of_working status
      obtain ⟨forgets, inserted⟩ := process_forget inserts worker answers
      have started : worker.started = true := by
        refine Bool.not_eq_false _ ▸ fun unstarted => ?_
        cases status.symm.trans (worked.idle unstarted)
      refine ⟨[.processTask (some entry.task) answers],
        worker.processTask (some entry.task) answers, ?_, rfl, recording, ?_, ?_, ?_⟩
      · simp [Execution.run?, MySQLWorker.step, started]
      · change (task.process log.worker answers).2 = _
        rw [worked.forgets, forgets]
      · change _ = (succeeded log.entries (log.outcomes ++ [_])).map LogEntry.task
        rw [inserted, worked.inserted, worked.forgets, split, succeeded_attempt entry _ tried,
          List.map_append, apply_ite (List.map LogEntry.task), List.map_singleton, List.map_nil]
      · exact fun _ => TaskPool.setWorker_self log.pool 0 (.consuming .running)

end EventLog

end IOCPChatServer

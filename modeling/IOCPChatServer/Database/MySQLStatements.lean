import IOCPChatServer.Library.Execution
import IOCPChatServer.Packet

/-!
# The connection of a MySQL worker

`TaskProcessThread` of `MysqlManager.h` connects and prepares its three statements once
when it starts, and again whenever `EnsureConnection` finds no live connection.  Each call
of the MySQL client may fail; the calls made while one event is processed are answered by
the event, at most one call of each.  Host and account decide nothing here.

`mysqlErrors`, `used`, `inserted` and `prepared` are histories.
-/

namespace IOCPChatServer

/-- The answers of the MySQL client; `false` is a failure. -/
structure MySQLAnswers where
  mysqlPing : Bool := true
  mysqlInit : Bool := true
  mysqlRealConnect : Bool := true
  createLogin : Bool := true
  createRoom : Bool := true
  createChat : Bool := true
  initLogin : Bool := true
  initRoom : Bool := true
  initChat : Bool := true
  prepareLogin : Bool := true
  prepareRoom : Bool := true
  prepareChat : Bool := true
  bindParam : Bool := true
  execute : Bool := true
  deriving DecidableEq, Repr

/-- `MYSQL_STMT`: the `MYSQL*` which `mysql_stmt_init` was given, and whether
`mysql_stmt_prepare` succeeded. -/
structure MySQLStmt where
  connection : Option Nat
  prepared : Bool := false
  deriving DecidableEq, Repr

/-- `struct MySQLConnection`; a `MYSQL*` is the number of the `mysql_init` which returned it,
`none` is `nullptr`. -/
structure MySQLConnection where
  connection : Option Nat := none
  stmtLogin : Option MySQLStmt := none
  stmtRoom : Option MySQLStmt := none
  stmtChat : Option MySQLStmt := none
  deriving DecidableEq, Repr

/-- The three prepared statements. -/
inductive Statement where
  | login
  | room
  | chat
  deriving DecidableEq, Repr

def MySQLConnection.stmt (conn : MySQLConnection) : Statement → Option MySQLStmt
  | .login => conn.stmtLogin
  | .room => conn.stmtRoom
  | .chat => conn.stmtChat

@[simp] theorem MySQLConnection.stmt_login (conn : MySQLConnection) :
    conn.stmt .login = conn.stmtLogin := rfl

@[simp] theorem MySQLConnection.stmt_room (conn : MySQLConnection) :
    conn.stmt .room = conn.stmtRoom := rfl

@[simp] theorem MySQLConnection.stmt_chat (conn : MySQLConnection) :
    conn.stmt .chat = conn.stmtChat := rfl

/-- The statement which the handler of a task uses. -/
def MySQLTask.statement {n : Nat} : MySQLTask n → Statement
  | .insertLoginEvent .. => .login
  | .insertRoomEvent .. => .room
  | .insertChatMessage .. => .chat

/-- The connection and the statement which a handler used. -/
structure StatementUse where
  connection : Option Nat
  stmt : Option MySQLStmt
  deriving DecidableEq, Repr

/-- The connection is there, and the statement belongs to it and is prepared. -/
def StatementUse.Sound (use : StatementUse) : Prop :=
  ∃ handle, use.connection = some handle ∧ use.stmt = some ⟨some handle, true⟩

namespace MySQLAnswers

def creates (answers : MySQLAnswers) : Bool :=
  answers.createLogin && answers.createRoom && answers.createChat

def inits (answers : MySQLAnswers) : Statement → Bool
  | .login => answers.initLogin
  | .room => answers.initRoom
  | .chat => answers.initChat

def initialises (answers : MySQLAnswers) : Bool :=
  answers.inits .login && answers.inits .room && answers.inits .chat

/-- `PrepareStatements` gets as far as the statement. -/
def prepares (answers : MySQLAnswers) : Statement → Bool
  | .login => answers.creates && answers.initialises && answers.prepareLogin
  | .room => answers.creates && answers.initialises && answers.prepareLogin && answers.prepareRoom
  | .chat => answers.creates && answers.initialises && answers.prepareLogin &&
      answers.prepareRoom && answers.prepareChat

theorem inits_of_prepares {answers : MySQLAnswers} {statement : Statement}
    (prepares : answers.prepares statement = true) : answers.inits statement = true := by
  cases statement <;> simp_all [MySQLAnswers.prepares, initialises]

theorem prepares_of_chat {answers : MySQLAnswers} {statement : Statement}
    (prepares : answers.prepares .chat = true) : answers.prepares statement = true := by
  cases statement <;> simp_all [MySQLAnswers.prepares]

end MySQLAnswers

/-- A worker thread.  `prepared` tells how far the calls of the last setup came,
`InitandConnect` being the beginning of a setup. -/
structure MySQLWorker (n : Nat) where
  started : Bool := false
  myConn : MySQLConnection := {}
  nextHandle : Nat := 0
  mysqlErrors : List (Option Nat) := []
  used : List StatementUse := []
  inserted : List (MySQLTask n) := []
  prepared : Statement → Bool := fun _ => false

namespace MySQLWorker

variable {n : Nat}

/-- `mysql_error(conn.connection)`. -/
def mysqlError (worker : MySQLWorker n) : MySQLWorker n :=
  { worker with mysqlErrors := worker.mysqlErrors ++ [worker.myConn.connection] }

def initandConnect (worker : MySQLWorker n) (answers : MySQLAnswers) : Bool × MySQLWorker n :=
  let begun := { worker with prepared := fun _ => false }
  if answers.mysqlInit then
    let initialised := { begun with
      myConn := { worker.myConn with connection := some worker.nextHandle }
      nextHandle := worker.nextHandle + 1 }
    if answers.mysqlRealConnect then (true, initialised) else (false, initialised.mysqlError)
  else (false, { begun with myConn := { worker.myConn with connection := none } })

def closeConnection (worker : MySQLWorker n) : MySQLWorker n :=
  { worker with myConn := { worker.myConn with connection := none } }

def cleanupStatements (worker : MySQLWorker n) : MySQLWorker n :=
  { worker with
    myConn := { worker.myConn with stmtLogin := none, stmtRoom := none, stmtChat := none } }

/-- `mysql_stmt_init` on the connection of the worker. -/
def stmtInit (worker : MySQLWorker n) (answer : Bool) : Option MySQLStmt :=
  if answer then some { connection := worker.myConn.connection } else none

theorem stmtInit_isNone (worker : MySQLWorker n) (answer : Bool) :
    (worker.stmtInit answer).isNone = !answer := by
  cases answer <;> rfl

/-- `mysql_stmt_prepare` succeeds. -/
def setPrepared (worker : MySQLWorker n) : Statement → MySQLWorker n
  | .login => { worker with
      myConn := { worker.myConn with
        stmtLogin := worker.myConn.stmtLogin.map ({ · with prepared := true }) } }
  | .room => { worker with
      myConn := { worker.myConn with
        stmtRoom := worker.myConn.stmtRoom.map ({ · with prepared := true }) } }
  | .chat => { worker with
      myConn := { worker.myConn with
        stmtChat := worker.myConn.stmtChat.map ({ · with prepared := true }) } }

def prepareStatements (worker : MySQLWorker n) (answers : MySQLAnswers) :
    Bool × MySQLWorker n :=
  let begun := { worker with prepared := answers.prepares }
  if !answers.createLogin then (false, begun.mysqlError)
  else if !answers.createRoom then (false, begun.mysqlError)
  else if !answers.createChat then (false, begun.mysqlError)
  else
    let initialised := { begun with
      myConn := { worker.myConn with
        stmtLogin := worker.stmtInit answers.initLogin
        stmtRoom := worker.stmtInit answers.initRoom
        stmtChat := worker.stmtInit answers.initChat } }
    if initialised.myConn.stmtLogin.isNone || initialised.myConn.stmtRoom.isNone ||
        initialised.myConn.stmtChat.isNone then (false, initialised)
    else if !answers.prepareLogin then (false, initialised)
    else
      let login := initialised.setPrepared .login
      if !answers.prepareRoom then (false, login)
      else
        let room := login.setPrepared .room
        if !answers.prepareChat then (false, room) else (true, room.setPrepared .chat)

def ensureConnection (worker : MySQLWorker n) (answers : MySQLAnswers) :
    Bool × MySQLWorker n :=
  if worker.myConn.connection.isSome && answers.mysqlPing then (true, worker)
  else
    let connected := worker.cleanupStatements.closeConnection.initandConnect answers
    if connected.1 then connected.2.prepareStatements answers else (false, connected.2)

/-- `HandleInsertLogin`, `HandleInsertRoom` and `HandleInsertChat` by their statement. -/
def handleInsert (worker : MySQLWorker n) (statement : Statement) (answers : MySQLAnswers)
    (task : MySQLTask n) : MySQLWorker n :=
  { worker with
    used := worker.used ++ [⟨worker.myConn.connection, worker.myConn.stmt statement⟩]
    inserted :=
      if answers.bindParam && answers.execute then worker.inserted ++ [task]
      else worker.inserted }

def handleInsertLogin (worker : MySQLWorker n) : MySQLAnswers → MySQLTask n → MySQLWorker n :=
  worker.handleInsert .login

def handleInsertRoom (worker : MySQLWorker n) : MySQLAnswers → MySQLTask n → MySQLWorker n :=
  worker.handleInsert .room

def handleInsertChat (worker : MySQLWorker n) : MySQLAnswers → MySQLTask n → MySQLWorker n :=
  worker.handleInsert .chat

/-- What `TaskProcessThread` does with a task; `none` is one with `INVALID`. -/
def processTask (worker : MySQLWorker n) (task : Option (MySQLTask n))
    (answers : MySQLAnswers) : MySQLWorker n :=
  match task with
  | none => worker
  | some task =>
      let ensured := worker.ensureConnection answers
      if ensured.1 then
        match task with
        | .insertLoginEvent .. => ensured.2.handleInsertLogin answers task
        | .insertRoomEvent .. => ensured.2.handleInsertRoom answers task
        | .insertChatMessage .. => ensured.2.handleInsertChat answers task
      else ensured.2.mysqlError

/-- The beginning of `TaskProcessThread`: both results are ignored. -/
def threadStart (worker : MySQLWorker n) (answers : MySQLAnswers) : MySQLWorker n :=
  (({ worker with started := true }.initandConnect answers).2.prepareStatements answers).2

inductive Event (n : Nat) where
  | threadStart (answers : MySQLAnswers)
  | processTask (task : Option (MySQLTask n)) (answers : MySQLAnswers)
  deriving DecidableEq

/-- A worker starts once and then takes tasks. -/
def step (worker : MySQLWorker n) : Event n → Option (MySQLWorker n)
  | .threadStart answers => if worker.started then none else some (worker.threadStart answers)
  | .processTask task answers =>
      if worker.started then some (worker.processTask task answers) else none

theorem step_threadStart {worker next : MySQLWorker n} {answers : MySQLAnswers}
    (taken : worker.step (.threadStart answers) = some next) :
    worker.started = false ∧ next = worker.threadStart answers := by
  cases started : worker.started with
  | true => simp [step, started] at taken
  | false => exact ⟨rfl, by simpa [step, started] using taken.symm⟩

theorem step_processTask {worker next : MySQLWorker n} {task : Option (MySQLTask n)}
    {answers : MySQLAnswers} (taken : worker.step (.processTask task answers) = some next) :
    worker.started = true ∧ next = worker.processTask task answers := by
  cases started : worker.started with
  | true => exact ⟨rfl, by simpa [step, started] using taken.symm⟩
  | false => simp [step, started] at taken

/-! ## Setups -/

/-- A statement which a handler may use: not null, of the present connection and prepared. -/
def Ready (worker : MySQLWorker n) (statement : Statement) : Prop :=
  worker.myConn.stmt statement = some ⟨worker.myConn.connection, true⟩

instance (worker : MySQLWorker n) (statement : Statement) : Decidable (worker.Ready statement) :=
  inferInstanceAs (Decidable (_ = _))

/-- A setup only adds errors to the histories. -/
structure Setup (before after : MySQLWorker n) (errors : List (Option Nat)) : Prop where
  started : after.started = before.started
  used : after.used = before.used
  inserted : after.inserted = before.inserted
  mysqlErrors : after.mysqlErrors = before.mysqlErrors ++ errors

theorem Setup.trans {first second third : MySQLWorker n} {errors later : List (Option Nat)}
    (setup : Setup first second errors) (next : Setup second third later) :
    Setup first third (errors ++ later) where
  started := next.started.trans setup.started
  used := next.used.trans setup.used
  inserted := next.inserted.trans setup.inserted
  mysqlErrors := by rw [next.mysqlErrors, setup.mysqlErrors, List.append_assoc]

/-- The two cleanups change no history. -/
theorem Setup.of_cleaned {worker after : MySQLWorker n} {errors : List (Option Nat)}
    (setup : Setup worker.cleanupStatements.closeConnection after errors) :
    Setup worker after errors :=
  ⟨setup.started, setup.used, setup.inserted, setup.mysqlErrors⟩

theorem initandConnect_spec (worker : MySQLWorker n) (answers : MySQLAnswers) :
    let after := (worker.initandConnect answers).2
    (worker.initandConnect answers).1 = (answers.mysqlInit && answers.mysqlRealConnect) ∧
      (∀ statement, after.myConn.stmt statement = worker.myConn.stmt statement) ∧
      after.myConn.connection.isSome = answers.mysqlInit ∧
      (∀ statement, after.prepared statement = false) := by
  unfold initandConnect
  cases answers.mysqlInit with
  | true =>
      cases answers.mysqlRealConnect with
      | true => exact ⟨rfl, fun statement => by cases statement <;> rfl, rfl, fun _ => rfl⟩
      | false => exact ⟨rfl, fun statement => by cases statement <;> rfl, rfl, fun _ => rfl⟩
  | false => exact ⟨rfl, fun statement => by cases statement <;> rfl, rfl, fun _ => rfl⟩

theorem initandConnect_setup (worker : MySQLWorker n) (answers : MySQLAnswers) :
    ∃ errors, Setup worker (worker.initandConnect answers).2 errors ∧ none ∉ errors := by
  unfold initandConnect
  cases answers.mysqlInit with
  | true =>
      cases answers.mysqlRealConnect with
      | true => exact ⟨[], ⟨rfl, rfl, rfl, (List.append_nil _).symm⟩, List.not_mem_nil⟩
      | false => exact ⟨[some worker.nextHandle], ⟨rfl, rfl, rfl, rfl⟩, by simp⟩
  | false => exact ⟨[], ⟨rfl, rfl, rfl, (List.append_nil _).symm⟩, List.not_mem_nil⟩

/-- `PrepareStatements` asks for an error only when a table cannot be created. -/
theorem prepareStatements_setup (worker : MySQLWorker n) (answers : MySQLAnswers) :
    Setup worker (worker.prepareStatements answers).2
      (if answers.creates then [] else [worker.myConn.connection]) := by
  unfold prepareStatements MySQLAnswers.creates
  cases answers.createLogin with
  | false => exact ⟨rfl, rfl, rfl, rfl⟩
  | true =>
    cases answers.createRoom with
    | false => exact ⟨rfl, rfl, rfl, rfl⟩
    | true =>
      cases answers.createChat with
      | false => exact ⟨rfl, rfl, rfl, rfl⟩
      | true =>
        have same (worker' : MySQLWorker n) (started : worker'.started = worker.started)
            (used : worker'.used = worker.used)
            (inserted : worker'.inserted = worker.inserted)
            (errors : worker'.mysqlErrors = worker.mysqlErrors) : Setup worker worker' [] :=
          ⟨started, used, inserted, by rw [errors, List.append_nil]⟩
        simp only [Bool.not_true, Bool.false_eq_true, if_false, Bool.and_self, if_true]
        split_ifs <;> exact same _ rfl rfl rfl rfl

/-- Without its tables `PrepareStatements` leaves the statements alone. -/
theorem prepareStatements_of_not_creates (worker : MySQLWorker n) {answers : MySQLAnswers}
    (fails : answers.creates = false) :
    worker.prepareStatements answers =
      (false, { worker with prepared := answers.prepares }.mysqlError) := by
  unfold prepareStatements
  simp only [MySQLAnswers.creates, Bool.and_eq_false_iff] at fails
  cases login : answers.createLogin with
  | false => rfl
  | true =>
    cases room : answers.createRoom with
    | false => rfl
    | true =>
      have chat : answers.createChat = false := by simp_all
      rw [chat]
      rfl

/-- With its tables it initialises the three statements and prepares one after the other. -/
theorem prepareStatements_of_creates {worker : MySQLWorker n} {answers : MySQLAnswers}
    (creates : answers.creates = true) :
    let after := (worker.prepareStatements answers).2
    (worker.prepareStatements answers).1 = answers.prepares .chat ∧
      after.myConn.connection = worker.myConn.connection ∧
      after.prepared = answers.prepares ∧
      ∀ statement, after.myConn.stmt statement =
        if answers.inits statement then
          some ⟨worker.myConn.connection, answers.prepares statement⟩
        else none := by
  obtain ⟨⟨login, room⟩, chat⟩ :
      (answers.createLogin = true ∧ answers.createRoom = true) ∧ answers.createChat = true := by
    simpa only [MySQLAnswers.creates, Bool.and_eq_true] using creates
  unfold prepareStatements
  simp only [login, room, chat, stmtInit_isNone, Bool.not_true, Bool.false_eq_true, if_false]
  by_cases initialises : answers.initialises = true
  · obtain ⟨⟨initLogin, initRoom⟩, initChat⟩ :
        (answers.initLogin = true ∧ answers.initRoom = true) ∧ answers.initChat = true := by
      simpa only [MySQLAnswers.initialises, MySQLAnswers.inits, Bool.and_eq_true] using initialises
    simp only [stmtInit, initLogin, initRoom, initChat, if_true, Bool.not_true, Bool.or_self,
      Bool.false_eq_true, if_false]
    -- the statements are prepared in this order: a failure leaves the later ones unprepared
    cases prepareLogin : answers.prepareLogin with
    | false =>
      refine ⟨by simp [MySQLAnswers.prepares, prepareLogin], rfl, rfl, fun statement => ?_⟩
      cases statement <;> simp_all [MySQLAnswers.inits, MySQLAnswers.prepares]
    | true =>
      cases prepareRoom : answers.prepareRoom with
      | false =>
        refine ⟨by simp [MySQLAnswers.prepares, prepareRoom], rfl, rfl, fun statement => ?_⟩
        cases statement <;> simp_all [MySQLAnswers.inits, MySQLAnswers.prepares, setPrepared]
      | true =>
        cases prepareChat : answers.prepareChat with
        | false =>
          refine ⟨by simp [MySQLAnswers.prepares, prepareChat], rfl, rfl, fun statement => ?_⟩
          cases statement <;> simp_all [MySQLAnswers.inits, MySQLAnswers.prepares, setPrepared]
        | true =>
          refine ⟨by simp_all [MySQLAnswers.prepares], rfl, rfl, fun statement => ?_⟩
          cases statement <;> simp_all [MySQLAnswers.inits, MySQLAnswers.prepares, setPrepared]
  · have missing : (!answers.initLogin || !answers.initRoom || !answers.initChat) = true := by
      simpa [MySQLAnswers.initialises, MySQLAnswers.inits, or_assoc, imp_iff_not_or]
        using initialises
    rw [if_pos missing]
    have unprepared (statement : Statement) : answers.prepares statement = false := by
      cases statement <;> simp [MySQLAnswers.prepares, initialises]
    refine ⟨(unprepared .chat).symm, rfl, rfl, fun statement => ?_⟩
    rw [unprepared statement]
    cases statement <;> rfl

/-- `PrepareStatements` makes the statements ready as far as it gets. -/
theorem prepareStatements_spec {worker : MySQLWorker n} (answers : MySQLAnswers)
    (clean : ∀ statement, worker.myConn.stmt statement = none) :
    let after := (worker.prepareStatements answers).2
    (worker.prepareStatements answers).1 = answers.prepares .chat ∧
      after.myConn.connection = worker.myConn.connection ∧
      after.prepared = answers.prepares ∧
      ∀ statement, after.Ready statement ↔ answers.prepares statement = true := by
  cases creates : answers.creates with
  | false =>
      have none (statement : Statement) : answers.prepares statement = false := by
        cases statement <;> simp [MySQLAnswers.prepares, creates]
      rw [prepareStatements_of_not_creates worker creates]
      refine ⟨(none .chat).symm, rfl, rfl, fun statement => ?_⟩
      have null : worker.myConn.stmt statement = .none := clean statement
      simp [Ready, mysqlError, null, none statement]
  | true =>
      obtain ⟨result, connection, prepared, stmts⟩ := prepareStatements_of_creates creates
      refine ⟨result, connection, prepared, fun statement => ?_⟩
      rw [Ready, stmts statement, connection]
      cases inits : answers.inits statement with
      | false =>
        have unprepared := mt MySQLAnswers.inits_of_prepares (Bool.eq_false_iff.mp inits)
        simp [unprepared]
      | true => simp

theorem ensureConnection_alive {worker : MySQLWorker n} {answers : MySQLAnswers}
    (alive : (worker.myConn.connection.isSome && answers.mysqlPing) = true) :
    worker.ensureConnection answers = (true, worker) :=
  if_pos alive

/-- A reconnection which succeeds leaves every statement ready, and one which fails asks for
no error without a connection. -/
theorem ensureConnection_reconnects {worker : MySQLWorker n} {answers : MySQLAnswers}
    (dead : ¬(worker.myConn.connection.isSome && answers.mysqlPing) = true) :
    let after := (worker.ensureConnection answers).2
    after.myConn.connection.isSome = answers.mysqlInit ∧
      (∀ statement, after.Ready statement ↔ after.prepared statement = true) ∧
      ((worker.ensureConnection answers).1 = true →
        answers.mysqlInit = true ∧ ∀ statement, after.Ready statement) ∧
      ∃ errors, Setup worker after errors ∧ none ∉ errors := by
  have clean (statement : Statement) :
      worker.cleanupStatements.closeConnection.myConn.stmt statement = none := by
    cases statement <;> rfl
  obtain ⟨result, stmts, connection, unprepared⟩ :=
    initandConnect_spec worker.cleanupStatements.closeConnection answers
  obtain ⟨errors, setup, named⟩ :=
    initandConnect_setup worker.cleanupStatements.closeConnection answers
  rw [ensureConnection, if_neg dead]
  dsimp only
  generalize worker.cleanupStatements.closeConnection.initandConnect answers = connected at *
  cases connects : connected.1 with
  | false =>
      rw [if_neg Bool.false_ne_true]
      refine ⟨connection, fun statement => ?_, fun refused => (Bool.false_ne_true refused).elim,
        errors, setup.of_cleaned, named⟩
      rw [Ready, stmts statement, clean statement, unprepared statement]
      simp
  | true =>
      obtain ⟨init, _⟩ : answers.mysqlInit = true ∧ answers.mysqlRealConnect = true := by
        simpa [connects] using result
      obtain ⟨prepares, same, prepared, ready⟩ :=
        prepareStatements_spec answers (fun statement => (stmts statement).trans (clean statement))
      have later := prepareStatements_setup connected.2 answers
      rw [if_pos rfl]
      refine ⟨by rw [same, connection], fun statement => ?_, fun succeeds => ⟨init, ?_⟩, _,
        (setup.trans later).of_cleaned, ?_⟩
      · rw [ready statement, prepared]
      · intro statement
        exact (ready statement).mpr (MySQLAnswers.prepares_of_chat (prepares ▸ succeeds))
      · rw [init, Option.isSome_iff_exists] at connection
        obtain ⟨handle, present⟩ := connection
        rw [List.mem_append, not_or, present]
        exact ⟨named, by split <;> simp⟩

/-! ## Runs -/

/-- Every handler had what it needs, and every error was asked of a connection. -/
def StatementsReady (worker : MySQLWorker n) : Prop :=
  (∀ use ∈ worker.used, use.Sound) ∧ none ∉ worker.mysqlErrors

/-- The condition on a step: the thread does not begin with a null connection and a table which
cannot be created, a task which finds its connection alive needs a statement which the last
setup prepared, and another task has `mysql_init` succeed. -/
def KeepsReady (worker : MySQLWorker n) : Event n → Prop
  | .threadStart answers => answers.mysqlInit = true ∨ answers.creates = true
  | .processTask none _ => True
  | .processTask (some task) answers =>
      if worker.myConn.connection.isSome && answers.mysqlPing then
        worker.prepared task.statement = true
      else answers.mysqlInit = true

/-- The last setup prepared the statements which are ready. -/
structure Coherent (worker : MySQLWorker n) : Prop where
  unstarted : worker.started = false → ∀ statement, worker.myConn.stmt statement = none
  ready : worker.myConn.connection.isSome = true →
    ∀ statement, worker.Ready statement ↔ worker.prepared statement = true

theorem processTask_some (worker : MySQLWorker n) (task : MySQLTask n)
    (answers : MySQLAnswers) :
    worker.processTask (some task) answers =
      if (worker.ensureConnection answers).1 then
        (worker.ensureConnection answers).2.handleInsert task.statement answers task
      else (worker.ensureConnection answers).2.mysqlError := by
  cases task <;> rfl

theorem Setup.statementsReady_iff {before after : MySQLWorker n} {errors : List (Option Nat)}
    (setup : Setup before after errors) (good : before.StatementsReady) :
    after.StatementsReady ↔ none ∉ errors := by
  rw [StatementsReady, setup.used, setup.mysqlErrors, List.mem_append, not_or]
  exact ⟨fun ready => ready.2.2, fun named => ⟨good.1, good.2, named⟩⟩

theorem StatementsReady.mysqlError_iff {worker : MySQLWorker n} (good : worker.StatementsReady) :
    worker.mysqlError.StatementsReady ↔ worker.myConn.connection.isSome = true := by
  have setup : Setup worker worker.mysqlError [worker.myConn.connection] := ⟨rfl, rfl, rfl, rfl⟩
  rw [setup.statementsReady_iff good]
  cases worker.myConn.connection <;> simp

theorem StatementsReady.handleInsert_iff {worker : MySQLWorker n}
    (good : worker.StatementsReady) (connected : worker.myConn.connection.isSome = true)
    (statement : Statement) (answers : MySQLAnswers) (task : MySQLTask n) :
    (worker.handleInsert statement answers task).StatementsReady ↔ worker.Ready statement := by
  obtain ⟨handle, present⟩ := Option.isSome_iff_exists.mp connected
  have sound : StatementUse.Sound ⟨worker.myConn.connection, worker.myConn.stmt statement⟩ ↔
      worker.Ready statement := by
    simp [StatementUse.Sound, Ready, present]
  constructor
  · intro ready
    exact sound.mp (ready.1 _ (List.mem_append_right _ List.mem_cons_self))
  · refine fun ready => ⟨fun use member => ?_, good.2⟩
    rcases List.mem_append.mp member with earlier | now
    · exact good.1 use earlier
    · rw [List.mem_singleton.mp now]
      exact sound.mpr ready

/-- The beginning of the thread, whose statements are still null. -/
theorem threadStart_spec {worker : MySQLWorker n} (answers : MySQLAnswers)
    (clean : ∀ statement, worker.myConn.stmt statement = none) :
    let after := worker.threadStart answers
    after.started = true ∧
      (∀ statement, after.Ready statement ↔ after.prepared statement = true) ∧
      (worker.StatementsReady → (after.StatementsReady ↔
        answers.mysqlInit = true ∨ answers.creates = true)) := by
  obtain ⟨_, stmts, connection, _⟩ :=
    initandConnect_spec { worker with started := true } answers
  obtain ⟨errors, setup, named⟩ := initandConnect_setup { worker with started := true } answers
  obtain ⟨_, same, prepared, ready⟩ :=
    prepareStatements_spec answers fun statement => (stmts statement).trans (clean statement)
  have all := setup.trans (prepareStatements_setup _ answers)
  refine ⟨all.started, fun statement => ?_, fun good => ?_⟩
  · rw [threadStart, ready statement, prepared]
  · have goodStarted : ({ worker with started := true } : MySQLWorker n).StatementsReady := good
    rw [threadStart, all.statementsReady_iff goodStarted, List.mem_append, not_or, ← connection]
    generalize ({ worker with started := true }.initandConnect answers).2.myConn.connection = handle
    cases answers.creates <;> cases handle <;> simp [named]

/-- A task which finds its connection dead has all it needs as soon as `mysql_init` succeeds. -/
theorem processTask_reconnects {worker : MySQLWorker n} {task : MySQLTask n}
    {answers : MySQLAnswers}
    (dead : ¬(worker.myConn.connection.isSome && answers.mysqlPing) = true) :
    let after := worker.processTask (some task) answers
    after.started = worker.started ∧
      (∀ statement, after.Ready statement ↔ after.prepared statement = true) ∧
      (worker.StatementsReady → (after.StatementsReady ↔ answers.mysqlInit = true)) := by
  obtain ⟨connection, ready, succeeds, errors, setup, named⟩ := ensureConnection_reconnects dead
  rw [processTask_some]
  have goodAfter (good : worker.StatementsReady) :=
    (setup.statementsReady_iff good).mpr named
  cases ensured : (worker.ensureConnection answers).1 with
  | true =>
      obtain ⟨init, all⟩ := succeeds ensured
      rw [if_pos rfl]
      refine ⟨setup.started, ready, fun good => ?_⟩
      rw [(goodAfter good).handleInsert_iff (connection.trans init)]
      exact ⟨fun _ => init, fun _ => all task.statement⟩
  | false =>
      rw [if_neg Bool.false_ne_true]
      refine ⟨setup.started, ready, fun good => ?_⟩
      rw [(goodAfter good).mysqlError_iff, connection]

theorem processTask_alive {worker : MySQLWorker n} {task : MySQLTask n}
    {answers : MySQLAnswers}
    (alive : (worker.myConn.connection.isSome && answers.mysqlPing) = true) :
    worker.processTask (some task) answers =
      worker.handleInsert task.statement answers task := by
  rw [processTask_some, ensureConnection_alive alive, if_pos rfl]

theorem coherent_of_started {worker : MySQLWorker n} (started : worker.started = true)
    (ready : ∀ statement, worker.Ready statement ↔ worker.prepared statement = true) :
    worker.Coherent :=
  ⟨fun unstarted => (Bool.false_ne_true (unstarted.symm.trans started)).elim, fun _ => ready⟩

theorem Coherent.step {worker next : MySQLWorker n} {event : Event n} (coherent : worker.Coherent)
    (taken : worker.step event = some next) : next.Coherent := by
  cases event with
  | threadStart answers =>
      obtain ⟨unstarted, rfl⟩ := step_threadStart taken
      obtain ⟨started, ready, _⟩ := threadStart_spec answers (coherent.unstarted unstarted)
      exact coherent_of_started started ready
  | processTask task answers =>
      obtain ⟨started, rfl⟩ := step_processTask taken
      cases task with
      | none => exact coherent
      | some task =>
        by_cases alive : (worker.myConn.connection.isSome && answers.mysqlPing) = true
        · rw [processTask_alive alive]
          exact ⟨coherent.unstarted, coherent.ready⟩
        · obtain ⟨same, ready, _⟩ := processTask_reconnects alive
          exact coherent_of_started (same.trans started) ready

theorem step_statementsReady_iff {worker next : MySQLWorker n} {event : Event n}
    (coherent : worker.Coherent) (good : worker.StatementsReady)
    (taken : worker.step event = some next) :
    next.StatementsReady ↔ worker.KeepsReady event := by
  cases event with
  | threadStart answers =>
      obtain ⟨unstarted, rfl⟩ := step_threadStart taken
      exact (threadStart_spec answers (coherent.unstarted unstarted)).2.2 good
  | processTask task answers =>
      obtain ⟨started, rfl⟩ := step_processTask taken
      cases task with
      | none => exact iff_of_true good trivial
      | some task =>
        by_cases alive : (worker.myConn.connection.isSome && answers.mysqlPing) = true
        · have connected := (Bool.and_eq_true_iff.mp alive).1
          rw [processTask_alive alive, good.handleInsert_iff connected, KeepsReady, if_pos alive]
          exact coherent.ready connected task.statement
        · rw [(processTask_reconnects alive).2.2 good, KeepsReady, if_neg alive]

/-- Handlers find their statements ready, and errors a connection, in exactly the runs whose
steps all meet the condition. -/
theorem always_statementsReady_iff (n : Nat) (events : List (Event n)) :
    Execution.Always step StatementsReady ({} : MySQLWorker n) events ↔
      Execution.Throughout step KeepsReady ({} : MySQLWorker n) events := by
  have initially : Coherent ({} : MySQLWorker n) :=
    ⟨fun _ statement => by cases statement <;> rfl, fun connected => nomatch connected⟩
  have good : StatementsReady ({} : MySQLWorker n) :=
    ⟨fun _ used => absurd used List.not_mem_nil, List.not_mem_nil⟩
  have preserved (worker : MySQLWorker n) (event : Event n) (next : MySQLWorker n)
      (coherent : worker.Coherent) (taken : worker.step event = some next) : next.Coherent :=
    coherent.step taken
  exact Execution.always_iff_throughout preserved
    (fun _ _ _ coherent good taken => step_statementsReady_iff coherent good taken)
    initially good events

/-- A worker which could not create its table at the start, and a login event afterwards: the
ping succeeds, so nothing is set up again and the null statement is used. -/
def tablelessStart : List (Event 1) :=
  [.threadStart { createLogin := false }, .processTask (some (.insertLoginEvent 0 [])) {}]

theorem tablelessStart_not_statementsReady :
    ¬Execution.Always step StatementsReady ({} : MySQLWorker 1) tablelessStart := by
  intro always
  have ready := always.last rfl
  obtain ⟨handle, _, missing⟩ := ready.1 ⟨some 0, none⟩ (by decide)
  exact nomatch missing

end MySQLWorker

end IOCPChatServer

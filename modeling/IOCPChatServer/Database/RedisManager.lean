import IOCPChatServer.ChatServer
import IOCPChatServer.Library.TaskPool

/-!
# The login requests in the Redis layer

`RedisManager.h`: `PushTask` gives `mReqLock` back before it notifies; `TaskProcessThread`
takes the front of `mRequestTask`, asks Redis and puts its answer into `mResponseTask` under
`mResLock`.  As for MySQL, `PacketManager::End` joins the logic thread, which is the only one
that pushes, before it calls `RedisManager::End`.

`Conn.get` belongs to a vendored client of the Redis server; each call may do anything which a
function from a key to an optional value can do.

`pool.pushed`, `pool.taken`, `pool.finished`, `answers` and `takenResponses` are histories.
-/

namespace IOCPChatServer

/-- A login request with two C strings inside their fields. -/
structure RedisTask.IsLoginRequest {n : Nat} (task : RedisTask n) : Prop where
  login : task.TaskID = .requestLogin
  userID : 0 ∈ task.pData.take (maxUserIDLength + 1)
  userPW : 0 ∈ (task.pData.drop (maxUserIDLength + 1)).take (maxUserPWLength + 1)

instance {n : Nat} (task : RedisTask n) : Decidable task.IsLoginRequest :=
  decidable_of_iff (task.TaskID = .requestLogin ∧ 0 ∈ task.pData.take (maxUserIDLength + 1) ∧
      0 ∈ (task.pData.drop (maxUserIDLength + 1)).take (maxUserPWLength + 1))
    ⟨fun ⟨login, userID, userPW⟩ => ⟨login, userID, userPW⟩,
      fun ⟨login, userID, userPW⟩ => ⟨login, userID, userPW⟩⟩

/-- `pRequest->UserID`. -/
def RedisTask.loginUserID {n : Nat} (task : RedisTask n) : Bytes := cString task.pData

/-- `pRequest->UserPW`. -/
def RedisTask.loginUserPW {n : Nat} (task : RedisTask n) : Bytes :=
  cString (task.pData.drop (maxUserIDLength + 1))

/-- One login request with what `Conn.get` did for it and the response. -/
structure LoginAnswer (k n : Nat) where
  worker : Fin k
  request : RedisTask n
  get : Bytes → Option Bytes
  response : RedisTask n

/-- The response names the slot and the user of the request, and tells success precisely if
`Conn.get` gave the password of the request for its user. -/
structure LoginAnswer.Corresponds {k n : Nat} (answer : LoginAnswer k n) : Prop where
  userIndex : answer.response.UserIndex = answer.request.UserIndex
  taskID : answer.response.TaskID = .responseLogin
  userID : PacketManager.redisUserID answer.response.pData = answer.request.loginUserID
  verdict : PacketManager.redisResult answer.response.pData = ErrorCode.none.code ↔
    answer.get answer.request.loginUserID = some answer.request.loginUserPW

/-- `RedisManager` with `k` workers. -/
structure RedisManager (k n : Nat) where
  pool : TaskPool k (RedisTask n) := {}
  mResponseTask : List (RedisTask n) := []
  answers : List (LoginAnswer k n) := []
  takenResponses : List (RedisTask n) := []

namespace RedisManager

variable {k n : Nat}

/-- `answer` is `TaskProcessThread` on a login request up to `PushResponse`, `release` on any
other task.  All other steps of the threads are those of the pool. -/
inductive Event (k n : Nat) where
  | pool (event : TaskPool.Event k (RedisTask n))
  | answer (worker : Fin k) (get : Bytes → Option Bytes)
  | release (worker : Fin k)
  | takeResponseTask

/-- The response is pushed, and the worker begins its loop again. -/
def pushResponse (manager : RedisManager k n) (answer : LoginAnswer k n) : RedisManager k n :=
  { manager with
    pool := manager.pool.finish answer.worker answer.request
    mResponseTask := manager.mResponseTask ++ [answer.response]
    answers := manager.answers ++ [answer] }

/-- `TakeResponseTask`: an empty queue gives a task with `INVALID`. -/
def takeResponseTask (manager : RedisManager k n) : RedisManager k n :=
  match manager.mResponseTask with
  | [] => manager
  | response :: rest =>
      { manager with
        mResponseTask := rest
        takenResponses := manager.takenResponses ++ [response] }

def step (manager : RedisManager k n) : Event k n → Option (RedisManager k n)
  | .pool (.finish _) => none
  | .pool event => (manager.pool.step false event).map fun pool => { manager with pool }
  | .answer worker get =>
      match manager.pool.workers worker with
      | .working task =>
          if task.TaskID = .requestLogin then
            (ChatServer.redisAnswer task (get task.loginUserID)).map fun response =>
              manager.pushResponse ⟨worker, task, get, response⟩
          else none
      | _ => none
  | .release worker =>
      match manager.pool.workers worker with
      | .working task =>
          if task.TaskID = .requestLogin then none
          else some { manager with pool := manager.pool.finish worker task }
      | _ => none
  | .takeResponseTask => some manager.takeResponseTask

/-- The ways in which a step can happen. -/
inductive StepCase (manager : RedisManager k n) : Event k n → RedisManager k n → Prop where
  | pool (event : TaskPool.Event k (RedisTask n)) (pool : TaskPool k (RedisTask n))
      (other : ∀ worker, event ≠ .finish worker)
      (taken : manager.pool.step false event = some pool) :
      StepCase manager (.pool event) { manager with pool }
  | answer (answer : LoginAnswer k n)
      (status : manager.pool.workers answer.worker = .working answer.request)
      (login : answer.request.TaskID = .requestLogin)
      (answered : ChatServer.redisAnswer answer.request
        (answer.get answer.request.loginUserID) = some answer.response) :
      StepCase manager (.answer answer.worker answer.get) (manager.pushResponse answer)
  | release (worker : Fin k) (task : RedisTask n)
      (status : manager.pool.workers worker = .working task)
      (other : task.TaskID ≠ .requestLogin) :
      StepCase manager (.release worker) { manager with pool := manager.pool.finish worker task }
  | takeResponseTask : StepCase manager .takeResponseTask manager.takeResponseTask

theorem step_cases {manager next : RedisManager k n} {event : Event k n}
    (taken : manager.step event = some next) : manager.StepCase event next := by
  cases event with
  | pool event =>
      cases event with
      | finish worker => cases taken
      | _ =>
          simp only [step] at taken
          obtain ⟨pool, stepped, rfl⟩ := Option.map_eq_some_iff.mp taken
          exact .pool _ pool nofun stepped
  | answer worker get =>
      simp only [step] at taken
      split at taken
      · rename_i task status
        obtain ⟨login, taken⟩ := Option.ite_none_right_eq_some.mp taken
        obtain ⟨response, answered, rfl⟩ := Option.map_eq_some_iff.mp taken
        exact .answer ⟨worker, task, get, response⟩ status login answered
      · cases taken
  | release worker =>
      simp only [step] at taken
      split at taken
      · rename_i task status
        obtain ⟨other, taken⟩ := Option.ite_none_left_eq_some.mp taken
        cases taken
        exact .release worker task status other
      · cases taken
  | takeResponseTask =>
      cases taken
      exact .takeResponseTask

/-! ## One request -/

theorem redisResult_redisLoginRes (code : ErrorCode) (UserID : Bytes) :
    PacketManager.redisResult (redisLoginRes code.code UserID) = code.code := by
  cases code <;> rfl

theorem redisUserID_redisLoginRes (Result : Nat) (source : Bytes) :
    PacketManager.redisUserID (redisLoginRes Result (cString source)) = cString source := by
  have fields : (redisLoginRes Result (cString source)).drop 2 =
      cString source ++ List.replicate (maxUserIDLength + 1 - (cString source).length) 0 := rfl
  rw [PacketManager.redisUserID, fields, cString_append_of_not_mem (zero_notMem_cString source),
    cString_replicate_zero, List.append_nil]

/-- The answer of a worker to a login request. -/
theorem redisAnswer_of_isLoginRequest {task : RedisTask n} (request : task.IsLoginRequest)
    (value : Option Bytes) :
    ChatServer.redisAnswer task value = some {
      UserIndex := task.UserIndex
      TaskID := .responseLogin
      pData := redisLoginRes
        (if value = some task.loginUserPW then ErrorCode.none else .loginUserInvalidPW).code
        task.loginUserID } := by
  have copied := strcpyS_of_fits (length_cString_lt request.userID)
  simp only [ChatServer.redisAnswer, copied]
  rfl

theorem corresponds_of_answered {answer : LoginAnswer k n}
    (request : answer.request.IsLoginRequest)
    (answered : ChatServer.redisAnswer answer.request
      (answer.get answer.request.loginUserID) = some answer.response) : answer.Corresponds := by
  rw [redisAnswer_of_isLoginRequest request] at answered
  have response := (Option.some.inj answered).symm
  constructor
  case userIndex => rw [response]
  case taskID => rw [response]
  case userID =>
      rw [response]
      exact redisUserID_redisLoginRes _ _
  case verdict =>
      rw [response]
      dsimp only
      rw [redisResult_redisLoginRes]
      split
      · rename_i found
        exact iff_of_true rfl found
      · rename_i missing
        exact iff_of_false (by decide) missing

/-! ## The invariant -/

/-- The task which the event pushes. -/
def Event.pushTask? : Event k n → Option (RedisTask n)
  | .pool event => event.pushTask?
  | _ => none

/-- What the logic thread pushes is a login request. -/
def Event.PushesLogin (event : Event k n) : Prop :=
  ∀ task ∈ event.pushTask?, task.IsLoginRequest

instance (event : Event k n) : Decidable event.PushesLogin :=
  inferInstanceAs (Decidable (∀ task ∈ event.pushTask?, task.IsLoginRequest))

/-- The tasks which are finished are the requests which were answered. -/
structure Valid (manager : RedisManager k n) : Prop where
  pool : manager.pool.Valid
  requests : ∀ task ∈ manager.pool.pushed, task.IsLoginRequest
  answered : manager.answers.map (fun answer => (answer.worker, answer.request)) =
    manager.pool.finished
  corresponds : ∀ answer ∈ manager.answers, answer.Corresponds
  responses : manager.takenResponses ++ manager.mResponseTask =
    manager.answers.map LoginAnswer.response

theorem valid_init : ({} : RedisManager k n).Valid where
  pool := TaskPool.valid_init
  requests _ member := absurd member List.not_mem_nil
  answered := rfl
  corresponds _ member := absurd member List.not_mem_nil
  responses := rfl

theorem Valid.pushResponse {manager : RedisManager k n} (valid : manager.Valid)
    {answer : LoginAnswer k n}
    (status : manager.pool.workers answer.worker = .working answer.request)
    (answered : ChatServer.redisAnswer answer.request
      (answer.get answer.request.loginUserID) = some answer.response) :
    (manager.pushResponse answer).Valid where
  pool := valid.pool.finish status
  requests := valid.requests
  answered := by
    simp [RedisManager.pushResponse, TaskPool.finish, ← valid.answered]
  corresponds := by
    refine List.forall_mem_append.mpr ⟨valid.corresponds, List.forall_mem_singleton.mpr ?_⟩
    exact corresponds_of_answered (valid.requests _ (valid.pool.mem_pushed status)) answered
  responses := by
    simp [RedisManager.pushResponse, ← valid.responses]

/-- The front of the queue goes to whoever takes it. -/
theorem Valid.takeResponseTask {manager : RedisManager k n} (valid : manager.Valid) :
    manager.takeResponseTask.Valid := by
  rw [RedisManager.takeResponseTask]
  split
  · exact valid
  · rename_i response rest front
    have responses := valid.responses
    rw [front] at responses
    exact { valid with responses := (List.append_assoc ..).trans responses }

theorem valid_step {manager next : RedisManager k n} {event : Event k n} (valid : manager.Valid)
    (login : event.PushesLogin) (taken : manager.step event = some next) : next.Valid := by
  cases step_cases taken with
  | pool event pool other stepped =>
      constructor
      case pool => exact TaskPool.valid_step valid.pool stepped
      case requests =>
          rw [TaskPool.pushed_step stepped]
          refine List.forall_mem_append.mpr ⟨valid.requests, fun task pushes => ?_⟩
          exact login task (Option.mem_toList.mp pushes)
      case answered => exact valid.answered.trans (TaskPool.finished_step stepped other).symm
      case corresponds => exact valid.corresponds
      case responses => exact valid.responses
  | answer answer status login answered => exact valid.pushResponse status answered
  | release worker task status other =>
      exact absurd (valid.requests task (valid.pool.mem_pushed status)).login other
  | takeResponseTask => exact valid.takeResponseTask

/-! ## One response for each request -/

/-- The slot and the user of a request. -/
def requestKey (task : RedisTask n) : Fin n × Bytes := (task.UserIndex, task.loginUserID)

/-- The slot and the user of a response. -/
def responseKey (task : RedisTask n) : Fin n × Bytes :=
  (task.UserIndex, PacketManager.redisUserID task.pData)

/-- Every request is queued, in the hands of a worker or answered, and answered once; each
answer corresponds to its request; the responses are those which were taken from
`mResponseTask` and those which are in it, in the order of the answers.  One worker answers in
the order of the requests, and after `RedisManager::End` every request has its response. -/
structure AnswersEachOnce (manager : RedisManager k n) : Prop where
  once : (manager.pool.pushed.map requestKey).Perm
    ((manager.pool.queue ++ manager.pool.hands.map Prod.snd).map requestKey ++
      manager.answers.map fun answer => responseKey answer.response)
  requests : manager.pool.pushed.Perm
    (manager.pool.queue ++ manager.pool.hands.map Prod.snd ++
      manager.answers.map LoginAnswer.request)
  corresponds : ∀ answer ∈ manager.answers, answer.Corresponds
  responses : manager.takenResponses ++ manager.mResponseTask =
    manager.answers.map LoginAnswer.response
  answerable : ∀ worker task, manager.pool.workers worker = .working task →
    ∀ get, (manager.step (.answer worker get)).isSome = true
  inOrder : k = 1 → manager.answers.map LoginAnswer.request ++
    manager.pool.hands.map Prod.snd ++ manager.pool.queue = manager.pool.pushed
  answered : manager.pool.ending = .joined →
    manager.pool.pushed.Perm (manager.answers.map LoginAnswer.request)

section Answers

variable {manager : RedisManager k n}

/-- The requests which were answered are the tasks which were finished. -/
theorem Valid.finished (valid : manager.Valid) :
    manager.pool.finished.map Prod.snd = manager.answers.map LoginAnswer.request := by
  rw [← valid.answered, List.map_map]
  rfl

theorem Valid.perm_pushed (valid : manager.Valid) :
    manager.pool.pushed.Perm
      (manager.pool.queue ++ manager.pool.hands.map Prod.snd ++
        manager.answers.map LoginAnswer.request) := by
  have taken := valid.pool.perm_taken.map Prod.snd
  rw [List.map_append, valid.finished] at taken
  rw [← valid.pool.fifo]
  refine (taken.append_right manager.pool.queue).trans (List.perm_append_comm.trans ?_)
  rw [List.append_assoc]
  exact List.perm_append_comm.append_left manager.pool.queue

/-- A response has the key of its request. -/
theorem Valid.keys (valid : manager.Valid) :
    (manager.answers.map LoginAnswer.request).map requestKey =
      manager.answers.map fun answer => responseKey answer.response := by
  rw [List.map_map]
  refine List.map_congr_left fun answer member => ?_
  have corresponds := valid.corresponds answer member
  exact Prod.ext corresponds.userIndex.symm corresponds.userID.symm

/-- No request stops the worker which has it. -/
theorem Valid.answerable (valid : manager.Valid) {worker : Fin k} {task : RedisTask n}
    (status : manager.pool.workers worker = .working task) (get : Bytes → Option Bytes) :
    (manager.step (.answer worker get)).isSome = true := by
  have request := valid.requests task (valid.pool.mem_pushed status)
  simp [step, status, request.login, redisAnswer_of_isLoginRequest request]

theorem Valid.inOrder (valid : manager.Valid) (single : k = 1) :
    manager.answers.map LoginAnswer.request ++ manager.pool.hands.map Prod.snd ++
      manager.pool.queue = manager.pool.pushed := by
  rw [← valid.finished, ← List.map_append, ← valid.pool.taken_of_single single, valid.pool.fifo]

theorem Valid.answersEachOnce (valid : manager.Valid) (staffed : 0 < k) :
    manager.AnswersEachOnce where
  once := by
    have keys := valid.perm_pushed.map requestKey
    rwa [List.map_append, valid.keys] at keys
  requests := valid.perm_pushed
  corresponds := valid.corresponds
  responses := valid.responses
  answerable _ _ status get := valid.answerable status get
  inOrder := valid.inOrder
  answered joined := by
    have exited := valid.pool.left joined
    have all := valid.perm_pushed
    rwa [valid.pool.queue_of_exited staffed exited, TaskPool.hands_of_exited exited] at all

end Answers

/-- The worker which answers in the event, and what `Conn.get` does for it. -/
def Event.answer? : Event k n → Option (Fin k × (Bytes → Option Bytes))
  | .answer worker get => some (worker, get)
  | _ => none

/-- What was pushed and answered in a run is what its events push and answer, in their
order. -/
structure AskedBy (manager : RedisManager k n) (events : List (Event k n)) : Prop where
  pushed : manager.pool.pushed = events.filterMap Event.pushTask?
  answers : manager.answers.map (fun answer => (answer.worker, answer.get)) =
    events.filterMap Event.answer?

theorem pushed_step {manager next : RedisManager k n} {event : Event k n}
    (taken : manager.step event = some next) :
    next.pool.pushed = manager.pool.pushed ++ event.pushTask?.toList := by
  cases step_cases taken with
  | pool event pool other stepped => exact TaskPool.pushed_step stepped
  | answer answer status login answered => exact (List.append_nil _).symm
  | release worker task status other => exact (List.append_nil _).symm
  | takeResponseTask =>
      rw [takeResponseTask]
      split <;> exact (List.append_nil _).symm

theorem answers_step {manager next : RedisManager k n} {event : Event k n}
    (taken : manager.step event = some next) :
    next.answers.map (fun answer => (answer.worker, answer.get)) =
      manager.answers.map (fun answer => (answer.worker, answer.get)) ++
        event.answer?.toList := by
  cases step_cases taken with
  | pool event pool other stepped => exact (List.append_nil _).symm
  | answer answer status login answered => exact List.map_append
  | release worker task status other => exact (List.append_nil _).symm
  | takeResponseTask =>
      rw [takeResponseTask]
      split <;> exact (List.append_nil _).symm

theorem askedBy_of_run? {events : List (Event k n)} {last : RedisManager k n}
    (completed : Execution.run? step {} events = some last) : last.AskedBy events := by
  have trivially (manager : RedisManager k n) (event : Event k n) (next : RedisManager k n)
      (_ : True) (_ : manager.step event = some next) : True := trivial
  constructor
  case pushed =>
    exact Execution.history_of_run? trivially
      (fun manager event next _ taken => pushed_step taken) trivial completed
  case answers =>
    exact Execution.history_of_run? trivially
      (fun manager event next _ taken => answers_step taken) trivial completed

/-- One login response for each login request, in every order of the steps of the logic
thread, of the workers and of `PacketManager::End`. -/
theorem always_answersEachOnce (staffed : 0 < k) (events : List (Event k n))
    (logins : ∀ event ∈ events, event.PushesLogin) :
    Execution.Always step AnswersEachOnce {} events ∧
      ∀ last, Execution.run? step {} events = some last → last.AskedBy events := by
  have conditions : Execution.Throughout step (fun _ event => event.PushesLogin)
      ({} : RedisManager k n) events := Execution.throughout_of_forall logins _
  have always := Execution.always_of_throughout
    (fun _ _ _ valid login taken => valid_step valid login taken) valid_init conditions
  exact ⟨always.mono fun _ valid => valid.answersEachOnce staffed,
    fun last completed => askedBy_of_run? completed⟩

/-- The login request of the user `a` with the password `b`. -/
def loginOfA : RedisTask 1 where
  UserIndex := 0
  TaskID := .requestLogin
  pData := text ['a'] ++ List.replicate maxUserIDLength 0 ++ text ['b'] ++
    List.replicate maxUserPWLength 0

/-- The worker locks, tests, and takes the front or leaves. -/
def consumeOnce (worker : Fin k) : List (Event k n) :=
  List.replicate 3 (.pool (.consume worker))

/-- Two workers and two requests of one user; Redis has the password for the second. -/
def answerOnEnd : List (Event 2 1) :=
  List.flatten [
    [.pool (.push loginOfA), .pool (.notifyOne none), .pool (.push loginOfA),
      .pool (.notifyOne none), .pool .joinProducer, .pool .stop, .pool .notifyAll],
    consumeOnce 0, consumeOnce 1,
    [.answer 1 fun _ => some (text ['b']), .answer 0 fun _ => none, .takeResponseTask],
    consumeOnce 0, consumeOnce 1, [.pool .joinWorkers]]

theorem always_answersEachOnce_answerOnEnd :
    (Execution.run? step {} answerOnEnd).map (fun manager =>
        (manager.pool.ending, manager.answers.map LoginAnswer.request)) =
      some (.joined, [loginOfA, loginOfA]) ∧
    (Execution.run? step {} answerOnEnd).map (fun manager =>
        (manager.takenResponses.map fun response => PacketManager.redisResult response.pData,
          manager.mResponseTask.map fun response => PacketManager.redisResult response.pData)) =
      some ([ErrorCode.none.code], [ErrorCode.loginUserInvalidPW.code]) ∧
    ∀ last, Execution.run? step {} answerOnEnd = some last →
      last.AnswersEachOnce ∧ last.AskedBy answerOnEnd := by
  obtain ⟨always, asked⟩ := always_answersEachOnce (by decide) answerOnEnd (by decide)
  refine ⟨by decide +kernel, by decide +kernel, fun last completed => ?_⟩
  exact ⟨always.last completed, asked last completed⟩

end RedisManager

end IOCPChatServer

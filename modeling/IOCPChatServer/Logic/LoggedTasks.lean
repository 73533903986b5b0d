import IOCPChatServer.Database.EventRows
import IOCPChatServer.Logic.ChatDelivery
import IOCPChatServer.Logic.LoginAnswers
import IOCPChatServer.Logic.RoomEvents
import IOCPChatServer.Logic.SentPackets

/-!
# The events which the handlers log

Whatever the clients send, a handler pushes at most one task for MySQL, and its values fit
into the fields of the structure: the strings have passed `strcpy_s`, and the room exists.
-/

namespace IOCPChatServer

namespace PacketManager

variable {n : Nat}

/-- What is logged fits, the rooms exist and the stored IDs are C strings. -/
structure LogsFittingTasks (manager : PacketManager n) : Prop where
  tasks : ∀ task ∈ manager.mysqlTasks, task.Fits
  regular : manager.Regular
  names : ∀ slot, 0 ∉ (manager.user slot).mUserID

theorem logsFittingTasks_init (memory : Fin n → Bytes) :
    (PacketManager.init memory).LogsFittingTasks where
  tasks _ logged := absurd logged List.not_mem_nil
  regular := regular_init memory
  names := (sendsFittingPackets_init memory).names

/-- What a call adds to the log: at most one task, which fits. -/
structure Logs (before after : PacketManager n) (tasks : List (MySQLTask n)) : Prop where
  added : after.mysqlTasks = before.mysqlTasks ++ tasks
  atMostOne : tasks.length ≤ 1
  fit : ∀ task ∈ tasks, task.Fits

theorem logs_nothing {before after : PacketManager n}
    (same : after.mysqlTasks = before.mysqlTasks) : before.Logs after [] where
  added := by rw [same, List.append_nil]
  atMostOne := Nat.zero_le 1
  fit _ member := absurd member List.not_mem_nil

theorem logs_task {before after : PacketManager n} {task : MySQLTask n}
    (added : after.mysqlTasks = before.mysqlTasks ++ [task]) (fits : task.Fits) :
    before.Logs after [task] where
  added := added
  atMostOne := Nat.le_refl 1
  fit _ member := List.mem_singleton.mp member ▸ fits

/-- A string which passed `strcpy_s`. -/
theorem fitsInto_of_strcpyS {size : Nat} {source copy : Bytes} (letters : 0 ∉ source)
    (copied : strcpyS (size + 1) source = some copy) : FitsInto (size + 1) copy := by
  have short := strcpyS_length copied
  rw [strcpyS_eq copied]
  exact ⟨Nat.lt_succ_of_le short, letters⟩

/-- The number of a room which exists fits into its field. -/
theorem LogsFittingTasks.roomNumber {manager : PacketManager n}
    (logging : manager.LogsFittingTasks) {number : Int}
    (located : manager.mRoomManager.getRoomByNumber number ≠ none) :
    -2 ^ 31 ≤ number ∧ number < 2 ^ 31 := by
  rw [ne_eq, getRoomByNumber_eq_none logging.regular] at located
  omega

theorem located_of_enterUser {manager : PacketManager n} {number : Int} {index : Fin n}
    (entered : (manager.enterUser number index).1 = .none) :
    manager.mRoomManager.getRoomByNumber number ≠ none := by
  intro missing
  simp only [enterUser, RoomManager.enterUser, missing] at entered
  cases entered

theorem located_of_leaveUser {manager : PacketManager n} {number : Int} {index : Fin n}
    (left : (manager.leaveUser number index).1 = .none) :
    manager.mRoomManager.getRoomByNumber number ≠ none := by
  intro missing
  simp only [leaveUser, RoomManager.leaveUser, missing] at left
  cases left

/-! ## The handlers -/

theorem logs_processLoginDBResult {manager after : PacketManager n} {index : Fin n}
    {pPacket : Bytes} (completed : manager.processLoginDBResult index pPacket = some after) :
    ∃ tasks, manager.Logs after tasks := by
  unfold PacketManager.processLoginDBResult at completed
  dsimp only at completed
  split at completed
  · split at completed
    · rename_i added
      obtain ⟨userID, copied, rest⟩ := Option.bind_eq_some_iff.mp completed
      cases rest
      have letters : 0 ∉ ((manager.mUserManager.addUser (redisUserID pPacket) index).2.mUserObjPool
          index).mUserID := by
        rw [UserManager.addUser] at added ⊢
        split at added
        · cases added
        · dsimp only [UserManager.modifyUser]
          rw [Function.update_self]
          exact zero_notMem_cString _
      exact ⟨_, logs_task rfl (fitsInto_of_strcpyS letters copied)⟩
    · cases completed
      exact ⟨[], logs_nothing rfl⟩
  · cases completed
    exact ⟨[], logs_nothing rfl⟩

theorem LogsFittingTasks.processEnterRoom {manager after : PacketManager n}
    (logging : manager.LogsFittingTasks) {index : Fin n} {pPacket : Bytes}
    (completed : manager.processEnterRoom index pPacket = some after) :
    ∃ tasks, manager.Logs after tasks := by
  have name := logging.names index
  rw [← manager.enterUser_mUserID (enterRoomNumber pPacket)] at name
  unfold PacketManager.processEnterRoom at completed
  dsimp only at completed
  split at completed
  · cases completed
    exact ⟨[], logs_nothing rfl⟩
  · split at completed
    · rename_i entered
      obtain ⟨copy, copied, logged⟩ := Option.bind_eq_some_iff.mp completed
      obtain ⟨notified, told, sent⟩ := Option.bind_eq_some_iff.mp logged
      cases sent
      have number := logging.roomNumber (located_of_enterUser entered)
      exact ⟨_, logs_task (notifyChat_mysqlTasks told) ⟨fitsInto_of_strcpyS name copied, number⟩⟩
    · cases completed
      exact ⟨[], logs_nothing rfl⟩

theorem LogsFittingTasks.processLeaveRoom {manager after : PacketManager n}
    (logging : manager.LogsFittingTasks) {index : Fin n}
    (completed : manager.processLeaveRoom index = some after) :
    ∃ tasks, manager.Logs after tasks := by
  have name := logging.names index
  rw [← manager.leaveUser_mUserID (manager.user index).roomIndex] at name
  unfold PacketManager.processLeaveRoom at completed
  dsimp only at completed
  split at completed
  · rename_i left
    obtain ⟨copy, copied, logged⟩ := Option.bind_eq_some_iff.mp completed
    obtain ⟨notified, told, sent⟩ := Option.bind_eq_some_iff.mp logged
    cases sent
    have number := logging.roomNumber (located_of_leaveUser left)
    exact ⟨_, logs_task (notifyChat_mysqlTasks told) ⟨fitsInto_of_strcpyS name copied, number⟩⟩
  · cases completed
    exact ⟨[], logs_nothing rfl⟩

theorem LogsFittingTasks.processRoomChatMessage {manager after : PacketManager n}
    (logging : manager.LogsFittingTasks) {index : Fin n} {pPacket : Bytes}
    (completed : manager.processRoomChatMessage index pPacket = some after) :
    ∃ tasks, manager.Logs after tasks := by
  unfold PacketManager.processRoomChatMessage at completed
  dsimp only at completed
  split at completed
  · cases completed
    exact ⟨[], logs_nothing rfl⟩
  · split at completed
    · cases completed
      exact ⟨[], logs_nothing rfl⟩
    · rename_i position located
      obtain ⟨copy, copied, rest⟩ := Option.bind_eq_some_iff.mp completed
      obtain ⟨message, copiedMessage, told⟩ := Option.bind_eq_some_iff.mp rest
      have number := logging.roomNumber (located ▸ Option.some_ne_none position)
      have name := fitsInto_of_strcpyS (logging.names index) copied
      have letters := fitsInto_of_strcpyS (zero_notMem_cString _) copiedMessage
      exact ⟨_, logs_task (notifyChat_mysqlTasks told) ⟨name, number, letters⟩⟩

/-- Every completed call of `ProcessRecvPacket`. -/
theorem LogsFittingTasks.logs {manager next : PacketManager n} {call : RecvCall n}
    (logging : manager.LogsFittingTasks) (taken : manager.recv call = some next) :
    ∃ tasks, manager.Logs next tasks := by
  unfold PacketManager.recv processRecvPacket at taken
  cases found : findHandler call.packetId with
  | none =>
      rw [found] at taken
      cases taken
      exact ⟨[], logs_nothing rfl⟩
  | some handler =>
      rw [found] at taken
      cases handler with
      | processUserConnect =>
          cases taken
          exact ⟨[], logs_nothing rfl⟩
      | processUserDisconnect =>
          cases taken
          exact ⟨[], logs_nothing (manager.clearConnectionInfo_mysqlTasks call.clientIndex)⟩
      | processLogin =>
          cases taken
          exact ⟨[], logs_nothing (manager.processLogin_mysqlTasks _ _ _)⟩
      | processLoginDBResult => exact logs_processLoginDBResult taken
      | processEnterRoom => exact logging.processEnterRoom taken
      | processLeaveRoom => exact logging.processLeaveRoom taken
      | processRoomChatMessage => exact logging.processRoomChatMessage taken
      | pong =>
          cases taken
          exact ⟨[], logs_nothing rfl⟩

theorem LogsFittingTasks.recv {manager next : PacketManager n} {call : RecvCall n}
    (logging : manager.LogsFittingTasks) (taken : manager.recv call = some next) :
    next.LogsFittingTasks where
  tasks := by
    obtain ⟨tasks, logs⟩ := logging.logs taken
    intro task member
    rw [logs.added] at member
    exact (List.mem_append.mp member).elim (logging.tasks task) (logs.fit task)
  regular := logging.regular.recv taken
  names := names_recv logging.names taken

/-- Every run of the logic layer. -/
theorem always_logsFittingTasks (memory : Fin n → Bytes) (calls : List (RecvCall n)) :
    Execution.Always recv LogsFittingTasks (PacketManager.init memory) calls :=
  Execution.always_of_invariant (fun _ _ _ logging taken => logging.recv taken)
    (logsFittingTasks_init memory) calls

/-- A message of `MAX_CHAT_MSG` letters. -/
def longestMessage : Bytes := List.replicate maxChatMsg 120

def longestChat : List (RecvCall 1) :=
  [loginAccepted 0 (text ['a']), .roomEnterRequest 0, .roomChatRequest 0 longestMessage]

theorem always_logsFittingTasks_longestChat :
    (Execution.run? recv (PacketManager.init fun _ => []) longestChat).map
        PacketManager.mysqlTasks =
      some [.insertLoginEvent 0 (text ['a']), .insertRoomEvent 0 (text ['a']) 0 .enter,
        .insertChatMessage 0 (text ['a']) 0 longestMessage] ∧
    ∀ last, Execution.run? recv (PacketManager.init fun _ => []) longestChat = some last →
      last.LogsFittingTasks :=
  ⟨by decide +kernel,
    fun _ completed => (always_logsFittingTasks (fun _ => []) longestChat).last completed⟩

end PacketManager

end IOCPChatServer

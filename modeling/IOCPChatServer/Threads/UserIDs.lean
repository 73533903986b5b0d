import IOCPChatServer.Database.RedisManager
import IOCPChatServer.Logic.UserIDs
import IOCPChatServer.Threads.Leakage

/-!
# The user IDs between the threads

A login request brings an ID into a slot, or through a Redis worker and back.  No handler
looks for the NUL of the 33 bytes of `LOGIN_REQUEST_PACKET::UserID`.  What is stored and
what is copied fits if each ID which the drain loop takes has its NUL.
-/

namespace IOCPChatServer

namespace ChatServer

open Execution PacketManager

variable {n : Nat}

/-! ## The copies of a step -/

/-- The next call of `ProcessRecvPacket`, and the logic layer which it finds. -/
def nextCall (server : ChatServer n) : Option (PacketManager n × RecvCall n) :=
  match server.clearing, server.phase with
  | none, .systemPackets =>
      server.mSystemReadBuffer.head?.map fun packet =>
        (server.logic, ⟨packet.value.clientIndex, packet.value.packetId.code, 0, []⟩)
  | none, .draining index =>
      let packet := server.packet index
      if packet.PacketId = 0 then none
      else some ((server.takePacket index).logic,
        ⟨index, packet.PacketId, packet.DataSize, packet.pDataPtr⟩)
  | none, .responses =>
      match server.mResponseTask with
      | [] => none
      | task :: _ =>
          if task.value.TaskID = .invalid then none
          else some (server.logic, ⟨task.value.UserIndex, task.value.TaskID.code,
            task.value.pData.length, task.value.pData⟩)
  | _, _ => none

/-- The user IDs which the `strcpy_s` calls of a step get as their source. -/
def copiedUserIDs (server : ChatServer n) : Event n → List Bytes
  | .logic =>
      match server.nextCall with
      | none => []
      | some (manager, call) => manager.copiedUserIDs call
  | .redisAnswer worker _ =>
      match server.workers[worker]? with
      | none => []
      | some task =>
          if task.value.TaskID = .requestLogin then [cString task.value.pData] else []
  | _ => []

/-- Every copied ID fits its destination. -/
def CopiesFit (server : ChatServer n) (event : Event n) : Prop :=
  ∀ userID ∈ server.copiedUserIDs event, UserIDFits userID

instance (server : ChatServer n) (event : Event n) : Decidable (server.CopiesFit event) :=
  inferInstanceAs (Decidable (∀ userID ∈ server.copiedUserIDs event, UserIDFits userID))

theorem processRecvPacket_isSome_iff (server : ChatServer n) (index : Fin n)
    (packetId packetSize : Nat) (pPacket : Bytes) (connection : Nat) (fromSystem : Bool) :
    (server.processRecvPacket index packetId packetSize pPacket connection
        fromSystem).isSome = true ↔
      (server.logic.recv ⟨index, packetId, packetSize, pPacket⟩).isSome = true := by
  unfold processRecvPacket PacketManager.recv
  split
  · rename_i found
    simp [PacketManager.processRecvPacket, found, callHandler]
  · rw [Option.isSome_map]

/-- The logic thread goes on after a call exactly if the call completes. -/
theorem step_isSome_iff_of_nextCall {server : ChatServer n} {manager : PacketManager n}
    {call : RecvCall n} (next : server.nextCall = some (manager, call)) :
    (server.step .logic).isSome = true ↔ (manager.recv call).isSome = true := by
  unfold nextCall at next
  split at next
  · rename_i quiet phase
    obtain ⟨packet, head, same⟩ := Option.map_eq_some_iff.mp next
    cases same
    obtain ⟨rest, front⟩ := List.head?_eq_some_iff.mp head
    simp only [step, logicStep, quiet, processPacket, phase, front]
    exact processRecvPacket_isSome_iff ..
  · rename_i index quiet phase
    dsimp only at next
    obtain ⟨packet, same⟩ := Option.ite_none_left_eq_some.mp next
    cases same
    simp only [step, logicStep, quiet, processPacket, phase, drain, if_neg packet,
      Option.isSome_map]
    exact processRecvPacket_isSome_iff ..
  · rename_i quiet phase
    split at next
    · cases next
    · rename_i task rest front
      obtain ⟨valid, same⟩ := Option.ite_none_left_eq_some.mp next
      cases same
      simp only [step, logicStep, quiet, processPacket, phase, front, if_neg valid]
      exact processRecvPacket_isSome_iff ..
  · cases next

/-- The logic thread goes on after a call exactly if the IDs which it copies fit, and the
message of a chat request does. -/
theorem step_logic_isSome_iff {server : ChatServer n} {manager : PacketManager n}
    {call : RecvCall n} (next : server.nextCall = some (manager, call)) :
    (server.step .logic).isSome = true ↔
      server.CopiesFit .logic ∧
        (findHandler call.packetId = some .processRoomChatMessage →
          manager.copiedUserIDs call ≠ [] →
            (chatMessage call.pPacket).length < maxChatMsg + 1) := by
  have copies : server.copiedUserIDs .logic = manager.copiedUserIDs call := by
    unfold copiedUserIDs
    rw [next]
  rw [step_isSome_iff_of_nextCall next, recv_isSome_iff, CopiesFit, copies]

/-- A busy worker goes on exactly if the ID which it copies fits. -/
theorem step_redisAnswer_isSome_iff {server : ChatServer n} {worker : Nat}
    {task : Tagged (RedisTask n)} (busy : server.workers[worker]? = some task)
    (value : Option Bytes) :
    (server.step (.redisAnswer worker value)).isSome = true ↔
      server.CopiesFit (.redisAnswer worker value) := by
  simp only [CopiesFit, copiedUserIDs, step, busy]
  split
  · rw [Option.isSome_map, redisAnswer, Option.bind_eq_bind, strcpyS_bind_isSome_iff]
    simp [UserIDFits]
  · simp

/-! ## The IDs on their way -/

/-- The IDs which are stored, in the requests and in the responses fit. -/
structure UserIDsFit (server : ChatServer n) : Prop where
  stored : server.logic.IDsFit
  requests : ∀ task ∈ server.mRequestTask ++ server.workers,
    UserIDFits (cString task.value.pData)
  responses : ∀ task ∈ server.mResponseTask, UserIDFits (redisUserID task.value.pData)

theorem userIDsFit_init (memory : Fin n → Bytes) : (init memory).UserIDsFit where
  stored := idsFit_init memory
  requests _ member := absurd member List.not_mem_nil
  responses _ member := absurd member List.not_mem_nil

/-- The packet which the drain loop hands over brings no ID which does not fit. -/
def KeepsIDs (server : ChatServer n) (event : Event n) : Prop :=
  event = .logic → server.clearing = none → ∀ index, server.phase = .draining index →
    server.logic.BringsFittingIDs ⟨index, (server.packet index).PacketId,
      (server.packet index).DataSize, (server.packet index).pDataPtr⟩

instance (server : ChatServer n) (event : Event n) : Decidable (server.KeepsIDs event) :=
  inferInstanceAs (Decidable (_ → _ → _))

/-- A system packet has no body. -/
theorem bringsFittingIDs_systemPacket (manager : PacketManager n) (index : Fin n)
    (packetId : PacketId) : manager.BringsFittingIDs ⟨index, packetId.code, 0, []⟩ := by
  refine ⟨fun login => ?_, fun _ => Nat.zero_lt_succ _⟩
  rcases login with test | forwards
  · exact nomatch test.2.1
  · exact nomatch forwards.size

/-- A response is no login request. -/
theorem bringsFittingIDs_response (manager : PacketManager n) (task : RedisTask n)
    (fits : UserIDFits (redisUserID task.pData)) :
    manager.BringsFittingIDs ⟨task.UserIndex, task.TaskID.code, task.pData.length, task.pData⟩ := by
  have noRequest : findHandler task.TaskID.code ≠ some .processLogin := by
    cases task.TaskID <;> decide
  refine ⟨fun login => ?_, fun _ => fits⟩
  rcases login with test | forwards
  · exact absurd test.1 noRequest
  · exact absurd forwards.handler noRequest

theorem UserIDsFit.processRecvPacket {before after : ChatServer n} {index : Fin n}
    {packetId packetSize : Nat} {pPacket : Bytes} {connection : Nat} {fromSystem : Bool}
    (fits : before.UserIDsFit)
    (brings : before.logic.BringsFittingIDs ⟨index, packetId, packetSize, pPacket⟩)
    (completed : before.processRecvPacket index packetId packetSize pPacket connection
      fromSystem = some after) : after.UserIDsFit := by
  have stored : after.logic.IDsFit := by
    rcases processRecvPacket_logic completed with ⟨_, unchanged⟩ | ran
    · rw [unchanged]
      exact fits.stored
    · exact fits.stored.recv (brings.test ·) ran
  cases processRecvPacket_received completed with
  | clears found => exact ⟨stored, fits.requests, fits.responses⟩
  | handled other logic tasks forwarded same =>
      refine ⟨stored, fun task member => ?_, fits.responses⟩
      rw [List.append_assoc] at member
      rcases List.mem_append.mp member with old | rest
      · exact fits.requests task (List.mem_append_left _ old)
      · rcases List.mem_append.mp rest with new | old
        · obtain ⟨login, own, rfl⟩ := List.mem_map.mp new
          cases forwarded with
          | nothing => exact absurd own List.not_mem_nil
          | login forwards =>
              rw [List.mem_singleton.mp own]
              exact loginTask_fits (brings.1 (Or.inr forwards))
        · exact fits.requests task (List.mem_append_right _ old)

theorem UserIDsFit.takePacket {server : ChatServer n} (fits : server.UserIDsFit)
    (index : Fin n) : (server.takePacket index).UserIDsFit where
  stored := fits.stored.modifyUser index _ (getPacket_keeps (server.user index)).2.2
  requests := fits.requests
  responses := fits.responses

theorem UserIDsFit.drain {server next : ChatServer n} {index : Fin n}
    (fits : server.UserIDsFit)
    (brings : server.logic.BringsFittingIDs ⟨index, (server.packet index).PacketId,
      (server.packet index).DataSize, (server.packet index).pDataPtr⟩)
    (taken : server.drain index = some next) : next.UserIDsFit := by
  have emptied := fits.takePacket index
  unfold ChatServer.drain at taken
  dsimp only at taken
  split at taken
  · cases taken
    exact ⟨emptied.stored, emptied.requests, emptied.responses⟩
  · obtain ⟨after, completed, rfl⟩ := Option.map_eq_some_iff.mp taken
    have dispatched : (server.dispatch index).UserIDsFit :=
      ⟨emptied.stored, emptied.requests, emptied.responses⟩
    have handled := dispatched.processRecvPacket (brings.modifyUser index _) completed
    unfold storeResult
    split
    · exact ⟨handled.stored.modifyUser index _ rfl, handled.requests, handled.responses⟩
    · exact handled

theorem UserIDsFit.processPacket {server next : ChatServer n} (fits : server.UserIDsFit)
    (quiet : server.clearing = none) (keeps : server.KeepsIDs .logic)
    (taken : server.processPacket = some next) : next.UserIDsFit := by
  unfold ChatServer.processPacket at taken
  split at taken
  · obtain ⟨_, same⟩ := Option.ite_none_left_eq_some.mp taken
    cases same
    exact ⟨fits.stored, fits.requests, fits.responses⟩
  · split at taken
    · cases taken
      exact ⟨fits.stored, fits.requests, fits.responses⟩
    · rename_i packet rest front
      have popped : { server with mSystemReadBuffer := rest }.UserIDsFit :=
        ⟨fits.stored, fits.requests, fits.responses⟩
      exact popped.processRecvPacket (bringsFittingIDs_systemPacket ..) taken
  · split at taken
    · cases taken
      exact ⟨fits.stored, fits.requests, fits.responses⟩
    · split at taken
      · cases taken
        exact ⟨fits.stored, fits.requests, fits.responses⟩
      · cases taken
        exact ⟨fits.stored, fits.requests, fits.responses⟩
  · rename_i index phase
    exact fits.drain (keeps rfl quiet index phase) taken
  · split at taken
    · cases taken
      exact ⟨fits.stored, fits.requests, fits.responses⟩
    · rename_i task rest front
      have later : ∀ task ∈ rest, UserIDFits (redisUserID task.value.pData) :=
        fun task member => fits.responses task (front ▸ List.mem_cons_of_mem _ member)
      split at taken
      · cases taken
        exact ⟨fits.stored, fits.requests, later⟩
      · have first := fits.responses task (front ▸ List.mem_cons_self)
        have popped : ({ server with mResponseTask := rest }.observe
            (.loginResult task.value.UserIndex task.connection
              (server.isCurrent task.value.UserIndex task.connection))).UserIDsFit :=
          ⟨fits.stored, fits.requests, later⟩
        exact popped.processRecvPacket (bringsFittingIDs_response _ _ first) taken

/-! ## Every step -/

/-- A response carries the ID which the worker has copied. -/
theorem redisAnswer_fits {task response : RedisTask n} {value : Option Bytes}
    (answered : redisAnswer task value = some response) :
    UserIDFits (redisUserID response.pData) := by
  obtain ⟨UserID, copied, same⟩ := Option.bind_eq_some_iff.mp answered
  cases same
  rw [strcpyS_eq copied, RedisManager.redisUserID_redisLoginRes]
  exact Nat.lt_succ_of_le (strcpyS_length copied)

theorem UserIDsFit.redisAnswer {server next : ChatServer n} {worker : Nat}
    {value : Option Bytes} (fits : server.UserIDsFit)
    (taken : server.step (.redisAnswer worker value) = some next) : next.UserIDsFit := by
  have requests : ∀ task ∈ server.mRequestTask ++ server.workers.eraseIdx worker,
      UserIDFits (cString task.value.pData) := fun task member =>
    fits.requests task ((List.eraseIdx_sublist ..).append_left _ |>.subset member)
  simp only [step] at taken
  split at taken
  · cases taken
  · split at taken
    · obtain ⟨response, answered, rfl⟩ := Option.map_eq_some_iff.mp taken
      refine ⟨fits.stored, requests, List.forall_mem_append.mpr ⟨fits.responses, ?_⟩⟩
      exact List.forall_mem_singleton.mpr (redisAnswer_fits answered)
    · cases taken
      exact ⟨fits.stored, requests, fits.responses⟩

theorem UserIDsFit.logicStep {server next : ChatServer n} (fits : server.UserIDsFit)
    (keeps : server.KeepsIDs .logic) (taken : server.logicStep = some next) :
    next.UserIDsFit := by
  unfold ChatServer.logicStep at taken
  split at taken
  · rename_i quiet
    exact fits.processPacket quiet keeps taken
  · rename_i clearing ongoing
    have left := fits.stored.leaveRoomOnClear clearing.clientIndex
    split at taken
    · cases taken
      exact ⟨fits.stored, fits.requests, fits.responses⟩
    · cases taken
      unfold clear
      dsimp only
      split
      · exact ⟨left, fits.requests, fits.responses⟩
      · exact ⟨left.eraseAndClear clearing.clientIndex, fits.requests, fits.responses⟩
    · cases taken
      exact ⟨fits.stored.retireGeneration clearing.clientIndex, fits.requests, fits.responses⟩

theorem userIDsFit_step {server next : ChatServer n} {event : Event n}
    (fits : server.UserIDsFit) (keeps : server.KeepsIDs event)
    (taken : server.step event = some next) : next.UserIDsFit := by
  cases event with
  | logic => exact fits.logicStep keeps taken
  | redisAnswer worker value => exact fits.redisAnswer taken
  | setPacketData index connection =>
      cases step_cases taken with
      | setPacketData _ _ data given =>
          exact ⟨fits.stored.modifyUser index _ rfl, fits.requests, fits.responses⟩
  | redisTake =>
      cases step_cases taken with
      | redisTake task rest front =>
          refine ⟨fits.stored, fun other member => fits.requests other ?_, fits.responses⟩
          simp only [front, List.mem_append, List.mem_cons, List.not_mem_nil, or_false]
            at member ⊢
          tauto
  | accept index =>
      cases step_cases taken with
      | accept _ free => exact ⟨fits.stored, fits.requests, fits.responses⟩
  | onConnect index =>
      cases step_cases taken with
      | onConnect => exact ⟨fits.stored, fits.requests, fits.responses⟩
  | close index =>
      cases step_cases taken with
      | close _ isOpen => exact ⟨fits.stored, fits.requests, fits.responses⟩
  | receive index data =>
      cases step_cases taken with
      | receive _ _ idle nonempty => exact ⟨fits.stored, fits.requests, fits.responses⟩
  | enqueuePacketData index connection =>
      cases step_cases taken with
      | enqueuePacketData _ _ written => exact ⟨fits.stored, fits.requests, fits.responses⟩

/-- The next call finds IDs which fit and brings no other. -/
theorem UserIDsFit.nextCall {server : ChatServer n} (fits : server.UserIDsFit)
    (keeps : server.KeepsIDs .logic) {manager : PacketManager n} {call : RecvCall n}
    (next : server.nextCall = some (manager, call)) :
    manager.IDsFit ∧ manager.BringsFittingIDs call := by
  unfold ChatServer.nextCall at next
  split at next
  · obtain ⟨packet, _, same⟩ := Option.map_eq_some_iff.mp next
    cases same
    exact ⟨fits.stored, bringsFittingIDs_systemPacket ..⟩
  · rename_i index quiet phase
    obtain ⟨_, same⟩ := Option.ite_none_left_eq_some.mp next
    cases same
    exact ⟨(fits.takePacket index).stored, (keeps rfl quiet index phase).modifyUser index _⟩
  · split at next
    · cases next
    · rename_i task rest front
      obtain ⟨_, same⟩ := Option.ite_none_left_eq_some.mp next
      cases same
      have first := fits.responses task (front ▸ List.mem_cons_self)
      exact ⟨fits.stored, bringsFittingIDs_response _ _ first⟩
  · cases next

/-- From a good state the copies of a step fit. -/
theorem UserIDsFit.copiesFit {server : ChatServer n} {event : Event n}
    (fits : server.UserIDsFit) (keeps : server.KeepsIDs event) : server.CopiesFit event := by
  intro userID copied
  unfold copiedUserIDs at copied
  split at copied
  · split at copied
    · exact absurd copied List.not_mem_nil
    · rename_i manager call next
      obtain ⟨stored, brings⟩ := fits.nextCall keeps next
      exact stored.copies brings.2 copied
  · split at copied
    · exact absurd copied List.not_mem_nil
    · rename_i task busy
      split at copied
      · rw [List.mem_singleton.mp copied]
        exact fits.requests task (List.mem_append_right _ (List.mem_of_getElem? busy))
      · exact absurd copied List.not_mem_nil
  · exact absurd copied List.not_mem_nil

/-- Every stored ID and every copy fits in a run whose drain loop keeps to fitting IDs. -/
theorem userIDsFit_of_keepsIDs (memory : Fin n → Bytes) {events : List (Event n)}
    (keeps : Meets step KeepsIDs (init memory) events) :
    Always step (fun server => server.logic.IDsFit) (init memory) events ∧
      Meets step CopiesFit (init memory) events := by
  have fit := always_and_meets_of_meets
    (fun _ _ _ fits keeps taken => userIDsFit_step fits keeps taken)
    (fun _ _ fits keeps => UserIDsFit.copiesFit fits keeps) (userIDsFit_init memory) keeps
  exact ⟨fit.1.mono fun _ fits => fits.stored, fit.2⟩

/-- A client sends bytes and the server takes them. -/
def takesBytes (data : Bytes) : List (Event 1) :=
  [.receive 0 data, .setPacketData 0 1, .enqueuePacketData 0 1]

/-- A login through Redis with an ID of `MAX_USER_ID_LENGTH` letters, and a room. -/
def longestIDRun : List (Event 1) :=
  .accept 0 ::
    takesBytes (RecvCall.loginRequest (0 : Fin 1) (List.replicate maxUserIDLength 97)
      (text ['b'])).pPacket ++
    List.replicate 7 .logic ++ [.redisTake, .redisAnswer 0 (some (text ['b']))] ++
    List.replicate 5 .logic ++ takesBytes (RecvCall.roomEnterRequest (0 : Fin 1)).pPacket ++
    List.replicate 4 .logic

theorem longestIDRun_userIDsFit :
    (run? step (init clearedMemory) longestIDRun).map (fun last =>
        ((last.user 0).mUserID.length, (last.user 0).mCurDomainState)) =
      some (maxUserIDLength, .room) ∧
    Always step (fun server => server.logic.IDsFit) (init clearedMemory) longestIDRun ∧
      Meets step CopiesFit (init clearedMemory) longestIDRun :=
  ⟨by decide +kernel, userIDsFit_of_keepsIDs clearedMemory (by decide +kernel)⟩

/-- A load-test login whose `UserID` has 33 letters and no NUL, with an empty `UserPW`, and a
room. -/
def endlessIDRun : List (Event 1) :=
  .accept 0 ::
    takesBytes ((RecvCall.loginRequest (0 : Fin 1)
      (testUser ++ List.replicate (maxUserIDLength + 1 - testUser.length) 97) []).pPacket ++
      (RecvCall.roomEnterRequest (0 : Fin 1)).pPacket) ++
    List.replicate 4 .logic

/-- The ID is stored, and the copy for the room does not fit. -/
theorem endlessIDRun_not_userIDsFit :
    ¬Always step (fun server => server.logic.IDsFit) (init clearedMemory) endlessIDRun ∧
      ¬Meets step CopiesFit (init clearedMemory) (endlessIDRun ++ [.logic]) := by
  refine ⟨fun always => ?_, by decide +kernel⟩
  have seen : (run? step (init clearedMemory) endlessIDRun).map
      (fun last => (last.user 0).mUserID.length) = some (maxUserIDLength + 1) := by
    decide +kernel
  obtain ⟨last, fits, observed⟩ := always.observed seen
  have short : (last.user 0).mUserID.length ≤ maxUserIDLength := fits.users 0
  rw [observed] at short
  exact absurd short (by decide)

/-- A request without a NUL in `UserID` reaches a Redis worker. -/
example : ¬Meets step CopiesFit (init clearedMemory)
    (.accept 0 :: takesBytes (RecvCall.loginRequest (0 : Fin 1)
      (List.replicate (maxUserIDLength + 1) 97) []).pPacket ++
      List.replicate 4 .logic ++ [.redisTake, .redisAnswer 0 none]) := by
  decide +kernel

end ChatServer

end IOCPChatServer

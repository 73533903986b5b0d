import IOCPChatServer.Logic.Calls

/-!
# Rejected requests

A handler which answers with an error code has changed nothing: the response is the only
trace of the call.  Each handler is shown to end in one of two ways, and the two are
told apart by the `Result` fields of what it sent.
-/

namespace IOCPChatServer

/-- The `Result` field of a response; a notification has none. -/
def ServerPacket.result : ServerPacket → Option Nat
  | .loginResponse Result => some Result
  | .roomEnterResponse Result => some Result
  | .roomLeaveResponse Result => some Result
  | .roomChatResponse Result => some Result
  | .roomChatNotify _ _ => none

/-- A response whose `Result` is an error. -/
def ServerPacket.IsRejection (packet : ServerPacket) : Prop :=
  ∃ Result, packet.result = some Result ∧ Result ≠ ErrorCode.none.code

namespace PacketManager

variable {n : Nat}

/-- The calls of `SendPacketFunc` between two states of a run. -/
def newPackets (before after : PacketManager n) : List (Fin n × ServerPacket) :=
  after.sentPackets.drop before.sentPackets.length

theorem newPackets_of_append {before after : PacketManager n}
    {packets : List (Fin n × ServerPacket)}
    (sent : after.sentPackets = before.sentPackets ++ packets) :
    before.newPackets after = packets := by
  rw [newPackets, sent, List.drop_left]

/-- The two ways in which a handler ends. -/
inductive Answered (manager : PacketManager n) (index : Fin n) : PacketManager n → Prop where
  | rejected (response : ServerPacket) : Answered manager index (manager.send index response)
  | accepted (after : PacketManager n) (packets : List (Fin n × ServerPacket))
      (sent : after.sentPackets = manager.sentPackets ++ packets)
      (noRejection : ∀ packet ∈ packets, ¬ packet.2.IsRejection) :
      Answered manager index after

theorem not_isRejection_of_none {packet : ServerPacket}
    (result : packet.result = some ErrorCode.none.code) : ¬ packet.IsRejection := by
  rintro ⟨Result, found, rejected⟩
  exact rejected (Option.some.inj (found.symm.trans result))

theorem not_isRejection_notify (UserID Message : Bytes) :
    ¬ (ServerPacket.roomChatNotify UserID Message).IsRejection := by
  rintro ⟨Result, found, _⟩
  cases found

/-- A handler which sends nothing. -/
theorem Answered.silent {manager after : PacketManager n} {index : Fin n}
    (sent : after.sentPackets = manager.sentPackets) : manager.Answered index after :=
  .accepted after [] (by rw [sent, List.append_nil]) nofun

/-- A handler which sends a response without an error, and notifications before it. -/
theorem Answered.success {manager after : PacketManager n} {index : Fin n}
    {packets : List (Fin n × ServerPacket)} {response : ServerPacket}
    (sent : after.sentPackets = manager.sentPackets ++ packets ++ [(index, response)])
    (noRejection : ∀ packet ∈ packets, ¬ packet.2.IsRejection)
    (result : response.result = some ErrorCode.none.code) : manager.Answered index after := by
  refine .accepted after (packets ++ [(index, response)]) ?_ fun packet member => ?_
  · rw [sent, List.append_assoc]
  · rcases List.mem_append.mp member with before | last
    · exact noRejection packet before
    · rw [List.mem_singleton.mp last]
      exact not_isRejection_of_none result

/-- `NotifyChat` sends notifications and nothing else. -/
theorem notifyChat_sentPackets {manager after : PacketManager n} {room : Option Nat}
    {index : Fin n} {userID message : Bytes}
    (notified : manager.notifyChat room index userID message = some after) :
    ∃ packets, after.sentPackets = manager.sentPackets ++ packets ∧
      ∀ packet ∈ packets, ¬ packet.2.IsRejection := by
  cases room with
  | none =>
      cases notified
      exact ⟨[], (List.append_nil _).symm, nofun⟩
  | some position =>
      obtain ⟨notifications, told, rfl⟩ := Option.map_eq_some_iff.mp notified
      refine ⟨notifications, rfl, fun packet member => ?_⟩
      obtain ⟨UserID, _, copied⟩ := Option.bind_eq_some_iff.mp told
      obtain ⟨Message, _, sent⟩ := Option.bind_eq_some_iff.mp copied
      cases sent
      obtain ⟨receiver, _, rfl⟩ := List.mem_map.mp member
      exact not_isRejection_notify UserID Message

/-! ## One lemma for each handler -/

theorem processLogin_answered (manager : PacketManager n) (index : Fin n) (packetSize : Nat)
    (pPacket : Bytes) :
    manager.Answered index (manager.processLogin index packetSize pPacket) := by
  unfold processLogin
  split
  · exact .silent rfl
  · dsimp only
    split
    · refine .accepted _ [(index, .loginResponse ErrorCode.none.code)] ?_ ?_
      · cases (manager.modifyUser index fun user =>
          user.setLogin (loginUserID pPacket)).mUserManager.addUser (loginUserID pPacket) index
        rfl
      · exact fun packet member => not_isRejection_of_none (List.mem_singleton.mp member ▸ rfl)
    · split
      · exact .rejected _
      · split
        · exact .rejected _
        · split
          · exact .silent rfl
          · exact .rejected _

/-- `ProcessLoginDBResult` answers the index in any case. -/
theorem processLoginDBResult_sends {manager after : PacketManager n} {index : Fin n}
    {pPacket : Bytes} (completed : manager.processLoginDBResult index pPacket = some after) :
    after.sentPackets = manager.sentPackets ++
      [(index, .loginResponse (manager.loginResultCode index pPacket))] := by
  unfold processLoginDBResult at completed
  dsimp only at completed
  split at completed
  · split at completed
    · obtain ⟨userID, _, sent⟩ := Option.bind_eq_some_iff.mp completed
      cases sent
      rfl
    · cases completed
      rfl
  · cases completed
    rfl

theorem processLoginDBResult_answered {manager after : PacketManager n} {index : Fin n}
    {pPacket : Bytes} (completed : manager.processLoginDBResult index pPacket = some after) :
    manager.Answered index after := by
  unfold processLoginDBResult at completed
  dsimp only at completed
  split at completed
  · rename_i succeeded
    split at completed
    · rename_i added
      obtain ⟨userID, _, logged⟩ := Option.bind_eq_some_iff.mp completed
      cases logged
      have Result : manager.loginResultCode index pPacket = ErrorCode.none.code := by
        rw [loginResultCode, if_pos succeeded, if_pos added]
      refine .accepted _ [(index, .loginResponse (manager.loginResultCode index pPacket))] rfl
        fun packet member => ?_
      rw [List.mem_singleton.mp member]
      exact not_isRejection_of_none (congrArg some Result)
    · cases completed
      exact .rejected _
  · cases completed
    exact .rejected _

/-- A failed `RoomManager::EnterUser` leaves rooms and slots as they are. -/
theorem enterUser_of_failed {manager : PacketManager n} {roomNumber : Int} {index : Fin n}
    (failed : (manager.enterUser roomNumber index).1 ≠ .none) :
    (manager.enterUser roomNumber index).2 = manager := by
  unfold enterUser RoomManager.enterUser Room.enterUser at failed ⊢
  cases located : manager.mRoomManager.getRoomByNumber roomNumber with
  | none => rfl
  | some room =>
      rw [located] at failed
      dsimp only at failed ⊢
      split at failed
      · rename_i full
        simp [full, RoomManager.setRoom]
      · exact absurd rfl failed

/-- A failed `RoomManager::LeaveUser` leaves rooms and slots as they are. -/
theorem leaveUser_of_failed {manager : PacketManager n} {roomNumber : Int} {index : Fin n}
    (failed : (manager.leaveUser roomNumber index).1 ≠ .none) :
    (manager.leaveUser roomNumber index).2 = manager := by
  unfold leaveUser RoomManager.leaveUser at failed ⊢
  cases located : manager.mRoomManager.getRoomByNumber roomNumber with
  | none => rfl
  | some room =>
      rw [located] at failed
      exact absurd rfl failed

theorem processEnterRoom_answered {manager after : PacketManager n} {index : Fin n}
    {pPacket : Bytes} (completed : manager.processEnterRoom index pPacket = some after) :
    manager.Answered index after := by
  unfold processEnterRoom at completed
  dsimp only at completed
  split at completed
  · cases completed
    exact .rejected _
  · split at completed
    · rename_i entered
      obtain ⟨userID, _, logged⟩ := Option.bind_eq_some_iff.mp completed
      obtain ⟨notified, told, sent⟩ := Option.bind_eq_some_iff.mp logged
      cases sent
      obtain ⟨packets, added, noRejection⟩ := notifyChat_sentPackets told
      have result : (ServerPacket.roomEnterResponse
          (manager.enterUser (enterRoomNumber pPacket) index).1.code).result =
            some ErrorCode.none.code :=
        congrArg (fun error : ErrorCode => some error.code) entered
      exact .success (congrArg (· ++ _) added) noRejection result
    · rename_i failed
      cases completed
      rw [enterUser_of_failed failed]
      exact .rejected _

theorem processLeaveRoom_answered {manager after : PacketManager n} {index : Fin n}
    (completed : manager.processLeaveRoom index = some after) :
    manager.Answered index after := by
  unfold processLeaveRoom at completed
  dsimp only at completed
  split at completed
  · rename_i left
    obtain ⟨userID, _, logged⟩ := Option.bind_eq_some_iff.mp completed
    obtain ⟨notified, told, sent⟩ := Option.bind_eq_some_iff.mp logged
    cases sent
    obtain ⟨packets, added, noRejection⟩ := notifyChat_sentPackets told
    have result : (ServerPacket.roomLeaveResponse
        (manager.leaveUser (manager.user index).roomIndex index).1.code).result =
          some ErrorCode.none.code :=
      congrArg (fun error : ErrorCode => some error.code) left
    exact .success (congrArg (· ++ _) added) noRejection result
  · rename_i failed
    cases completed
    rw [leaveUser_of_failed failed]
    exact .rejected _

theorem processRoomChatMessage_answered {manager after : PacketManager n} {index : Fin n}
    {pPacket : Bytes}
    (completed : manager.processRoomChatMessage index pPacket = some after) :
    manager.Answered index after := by
  unfold processRoomChatMessage at completed
  dsimp only at completed
  split at completed
  · cases completed
    exact .rejected _
  · split at completed
    · cases completed
      exact .rejected _
    · obtain ⟨userID, _, copied⟩ := Option.bind_eq_some_iff.mp completed
      obtain ⟨message, _, told⟩ := Option.bind_eq_some_iff.mp copied
      obtain ⟨packets, added, noRejection⟩ := notifyChat_sentPackets told
      refine .accepted after ((index, .roomChatResponse ErrorCode.none.code) :: packets) ?_ ?_
      · rw [added]
        exact List.append_assoc ..
      · intro packet member
        rcases List.mem_cons.mp member with rfl | notification
        · exact not_isRejection_of_none rfl
        · exact noRejection packet notification

/-- `ClearConnectionInfo` sends nothing. -/
theorem clearConnectionInfo_sentPackets (manager : PacketManager n) (index : Fin n) :
    (manager.clearConnectionInfo index).sentPackets = manager.sentPackets := by
  unfold clearConnectionInfo leaveRoomOnClear
  dsimp only
  split <;> split <;> rfl

theorem recv_answered {manager next : PacketManager n} {call : RecvCall n}
    (taken : manager.recv call = some next) : manager.Answered call.clientIndex next := by
  unfold recv processRecvPacket at taken
  cases found : findHandler call.packetId with
  | none =>
      simp only [found] at taken
      cases taken
      exact .silent rfl
  | some handler =>
      simp only [found] at taken
      cases handler with
      | processUserConnect =>
          cases taken
          exact .silent rfl
      | processUserDisconnect =>
          cases taken
          exact .silent (manager.clearConnectionInfo_sentPackets call.clientIndex)
      | processLogin =>
          cases taken
          exact processLogin_answered manager call.clientIndex call.packetSize call.pPacket
      | processLoginDBResult => exact processLoginDBResult_answered taken
      | processEnterRoom => exact processEnterRoom_answered taken
      | processLeaveRoom => exact processLeaveRoom_answered taken
      | processRoomChatMessage => exact processRoomChatMessage_answered taken
      | pong =>
          cases taken
          exact .silent rfl

/--
A call which sends a response with an error sends nothing else, answers the slot which it
is about, and changes no slot, dictionary entry, counter, room or queue.
-/
theorem recv_of_rejected {manager next : PacketManager n} {call : RecvCall n}
    {receiver : Fin n} {response : ServerPacket} (taken : manager.recv call = some next)
    (sent : (receiver, response) ∈ manager.newPackets next)
    (rejected : response.IsRejection) :
    receiver = call.clientIndex ∧ next = manager.send call.clientIndex response := by
  cases recv_answered taken with
  | rejected answer =>
      rw [newPackets_of_append rfl, List.mem_singleton] at sent
      obtain ⟨rfl, rfl⟩ := Prod.mk.inj sent
      exact ⟨rfl, rfl⟩
  | accepted after packets added noRejection =>
      rw [newPackets_of_append added] at sent
      exact absurd rejected (noRejection _ sent)

/-- An enter request of a slot which is not logged in. -/
theorem recv_of_rejected_roomEnterRequest :
    ∃ next, (PacketManager.init fun _ => []).recv (.roomEnterRequest (0 : Fin 1)) = some next ∧
      next = (PacketManager.init fun _ => []).send 0
        (.roomEnterResponse ErrorCode.enterRoomInvalidUserStatus.code) := by
  have rejected : (ServerPacket.roomEnterResponse
      ErrorCode.enterRoomInvalidUserStatus.code).IsRejection := ⟨_, rfl, by decide⟩
  have taken : (PacketManager.init fun _ => []).recv (.roomEnterRequest (0 : Fin 1)) =
      some ((PacketManager.init fun _ => []).send 0
        (.roomEnterResponse ErrorCode.enterRoomInvalidUserStatus.code)) := rfl
  exact ⟨_, taken, (recv_of_rejected taken (List.mem_singleton_self _) rejected).2⟩

end PacketManager

end IOCPChatServer

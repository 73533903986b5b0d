import IOCPChatServer.PacketManager

/-!
# The temporary packet buffer

`GetPacket` copies a packet to the front of `m_tempPacketBuffer` of its slot and hands
out the whole buffer.  No handler touches the field itself: a handler called on a state
whose slot holds other bytes there does the same, and leaves these bytes.
-/

namespace IOCPChatServer

def User.withBuffer (user : User) (bytes : Bytes) : User :=
  { user with m_tempPacketBuffer := bytes }

namespace UserManager

variable {n : Nat}

def withBuffer (manager : UserManager n) (index : Fin n) (bytes : Bytes) : UserManager n :=
  manager.modifyUser index (·.withBuffer bytes)

theorem modifyUser_withBuffer (manager : UserManager n) (index : Fin n) (bytes : Bytes)
    (change : User → User)
    (commutes : ∀ user : User, change (user.withBuffer bytes) = (change user).withBuffer bytes) :
    (manager.withBuffer index bytes).modifyUser index change =
      (manager.modifyUser index change).withBuffer index bytes := by
  simp [withBuffer, modifyUser, commutes]

theorem addUser_withBuffer (manager : UserManager n) (userID : Bytes) (index : Fin n)
    (bytes : Bytes) :
    (manager.withBuffer index bytes).addUser userID index =
      ((manager.addUser userID index).1,
        (manager.addUser userID index).2.withBuffer index bytes) := by
  have dictionary : (manager.withBuffer index bytes).mUserIDDictionary =
      manager.mUserIDDictionary := rfl
  unfold addUser
  rw [dictionary]
  cases manager.mUserIDDictionary userID with
  | some owner => rfl
  | none =>
      have loggedIn := modifyUser_withBuffer manager index bytes
        (fun user => user.setLogin userID) (fun _ => rfl)
      dsimp only
      rw [loggedIn]
      rfl

end UserManager

namespace PacketManager

variable {n : Nat}

def withBuffer (manager : PacketManager n) (index : Fin n) (bytes : Bytes) : PacketManager n :=
  { manager with mUserManager := manager.mUserManager.withBuffer index bytes }

@[simp]
theorem user_withBuffer_self (manager : PacketManager n) (index : Fin n) (bytes : Bytes) :
    (manager.withBuffer index bytes).user index = (manager.user index).withBuffer bytes :=
  Function.update_self ..

theorem withBuffer_withBuffer (manager : PacketManager n) (index : Fin n)
    (first second : Bytes) :
    (manager.withBuffer index first).withBuffer index second =
      manager.withBuffer index second := by
  simp [withBuffer, UserManager.withBuffer, UserManager.modifyUser, User.withBuffer]

/-- A slot is replaced as a whole. -/
theorem replaceUser_withBuffer (manager : PacketManager n) (index : Fin n) (user : User)
    (before after : Bytes) :
    (manager.withBuffer index before).modifyUser index (fun _ => user.withBuffer after) =
      (manager.modifyUser index (fun _ => user)).withBuffer index after := by
  simp [withBuffer, modifyUser, UserManager.withBuffer, UserManager.modifyUser]

/-- The slot holds these bytes already. -/
theorem withBuffer_eq_self {manager : PacketManager n} {index : Fin n} {bytes : Bytes}
    (same : (manager.user index).m_tempPacketBuffer = bytes) :
    manager.withBuffer index bytes = manager := by
  cases same
  have unchanged : Function.update manager.mUserManager.mUserObjPool index
      ((manager.mUserManager.mUserObjPool index).withBuffer
        (manager.user index).m_tempPacketBuffer) = manager.mUserManager.mUserObjPool :=
    Function.update_eq_self ..
  unfold withBuffer UserManager.withBuffer UserManager.modifyUser
  dsimp only
  rw [unchanged]

/-- What is left of the buffer after a change which keeps the slot apart from it. -/
theorem modifyUser_withBuffer_self (manager : PacketManager n) (index : Fin n)
    (bytes : Bytes) (change : Bytes → Bytes) :
    (manager.withBuffer index bytes).modifyUser index
        (fun user => { user with m_tempPacketBuffer := change user.m_tempPacketBuffer }) =
      manager.withBuffer index (change bytes) := by
  simp [withBuffer, modifyUser, UserManager.withBuffer, UserManager.modifyUser,
    User.withBuffer]

theorem loginResultCode_withBuffer (manager : PacketManager n) (index : Fin n)
    (pPacket bytes : Bytes) :
    (manager.withBuffer index bytes).loginResultCode index pPacket =
      manager.loginResultCode index pPacket := by
  have added := manager.mUserManager.addUser_withBuffer (redisUserID pPacket) index bytes
  have users : (manager.withBuffer index bytes).mUserManager =
      manager.mUserManager.withBuffer index bytes := rfl
  unfold loginResultCode
  rw [users, added]

/-! ## The room manager -/

theorem enterUser_withBuffer (manager : PacketManager n) (roomNumber : Int) (index : Fin n)
    (bytes : Bytes) :
    (manager.withBuffer index bytes).enterUser roomNumber index =
      ((manager.enterUser roomNumber index).1,
        (manager.enterUser roomNumber index).2.withBuffer index bytes) := by
  have rooms : (manager.withBuffer index bytes).mRoomManager = manager.mRoomManager := rfl
  unfold enterUser RoomManager.enterUser
  rw [rooms]
  cases manager.mRoomManager.getRoomByNumber roomNumber with
  | none => rfl
  | some position =>
      unfold Room.enterUser
      dsimp only
      split
      · rfl
      · simp [withBuffer, UserManager.withBuffer, UserManager.modifyUser, User.withBuffer,
          User.enterRoom]

theorem leaveUser_withBuffer (manager : PacketManager n) (roomNumber : Int) (index : Fin n)
    (bytes : Bytes) :
    (manager.withBuffer index bytes).leaveUser roomNumber index =
      ((manager.leaveUser roomNumber index).1,
        (manager.leaveUser roomNumber index).2.withBuffer index bytes) := by
  have rooms : (manager.withBuffer index bytes).mRoomManager = manager.mRoomManager := rfl
  unfold leaveUser RoomManager.leaveUser
  rw [rooms]
  cases manager.mRoomManager.getRoomByNumber roomNumber with
  | none => rfl
  | some position =>
      simp [withBuffer, UserManager.withBuffer, UserManager.modifyUser, User.withBuffer,
        User.setDomainState]

theorem notifyChat_withBuffer (manager : PacketManager n) (room : Option Nat) (index : Fin n)
    (userID message : Bytes) (bytes : Bytes) :
    (manager.withBuffer index bytes).notifyChat room index userID message =
      (manager.notifyChat room index userID message).map (·.withBuffer index bytes) := by
  cases room with
  | none => rfl
  | some position =>
      unfold notifyChat
      rw [Option.map_map]
      rfl

/-! ## The handlers -/

theorem processLogin_withBuffer (manager : PacketManager n) (index : Fin n) (packetSize : Nat)
    (pPacket bytes : Bytes) :
    (manager.withBuffer index bytes).processLogin index packetSize pPacket =
      (manager.processLogin index packetSize pPacket).withBuffer index bytes := by
  have find : (manager.withBuffer index bytes).mUserManager.findUserIndexByID =
      manager.mUserManager.findUserIndexByID := rfl
  have count : (manager.withBuffer index bytes).mUserManager.mCurrentUserCnt =
      manager.mUserManager.mCurrentUserCnt := rfl
  have loggedIn : (manager.withBuffer index bytes).modifyUser index
        (fun user => user.setLogin (loginUserID pPacket)) =
      (manager.modifyUser index
        (fun user => user.setLogin (loginUserID pPacket))).withBuffer index bytes :=
    congrArg (fun users => { manager with mUserManager := users })
      (manager.mUserManager.modifyUser_withBuffer index bytes _ (fun _ => rfl))
  have added := (manager.modifyUser index
    (fun user => user.setLogin (loginUserID pPacket))).mUserManager.addUser_withBuffer
      (loginUserID pPacket) index bytes
  unfold processLogin
  dsimp only
  rw [find, count, loggedIn]
  split
  · rfl
  · split
    · have users := congrArg Prod.snd added
      exact congrArg (fun users => PacketManager.send { (manager.modifyUser index
        (fun user => user.setLogin (loginUserID pPacket))) with mUserManager := users } index _)
        users
    · split
      · rfl
      · split
        · rfl
        · split
          · rfl
          · rfl

theorem processLoginDBResult_withBuffer (manager : PacketManager n) (index : Fin n)
    (pPacket bytes : Bytes) :
    (manager.withBuffer index bytes).processLoginDBResult index pPacket =
      (manager.processLoginDBResult index pPacket).map (·.withBuffer index bytes) := by
  have added := manager.mUserManager.addUser_withBuffer (redisUserID pPacket) index bytes
  have users : (manager.withBuffer index bytes).mUserManager =
      manager.mUserManager.withBuffer index bytes := rfl
  unfold processLoginDBResult loginResultCode
  rw [users, added]
  generalize manager.mUserManager.addUser (redisUserID pPacket) index = entered
  have userID : ((entered.2.withBuffer index bytes).increaseUserCnt.mUserObjPool index).mUserID =
      (entered.2.increaseUserCnt.mUserObjPool index).mUserID := by
    simp [UserManager.withBuffer, UserManager.modifyUser, UserManager.increaseUserCnt,
      User.withBuffer]
  dsimp only
  split
  · split
    · unfold user
      dsimp only
      rw [userID]
      cases strcpyS (maxUserIDLength + 1)
        (entered.2.increaseUserCnt.mUserObjPool index).mUserID with
      | none => rfl
      | some copied => rfl
    · rfl
  · rfl

theorem mUserID_withBuffer (manager : PacketManager n) (index : Fin n) (bytes : Bytes) :
    ((manager.withBuffer index bytes).user index).mUserID = (manager.user index).mUserID := by
  rw [user_withBuffer_self]
  rfl

theorem mCurDomainState_withBuffer (manager : PacketManager n) (index : Fin n)
    (bytes : Bytes) :
    ((manager.withBuffer index bytes).user index).mCurDomainState =
      (manager.user index).mCurDomainState := by
  rw [user_withBuffer_self]
  rfl

theorem roomIndex_withBuffer (manager : PacketManager n) (index : Fin n) (bytes : Bytes) :
    ((manager.withBuffer index bytes).user index).roomIndex =
      (manager.user index).roomIndex := by
  rw [user_withBuffer_self]
  rfl

/-- The tail which entering and leaving a room have in common: the database task, the
notification of the room and the response. -/
theorem roomEvent_withBuffer (manager : PacketManager n) (index : Fin n) (bytes : Bytes)
    (task : Bytes → MySQLTask n) (room : Option Nat) (message : Bytes)
    (response : ServerPacket) :
    (do
      let userID ← strcpyS (maxUserIDLength + 1)
        ((manager.withBuffer index bytes).user index).mUserID
      let logged := (manager.withBuffer index bytes).pushMySQLTask (task userID)
      let notified ← logged.notifyChat room index (logged.user index).mUserID message
      pure (notified.send index response)) =
    (do
      let userID ← strcpyS (maxUserIDLength + 1) (manager.user index).mUserID
      let logged := manager.pushMySQLTask (task userID)
      let notified ← logged.notifyChat room index (logged.user index).mUserID message
      pure (notified.send index response) : Option (PacketManager n)).map
        (·.withBuffer index bytes) := by
  rw [mUserID_withBuffer]
  cases strcpyS (maxUserIDLength + 1) (manager.user index).mUserID with
  | none => rfl
  | some userID =>
      have logged : (manager.withBuffer index bytes).pushMySQLTask (task userID) =
          (manager.pushMySQLTask (task userID)).withBuffer index bytes := rfl
      simp only [Option.bind_eq_bind, Option.bind_some]
      rw [logged, mUserID_withBuffer, notifyChat_withBuffer]
      cases (manager.pushMySQLTask (task userID)).notifyChat room index
        ((manager.pushMySQLTask (task userID)).user index).mUserID message with
      | none => rfl
      | some notified => rfl

theorem processEnterRoom_withBuffer (manager : PacketManager n) (index : Fin n)
    (pPacket bytes : Bytes) :
    (manager.withBuffer index bytes).processEnterRoom index pPacket =
      (manager.processEnterRoom index pPacket).map (·.withBuffer index bytes) := by
  unfold processEnterRoom
  rw [mCurDomainState_withBuffer]
  dsimp only
  rw [enterUser_withBuffer]
  generalize manager.enterUser (enterRoomNumber pPacket) index = entered
  dsimp only
  split
  · rfl
  · split
    · exact roomEvent_withBuffer entered.2 index bytes
        (fun userID => .insertRoomEvent index userID (enterRoomNumber pPacket) .enter)
        (entered.2.mRoomManager.getRoomByNumber (enterRoomNumber pPacket)) enteredText _
    · rfl

theorem processLeaveRoom_withBuffer (manager : PacketManager n) (index : Fin n)
    (bytes : Bytes) :
    (manager.withBuffer index bytes).processLeaveRoom index =
      (manager.processLeaveRoom index).map (·.withBuffer index bytes) := by
  have rooms : (manager.withBuffer index bytes).mRoomManager = manager.mRoomManager := rfl
  unfold processLeaveRoom
  rw [roomIndex_withBuffer, rooms]
  dsimp only
  rw [leaveUser_withBuffer]
  generalize manager.leaveUser (manager.user index).roomIndex index = left
  dsimp only
  split
  · exact roomEvent_withBuffer left.2 index bytes
      (fun userID => .insertRoomEvent index userID (manager.user index).roomIndex .leave)
      (manager.mRoomManager.getRoomByNumber (manager.user index).roomIndex) leftText _
  · rfl

theorem processRoomChatMessage_withBuffer (manager : PacketManager n) (index : Fin n)
    (pPacket bytes : Bytes) :
    (manager.withBuffer index bytes).processRoomChatMessage index pPacket =
      (manager.processRoomChatMessage index pPacket).map (·.withBuffer index bytes) := by
  have rooms : (manager.withBuffer index bytes).mRoomManager = manager.mRoomManager := rfl
  unfold processRoomChatMessage
  rw [mCurDomainState_withBuffer, roomIndex_withBuffer, rooms]
  dsimp only
  split
  · rfl
  · split
    · rfl
    · rename_i room located
      have responded : (manager.withBuffer index bytes).send index
          (.roomChatResponse ErrorCode.none.code) =
          (manager.send index (.roomChatResponse ErrorCode.none.code)).withBuffer index bytes :=
        rfl
      rw [responded, mUserID_withBuffer]
      generalize manager.send index (.roomChatResponse ErrorCode.none.code) = answered
      cases strcpyS (maxUserIDLength + 1) (answered.user index).mUserID with
      | none => rfl
      | some userID =>
          cases strcpyS (maxChatMsg + 1) (chatMessage pPacket) with
          | none => rfl
          | some message =>
              have logged : (answered.withBuffer index bytes).pushMySQLTask
                  (.insertChatMessage index userID (manager.user index).roomIndex message) =
                  (answered.pushMySQLTask (.insertChatMessage index userID
                    (manager.user index).roomIndex message)).withBuffer index bytes := rfl
              simp only [Option.bind_eq_bind, Option.bind_some]
              rw [logged, mUserID_withBuffer, notifyChat_withBuffer]

/-- `ProcessRecvPacket` for everything but a disconnect. -/
theorem processRecvPacket_withBuffer (manager : PacketManager n) (index : Fin n)
    {packetId : Nat} (packetSize : Nat) (pPacket bytes : Bytes)
    (other : findHandler packetId ≠ some .processUserDisconnect) :
    (manager.withBuffer index bytes).processRecvPacket index packetId packetSize pPacket =
      (manager.processRecvPacket index packetId packetSize pPacket).map
        (·.withBuffer index bytes) := by
  unfold processRecvPacket
  cases found : findHandler packetId with
  | none => rfl
  | some handler =>
      cases handler with
      | processUserConnect => rfl
      | processUserDisconnect => exact absurd found other
      | processLogin =>
          exact congrArg some (manager.processLogin_withBuffer index packetSize pPacket bytes)
      | processLoginDBResult => exact manager.processLoginDBResult_withBuffer index pPacket bytes
      | processEnterRoom => exact manager.processEnterRoom_withBuffer index pPacket bytes
      | processLeaveRoom => exact manager.processLeaveRoom_withBuffer index bytes
      | processRoomChatMessage =>
          exact manager.processRoomChatMessage_withBuffer index pPacket bytes
      | pong => rfl

end PacketManager

end IOCPChatServer

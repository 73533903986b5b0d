import IOCPChatServer.PacketManager

/-!
# What one packet does to the logic layer

An abstract description of the handlers: a packet for slot `index` changes that
slot, possibly one dictionary entry, one room and the user counter, in one of six
ways.  `processRecvPacket_effect` shows that every completed call of
`ProcessRecvPacket` is its `PacketEffect`; the invariants of the logic layer are
proved over the six effects and never over the handlers.
-/

namespace IOCPChatServer

/-- The six ways in which a packet changes slots, dictionary, rooms and counter. -/
inductive PacketEffect where
  | keep
  | testLogin (userID : Bytes)
  | redisLogin (userID : Bytes)
  | disconnect
  | enter (room : Nat)
  | leave (room : Nat)
  deriving DecidableEq, Repr

namespace PacketEffect

variable {n : Nat}

/-- The slot which the packet belongs to. -/
def onSlot (rooms : RoomManager n) (user : User) : PacketEffect → User
  | .keep => user
  | .testLogin userID => user.setLogin userID
  | .redisLogin userID => user.setLogin userID
  | .disconnect =>
      if user.mCurDomainState = .none then user else user.clear.incrementGeneration
  | .enter room => user.enterRoom (rooms.mRoomList room).mRoomNumber
  | .leave _ => user.setDomainState .login

/-- The dictionary of logged-in user IDs. -/
def onDictionary (user : User) (index : Fin n) (dictionary : Bytes → Option (Fin n)) :
    PacketEffect → Bytes → Option (Fin n)
  | .testLogin userID =>
      if dictionary userID = none then Function.update dictionary userID (some index)
      else dictionary
  | .redisLogin userID => Function.update dictionary userID (some index)
  | .disconnect =>
      if user.mCurDomainState = .none then dictionary
      else Function.update dictionary user.mUserID none
  | _ => dictionary

/-- A room after a slot has joined it. -/
def joined (room : Room n) (index : Fin n) : Room n :=
  { room with
    mUserList := room.mUserList ++ [index]
    mCurrentUserCount := room.mCurrentUserCount + 1 }

/-- The rooms. -/
def onRooms (user : User) (index : Fin n) (rooms : RoomManager n) :
    PacketEffect → RoomManager n
  | .disconnect =>
      if user.mCurDomainState = .room then
        match rooms.getRoomByNumber user.roomIndex with
        | none => rooms
        | some room => rooms.setRoom room ((rooms.mRoomList room).leaveUser index)
      else rooms
  | .enter room => rooms.setRoom room (joined (rooms.mRoomList room) index)
  | .leave room => rooms.setRoom room ((rooms.mRoomList room).leaveUser index)
  | _ => rooms

/-- The counter of logged-in users. -/
def onCount (user : User) (count : Nat) : PacketEffect → Nat
  | .redisLogin _ => count + 1
  | .disconnect => if user.mCurDomainState = .none then count else count - 1
  | _ => count

end PacketEffect

namespace PacketManager

variable {n : Nat}

/-- The effect of a packet, from the state before it. -/
def packetEffect (manager : PacketManager n) (index : Fin n) (packetId packetSize : Nat)
    (pPacket : Bytes) : PacketEffect :=
  match findHandler packetId with
  | some .processUserDisconnect => .disconnect
  | some .processLogin =>
      if packetSize = loginRequestPacketSize ∧ isTestUser (loginUserID pPacket) then
        .testLogin (loginUserID pPacket)
      else .keep
  | some .processLoginDBResult =>
      if redisResult pPacket = ErrorCode.none.code ∧
          manager.mUserManager.mUserIDDictionary (redisUserID pPacket) = none then
        .redisLogin (redisUserID pPacket)
      else .keep
  | some .processEnterRoom =>
      match manager.mRoomManager.getRoomByNumber (enterRoomNumber pPacket) with
      | none => .keep
      | some room =>
          if (manager.user index).mCurDomainState = .login ∧
              (manager.mRoomManager.mRoomList room).mCurrentUserCount <
                (manager.mRoomManager.mRoomList room).mMaxUserCount then
            .enter room
          else .keep
  | some .processLeaveRoom =>
      match manager.mRoomManager.getRoomByNumber (manager.user index).roomIndex with
      | none => .keep
      | some room => .leave room
  | _ => .keep

/-- The state after a packet is the state before it changed by an effect. -/
structure ChangedBy (before : PacketManager n) (index : Fin n) (effect : PacketEffect)
    (after : PacketManager n) : Prop where
  slots : after.mUserManager.mUserObjPool =
    Function.update before.mUserManager.mUserObjPool index
      (effect.onSlot before.mRoomManager (before.user index))
  dictionary : after.mUserManager.mUserIDDictionary =
    effect.onDictionary (before.user index) index before.mUserManager.mUserIDDictionary
  rooms : after.mRoomManager =
    effect.onRooms (before.user index) index before.mRoomManager
  count : after.mUserManager.mCurrentUserCnt =
    effect.onCount (before.user index) before.mUserManager.mCurrentUserCnt

/-! ## The logs do not matter -/

theorem ChangedBy.of_managers {before middle after : PacketManager n} {index : Fin n}
    {effect : PacketEffect} (changed : before.ChangedBy index effect middle)
    (users : after.mUserManager = middle.mUserManager)
    (rooms : after.mRoomManager = middle.mRoomManager) :
    before.ChangedBy index effect after := by
  obtain ⟨slots, dictionary, roomList, count⟩ := changed
  exact ⟨users ▸ slots, users ▸ dictionary, rooms ▸ roomList, users ▸ count⟩

theorem changedBy_keep (manager : PacketManager n) (index : Fin n) :
    manager.ChangedBy index .keep manager :=
  ⟨(Function.update_eq_self index manager.mUserManager.mUserObjPool).symm, rfl, rfl, rfl⟩

theorem notifyChat_managers {manager after : PacketManager n} {room : Option Nat}
    {index : Fin n} {userID message : Bytes}
    (notified : manager.notifyChat room index userID message = some after) :
    after.mUserManager = manager.mUserManager ∧
      after.mRoomManager = manager.mRoomManager := by
  cases room with
  | none =>
      cases notified
      exact ⟨rfl, rfl⟩
  | some position =>
      obtain ⟨notifications, _, rfl⟩ := Option.map_eq_some_iff.mp notified
      exact ⟨rfl, rfl⟩

/-! ## One lemma for each handler -/

theorem setLogin_setLogin (user : User) (userID : Bytes) :
    (user.setLogin userID).setLogin userID = user.setLogin userID := rfl

theorem processLogin_effect (manager : PacketManager n) (index : Fin n)
    (packetSize : Nat) (pPacket : Bytes) :
    manager.ChangedBy index
      (if packetSize = loginRequestPacketSize ∧ isTestUser (loginUserID pPacket) then
        .testLogin (loginUserID pPacket) else .keep)
      (manager.processLogin index packetSize pPacket) := by
  unfold processLogin
  by_cases size : loginRequestPacketSize = packetSize
  · by_cases test : isTestUser (loginUserID pPacket) = true
    · simp only [size, test, and_self, ↓reduceIte, ne_eq, not_true_eq_false]
      unfold UserManager.addUser
      cases known : manager.mUserManager.mUserIDDictionary (loginUserID pPacket) with
      | none =>
          have known' : (manager.modifyUser index
              (fun user => user.setLogin (loginUserID pPacket))).mUserManager.mUserIDDictionary
                (loginUserID pPacket) = none := known
          rw [known']
          refine ⟨?_, ?_, rfl, rfl⟩
          · simp [modifyUser, send, UserManager.modifyUser, PacketEffect.onSlot, user,
              setLogin_setLogin]
          · simp [modifyUser, send, UserManager.modifyUser, PacketEffect.onDictionary, known]
      | some owner =>
          have known' : (manager.modifyUser index
              (fun user => user.setLogin (loginUserID pPacket))).mUserManager.mUserIDDictionary
                (loginUserID pPacket) = some owner := known
          rw [known']
          refine ⟨rfl, ?_, rfl, rfl⟩
          simp [modifyUser, send, UserManager.modifyUser, PacketEffect.onDictionary, known]
    · simp only [size, test, Bool.false_eq_true, and_false, ↓reduceIte, ne_eq,
        not_true_eq_false]
      split
      · exact (changedBy_keep manager index).of_managers rfl rfl
      · split
        · exact (changedBy_keep manager index).of_managers rfl rfl
        · split
          · exact (changedBy_keep manager index).of_managers rfl rfl
          · exact (changedBy_keep manager index).of_managers rfl rfl
  · have size' : packetSize ≠ loginRequestPacketSize := Ne.symm size
    simp only [ne_eq, size, not_false_eq_true, ↓reduceIte, size', false_and]
    exact changedBy_keep manager index

theorem processLoginDBResult_effect {manager after : PacketManager n} {index : Fin n}
    {pPacket : Bytes} (completed : manager.processLoginDBResult index pPacket = some after) :
    manager.ChangedBy index
      (if redisResult pPacket = ErrorCode.none.code ∧
          manager.mUserManager.mUserIDDictionary (redisUserID pPacket) = none then
        .redisLogin (redisUserID pPacket) else .keep) after := by
  unfold processLoginDBResult at completed
  by_cases accepted : redisResult pPacket = ErrorCode.none.code
  · simp only [accepted, ↓reduceIte, true_and] at completed ⊢
    unfold UserManager.addUser at completed
    cases known : manager.mUserManager.mUserIDDictionary (redisUserID pPacket) with
    | none =>
        simp only [known, ↓reduceIte] at completed ⊢
        obtain ⟨userID, _, rest⟩ := Option.bind_eq_some_iff.mp completed
        cases rest
        exact ⟨rfl, rfl, rfl, rfl⟩
    | some owner =>
        simp only [known, reduceCtorEq, ↓reduceIte] at completed ⊢
        cases completed
        exact (changedBy_keep manager index).of_managers rfl rfl
  · simp only [accepted, ↓reduceIte, false_and] at completed ⊢
    cases completed
    exact (changedBy_keep manager index).of_managers rfl rfl

/-- Leaving the room keeps everything of the slot which `Clear` and the dictionary
look at, and nothing else of the users. -/
theorem leaveRoomOnClear_spec (manager : PacketManager n) (index : Fin n) :
    ∃ user : User,
      (manager.leaveRoomOnClear index).mUserManager =
        { manager.mUserManager with
          mUserObjPool := Function.update manager.mUserManager.mUserObjPool index user } ∧
      (manager.leaveRoomOnClear index).mRoomManager =
        PacketEffect.disconnect.onRooms (manager.user index) index manager.mRoomManager ∧
      user.clear = (manager.user index).clear ∧
      user.mUserID = (manager.user index).mUserID ∧
      (user.mCurDomainState = .none ↔ (manager.user index).mCurDomainState = .none) ∧
      ((manager.user index).mCurDomainState = .none → user = manager.user index) := by
  unfold leaveRoomOnClear leaveUser RoomManager.leaveUser PacketEffect.onRooms
  have same : Function.update manager.mUserManager.mUserObjPool index
      (manager.user index) = manager.mUserManager.mUserObjPool :=
    Function.update_eq_self _ _
  by_cases inRoom : (manager.user index).mCurDomainState = .room
  · simp only [inRoom, ↓reduceIte]
    cases manager.mRoomManager.getRoomByNumber (manager.user index).roomIndex with
    | none =>
        refine ⟨manager.user index, ?_, rfl, rfl, rfl, ?_, fun _ => rfl⟩
        · rw [same]
        · rw [inRoom]
    | some room =>
        refine ⟨(manager.user index).setDomainState .login, rfl, rfl, rfl, rfl, ?_, ?_⟩
        · simp [User.setDomainState]
        · intro impossible
          cases impossible
  · simp only [inRoom, ↓reduceIte]
    refine ⟨manager.user index, ?_, trivial, rfl, rfl, Iff.rfl, fun _ => rfl⟩
    rw [same]

theorem clearConnectionInfo_effect (manager : PacketManager n) (index : Fin n) :
    manager.ChangedBy index .disconnect (manager.clearConnectionInfo index) := by
  obtain ⟨user, users, rooms, cleared, userID, active, unchanged⟩ :=
    leaveRoomOnClear_spec manager index
  have slot : (manager.leaveRoomOnClear index).user index = user := by
    simp [PacketManager.user, users]
  unfold clearConnectionInfo
  by_cases state : (manager.user index).mCurDomainState = .none
  · simp only [slot, active.mpr state, ne_eq, not_true_eq_false, ↓reduceIte]
    refine ⟨?_, ?_, rooms, ?_⟩
    · simp only [users, unchanged state, PacketEffect.onSlot, state, ↓reduceIte]
    · simp only [users, PacketEffect.onDictionary, state, ↓reduceIte]
    · simp only [users, PacketEffect.onCount, state, ↓reduceIte]
  · have state' : user.mCurDomainState ≠ .none := fun none => state (active.mp none)
    simp only [slot, state', ne_eq, not_false_eq_true, ↓reduceIte]
    refine ⟨?_, ?_, rooms, ?_⟩
    · simp only [UserManager.deleteUserInfo_slots, users, Function.update_self,
        Function.update_idem, cleared, PacketEffect.onSlot, state, ↓reduceIte]
    · simp only [UserManager.deleteUserInfo_dictionary, users, Function.update_self,
        userID, PacketEffect.onDictionary, state, ↓reduceIte]
    · simp only [UserManager.deleteUserInfo_count, users, PacketEffect.onCount, state,
        ↓reduceIte]

theorem processEnterRoom_effect {manager after : PacketManager n} {index : Fin n}
    {pPacket : Bytes} (completed : manager.processEnterRoom index pPacket = some after) :
    manager.ChangedBy index
      (match manager.mRoomManager.getRoomByNumber (enterRoomNumber pPacket) with
        | none => .keep
        | some room =>
            if (manager.user index).mCurDomainState = .login ∧
                (manager.mRoomManager.mRoomList room).mCurrentUserCount <
                  (manager.mRoomManager.mRoomList room).mMaxUserCount then
              .enter room
            else .keep) after := by
  unfold processEnterRoom enterUser RoomManager.enterUser at completed
  by_cases login : (manager.user index).mCurDomainState = .login
  · simp only [login, ne_eq, not_true_eq_false, ↓reduceIte] at completed
    cases located : manager.mRoomManager.getRoomByNumber (enterRoomNumber pPacket) with
    | none =>
        simp only [located, reduceCtorEq, ↓reduceIte] at completed ⊢
        cases completed
        exact (changedBy_keep manager index).of_managers rfl rfl
    | some room =>
        simp only [located, login, true_and] at completed ⊢
        unfold Room.enterUser at completed
        by_cases isFull : (manager.mRoomManager.mRoomList room).mMaxUserCount ≤
            (manager.mRoomManager.mRoomList room).mCurrentUserCount
        · simp only [isFull, ↓reduceIte, reduceCtorEq] at completed
          simp only [Int.not_lt.mpr isFull, ↓reduceIte]
          cases completed
          refine (changedBy_keep manager index).of_managers rfl ?_
          simp [send, RoomManager.setRoom]
        · simp only [isFull, ↓reduceIte] at completed
          simp only [Int.not_le.mp isFull, ↓reduceIte]
          obtain ⟨userID, _, completed⟩ := Option.bind_eq_some_iff.mp completed
          obtain ⟨notified, told, completed⟩ := Option.bind_eq_some_iff.mp completed
          cases completed
          obtain ⟨users, rooms⟩ := notifyChat_managers told
          exact ⟨congrArg UserManager.mUserObjPool users,
            (congrArg UserManager.mUserIDDictionary users).trans rfl, rooms,
            (congrArg UserManager.mCurrentUserCnt users).trans rfl⟩
  · simp only [login, ne_eq, not_false_eq_true, ↓reduceIte] at completed
    cases completed
    cases manager.mRoomManager.getRoomByNumber (enterRoomNumber pPacket) with
    | none => exact (changedBy_keep manager index).of_managers rfl rfl
    | some room =>
        simp only [login, false_and, ↓reduceIte]
        exact (changedBy_keep manager index).of_managers rfl rfl

theorem processLeaveRoom_effect {manager after : PacketManager n} {index : Fin n}
    (completed : manager.processLeaveRoom index = some after) :
    manager.ChangedBy index
      (match manager.mRoomManager.getRoomByNumber (manager.user index).roomIndex with
        | none => .keep
        | some room => .leave room) after := by
  unfold processLeaveRoom leaveUser RoomManager.leaveUser at completed
  cases located : manager.mRoomManager.getRoomByNumber (manager.user index).roomIndex with
  | none =>
      simp only [located, reduceCtorEq, ↓reduceIte] at completed ⊢
      cases completed
      exact (changedBy_keep manager index).of_managers rfl rfl
  | some room =>
      simp only [located, ↓reduceIte] at completed ⊢
      obtain ⟨userID, _, completed⟩ := Option.bind_eq_some_iff.mp completed
      obtain ⟨notified, told, completed⟩ := Option.bind_eq_some_iff.mp completed
      cases completed
      obtain ⟨users, rooms⟩ := notifyChat_managers told
      exact ⟨congrArg UserManager.mUserObjPool users,
        (congrArg UserManager.mUserIDDictionary users).trans rfl, rooms,
        (congrArg UserManager.mCurrentUserCnt users).trans rfl⟩

theorem processRoomChatMessage_effect {manager after : PacketManager n} {index : Fin n}
    {pPacket : Bytes}
    (completed : manager.processRoomChatMessage index pPacket = some after) :
    manager.ChangedBy index .keep after := by
  unfold processRoomChatMessage at completed
  by_cases inRoom : (manager.user index).mCurDomainState = .room
  · simp only [inRoom, ne_eq, not_true_eq_false, ↓reduceIte] at completed
    cases located : manager.mRoomManager.getRoomByNumber (manager.user index).roomIndex with
    | none =>
        simp only [located] at completed
        cases completed
        exact (changedBy_keep manager index).of_managers rfl rfl
    | some room =>
        simp only [located] at completed
        obtain ⟨userID, _, completed⟩ := Option.bind_eq_some_iff.mp completed
        obtain ⟨message, _, told⟩ := Option.bind_eq_some_iff.mp completed
        obtain ⟨users, rooms⟩ := notifyChat_managers told
        exact (changedBy_keep manager index).of_managers users rooms
  · simp only [inRoom, ne_eq, not_false_eq_true, ↓reduceIte] at completed
    cases completed
    exact (changedBy_keep manager index).of_managers rfl rfl

/-- Every completed call of `ProcessRecvPacket` is its effect. -/
theorem processRecvPacket_effect {manager after : PacketManager n} {index : Fin n}
    {packetId packetSize : Nat} {pPacket : Bytes}
    (completed : manager.processRecvPacket index packetId packetSize pPacket = some after) :
    manager.ChangedBy index
      (manager.packetEffect index packetId packetSize pPacket) after := by
  unfold processRecvPacket at completed
  unfold packetEffect
  cases found : findHandler packetId with
  | none =>
      simp only [found] at completed ⊢
      cases completed
      exact changedBy_keep manager index
  | some handler =>
      simp only [found] at completed
      cases handler with
      | processUserConnect =>
          cases completed
          exact changedBy_keep manager index
      | processUserDisconnect =>
          cases completed
          exact clearConnectionInfo_effect manager index
      | processLogin =>
          cases completed
          exact processLogin_effect manager index packetSize pPacket
      | processLoginDBResult => exact processLoginDBResult_effect completed
      | processEnterRoom => exact processEnterRoom_effect completed
      | processLeaveRoom => exact processLeaveRoom_effect completed
      | processRoomChatMessage => exact processRoomChatMessage_effect completed
      | pong =>
          cases completed
          exact changedBy_keep manager index

end PacketManager

end IOCPChatServer

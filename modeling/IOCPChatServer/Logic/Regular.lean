import IOCPChatServer.Logic.Membership

/-!
# Identifiers and rooms in regular states

The sizes which `strcpy_s` enforces on the way into the dictionary and into the rooms,
and the numbers of the rooms, are kept by every change of the logic layer.
-/

namespace IOCPChatServer

namespace PacketManager

variable {n : Nat}

/-- Facts about the states which the server reaches: long IDs in the dictionary come from
load-test logins, and the ID of a slot in `ROOM` was copied when it entered. -/
structure Regular (manager : PacketManager n) : Prop where
  table : manager.RoomTable
  firstRoom : manager.mRoomManager.mBeginRoomNumber = 0
  lastRoom : manager.mRoomManager.mEndRoomNumber = 250
  keys : ∀ userID, manager.mUserManager.mUserIDDictionary userID ≠ none →
    isTestUser userID = true ∨ userID.length ≤ maxUserIDLength
  members : ∀ slot, (manager.user slot).mCurDomainState = .room →
    (manager.user slot).mUserID.length ≤ maxUserIDLength

theorem regular_init (memory : Fin n → Bytes) : (PacketManager.init memory).Regular where
  table := roomTable_init memory
  firstRoom := rfl
  lastRoom := rfl
  keys _ known := absurd rfl known
  members _ := nofun

/-- The rooms which exist. -/
theorem getRoomByNumber_eq_none {manager : PacketManager n} (regular : manager.Regular)
    (number : Int) :
    manager.mRoomManager.getRoomByNumber number = none ↔ number < 0 ∨ 250 ≤ number := by
  unfold RoomManager.getRoomByNumber
  rw [regular.firstRoom, regular.lastRoom]
  split
  · rename_i outside
    exact iff_of_true rfl outside
  · rename_i inside
    exact iff_of_false nofun inside

/-- Which rooms exist is decided by two numbers. -/
theorem getRoomByNumber_congr {first second : RoomManager n}
    (firstRoom : first.mBeginRoomNumber = second.mBeginRoomNumber)
    (lastRoom : first.mEndRoomNumber = second.mEndRoomNumber) (number : Int) :
    first.getRoomByNumber number = second.getRoomByNumber number := by
  unfold RoomManager.getRoomByNumber
  rw [firstRoom, lastRoom]

/-- What holds of every identifier in the dictionary and of an added one. -/
theorem dictionary_of_added {holds : Bytes → Prop} {dictionary : Bytes → Option (Fin n)}
    (all : ∀ userID, dictionary userID ≠ none → holds userID) {added : Bytes}
    (new : holds added) (owner : Option (Fin n)) (userID : Bytes)
    (known : Function.update dictionary added owner userID ≠ none) : holds userID := by
  rcases eq_or_ne userID added with rfl | other
  · exact new
  · rw [Function.update_of_ne other] at known
    exact all userID known

theorem dictionary_of_erased {dictionary : Bytes → Option (Fin n)} {erased userID : Bytes}
    (known : Function.update dictionary erased none userID ≠ none) : dictionary userID ≠ none := by
  rcases eq_or_ne userID erased with rfl | other
  · exact absurd (Function.update_self ..) known
  · rwa [Function.update_of_ne other] at known

/-- A change after which there are no more identifiers in the dictionary and no more slots
in `ROOM`. -/
theorem Regular.of_frame {before after : PacketManager n} (regular : before.Regular)
    (numbered : after.mRoomManager.Numbered)
    (firstRoom : after.mRoomManager.mBeginRoomNumber = before.mRoomManager.mBeginRoomNumber)
    (lastRoom : after.mRoomManager.mEndRoomNumber = before.mRoomManager.mEndRoomNumber)
    (keys : ∀ userID, after.mUserManager.mUserIDDictionary userID ≠ none →
      before.mUserManager.mUserIDDictionary userID ≠ none)
    (slots : ∀ slot, (after.user slot).mCurDomainState = .room →
      (before.user slot).mCurDomainState = .room ∧
        (after.user slot).roomIndex = (before.user slot).roomIndex ∧
        (after.user slot).mUserID = (before.user slot).mUserID) : after.Regular where
  table := ⟨numbered, fun slot room => by
    obtain ⟨inRoom, roomIndex, _⟩ := slots slot room
    rw [getRoomByNumber_congr firstRoom lastRoom, roomIndex]
    exact regular.table.located slot inRoom⟩
  firstRoom := firstRoom.trans regular.firstRoom
  lastRoom := lastRoom.trans regular.lastRoom
  keys userID known := regular.keys userID (keys userID known)
  members slot room := by
    obtain ⟨inRoom, _, userID⟩ := slots slot room
    rw [userID]
    exact regular.members slot inRoom

/-- A change of a slot which keeps its state, its room and its ID. -/
theorem Regular.modifyUser {manager : PacketManager n} (regular : manager.Regular)
    (index : Fin n) (change : User → User)
    (state : (change (manager.user index)).mCurDomainState =
      (manager.user index).mCurDomainState)
    (roomIndex : (change (manager.user index)).roomIndex = (manager.user index).roomIndex)
    (userID : (change (manager.user index)).mUserID = (manager.user index).mUserID) :
    (manager.modifyUser index change).Regular := by
  refine regular.of_frame regular.table.numbered rfl rfl (fun _ => id) fun slot room => ?_
  rcases eq_or_ne slot index with rfl | different
  · have changed : (manager.modifyUser slot change).user slot = change (manager.user slot) :=
      Function.update_self ..
    rw [changed] at room ⊢
    exact ⟨state.symm.trans room, roomIndex, userID⟩
  · have kept : (manager.modifyUser index change).user slot = manager.user slot :=
      Function.update_of_ne different ..
    rw [kept] at room ⊢
    exact ⟨room, rfl, rfl⟩

/-! ## Disconnection -/

theorem Regular.leaveRoomOnClear {manager : PacketManager n} (regular : manager.Regular)
    (index : Fin n) : (manager.leaveRoomOnClear index).Regular := by
  unfold PacketManager.leaveRoomOnClear
  split
  · unfold leaveUser RoomManager.leaveUser
    cases manager.mRoomManager.getRoomByNumber (manager.user index).roomIndex with
    | none => exact regular
    | some position =>
        refine regular.of_frame (regular.table.numbered.setRoom rfl) rfl rfl (fun _ => id)
          fun slot room => ?_
        unfold user at room ⊢
        dsimp only at room ⊢
        rcases eq_or_ne slot index with rfl | different
        · rw [Function.update_self] at room
          exact nomatch room
        · rw [Function.update_of_ne different] at room ⊢
          exact ⟨room, rfl, rfl⟩
  · exact regular

theorem Regular.eraseAndClear {manager : PacketManager n} (regular : manager.Regular)
    (index : Fin n) :
    { manager with mUserManager := manager.mUserManager.eraseAndClear index }.Regular := by
  refine regular.of_frame regular.table.numbered rfl rfl (fun _ => dictionary_of_erased)
    fun slot room => ?_
  unfold user UserManager.eraseAndClear UserManager.eraseUserID UserManager.modifyUser at room ⊢
  dsimp only at room ⊢
  rcases eq_or_ne slot index with rfl | different
  · rw [Function.update_self] at room
    exact nomatch room
  · rw [Function.update_of_ne different] at room ⊢
    exact ⟨room, rfl, rfl⟩

theorem Regular.retireGeneration {manager : PacketManager n} (regular : manager.Regular)
    (index : Fin n) :
    { manager with mUserManager := manager.mUserManager.retireGeneration index }.Regular := by
  have incremented := regular.modifyUser index User.incrementGeneration rfl rfl rfl
  exact ⟨⟨incremented.table.numbered, incremented.table.located⟩, incremented.firstRoom,
    incremented.lastRoom, incremented.keys, incremented.members⟩

/-! ## Packets -/

/-- An ID which a login result adds was copied to a log entry. -/
theorem redisUserID_short {manager after : PacketManager n} {index : Fin n} {pPacket : Bytes}
    (completed : manager.processLoginDBResult index pPacket = some after)
    (success : redisResult pPacket = ErrorCode.none.code)
    (unknown : manager.mUserManager.mUserIDDictionary (redisUserID pPacket) = none) :
    (redisUserID pPacket).length ≤ maxUserIDLength := by
  unfold processLoginDBResult UserManager.addUser at completed
  rw [if_pos success, unknown] at completed
  obtain ⟨userID, copied, _⟩ := Option.bind_eq_some_iff.mp completed
  simpa [user, UserManager.increaseUserCnt, UserManager.modifyUser, User.setLogin] using
    strcpyS_length copied

/-- The ID of a slot which enters a room was copied to a log entry. -/
theorem enterRoom_short {manager after : PacketManager n} {index : Fin n} {pPacket : Bytes}
    {position : Nat} (completed : manager.processEnterRoom index pPacket = some after)
    (login : (manager.user index).mCurDomainState = .login)
    (located : manager.mRoomManager.getRoomByNumber (enterRoomNumber pPacket) = some position)
    (notFull : (manager.mRoomManager.mRoomList position).mCurrentUserCount <
      (manager.mRoomManager.mRoomList position).mMaxUserCount) :
    (manager.user index).mUserID.length ≤ maxUserIDLength := by
  have entered : (manager.enterUser (enterRoomNumber pPacket) index).1 = .none ∧
      ((manager.enterUser (enterRoomNumber pPacket) index).2.user index).mUserID =
        (manager.user index).mUserID := by
    unfold enterUser RoomManager.enterUser Room.enterUser
    rw [located]
    dsimp only
    rw [if_neg (Int.not_le.mpr notFull)]
    simp [user, User.enterRoom]
  unfold processEnterRoom at completed
  rw [if_neg (not_not.mpr login)] at completed
  dsimp only at completed
  rw [if_pos entered.1, entered.2] at completed
  obtain ⟨userID, copied, _⟩ := Option.bind_eq_some_iff.mp completed
  exact strcpyS_length copied

/-- The bounds of the room numbers never change. -/
theorem onRooms_bounds (effect : PacketEffect) (user : User) (index : Fin n)
    (rooms : RoomManager n) :
    (effect.onRooms user index rooms).mBeginRoomNumber = rooms.mBeginRoomNumber ∧
      (effect.onRooms user index rooms).mEndRoomNumber = rooms.mEndRoomNumber := by
  cases effect with
  | disconnect =>
      simp only [PacketEffect.onRooms]
      split
      · split
        · exact ⟨rfl, rfl⟩
        · exact ⟨rfl, rfl⟩
      · exact ⟨rfl, rfl⟩
  | keep => exact ⟨rfl, rfl⟩
  | testLogin userID => exact ⟨rfl, rfl⟩
  | redisLogin userID => exact ⟨rfl, rfl⟩
  | enter room => exact ⟨rfl, rfl⟩
  | leave room => exact ⟨rfl, rfl⟩

/-- Every completed call of `ProcessRecvPacket`. -/
theorem Regular.recv {manager next : PacketManager n} {call : RecvCall n}
    (regular : manager.Regular) (taken : manager.recv call = some next) : next.Regular := by
  obtain ⟨effect, effectCase, changed⟩ := recv_cases taken
  have bounds := onRooms_bounds effect (manager.caller call) call.clientIndex
    manager.mRoomManager
  refine ⟨roomTable_recv regular.table taken, ?_, ?_, ?_, ?_⟩
  · rw [changed.rooms]
    exact bounds.1.trans regular.firstRoom
  · rw [changed.rooms]
    exact bounds.2.trans regular.lastRoom
  · rw [changed.dictionary]
    cases effectCase with
    | keep noTest noRedis noLeave => exact regular.keys
    | testLogin test =>
        simp only [PacketEffect.onDictionary]
        split
        · exact dictionary_of_added regular.keys (Or.inl test.2.2) _
        · exact regular.keys
    | redisLogin redis =>
        unfold PacketManager.recv processRecvPacket at taken
        rw [redis.1] at taken
        exact dictionary_of_added regular.keys
          (Or.inr (redisUserID_short taken redis.2.1 redis.2.2)) _
    | disconnect found =>
        simp only [PacketEffect.onDictionary]
        split
        · exact regular.keys
        · exact fun userID known => regular.keys userID (dictionary_of_erased known)
    | enter room found located state notFull => exact regular.keys
    | leave room found located => exact regular.keys
  · refine changed.forall_user (fun user => user.mCurDomainState = .room →
      user.mUserID.length ≤ maxUserIDLength) regular.members ?_
    have own := regular.members call.clientIndex
    cases effectCase with
    | keep noTest noRedis noLeave => exact own
    | testLogin test =>
        intro room
        cases room
    | redisLogin redis =>
        intro room
        cases room
    | disconnect found =>
        simp only [PacketEffect.onSlot]
        split
        · exact own
        · intro room
          cases room
    | enter room found located state notFull =>
        intro _
        unfold PacketManager.recv processRecvPacket at taken
        rw [found] at taken
        exact enterRoom_short taken state located notFull
    | leave room found located =>
        intro inRoom
        cases inRoom

end PacketManager

end IOCPChatServer

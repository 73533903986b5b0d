import IOCPChatServer.Logic.PacketFrame
import IOCPChatServer.Logic.Regular

/-!
# The lengths of the user IDs

An ID enters the logic layer as bytes of a packet, and from the slots it is copied by
`strcpy_s` into fields of `MAX_USER_ID_LENGTH + 1` bytes.  A load-test login stores its
ID as it is; every other ID was copied before a handler ended.
-/

namespace IOCPChatServer

theorem strcpyS_bind_isSome_iff {α : Type} (size : Nat) (source : Bytes)
    (rest : Bytes → Option α) :
    ((strcpyS size source).bind rest).isSome = true ↔
      source.length < size ∧ (rest source).isSome = true := by
  unfold strcpyS
  split
  · rename_i fits
    simp [fits]
  · rename_i long
    simp [long]

namespace PacketManager

variable {n : Nat}

/-! ## The IDs which are stored -/

/-- The IDs of the slots and of the dictionary have at most `MAX_USER_ID_LENGTH` characters. -/
structure IDsFit (manager : PacketManager n) : Prop where
  users : ∀ slot, (manager.user slot).mUserID.length ≤ maxUserIDLength
  dictionary : ∀ userID, manager.mUserManager.mUserIDDictionary userID ≠ none →
    userID.length ≤ maxUserIDLength

theorem idsFit_init (memory : Fin n → Bytes) : (PacketManager.init memory).IDsFit where
  users _ := Nat.zero_le _
  dictionary _ known := absurd rfl known

/-- A change after which no slot and no entry has an ID of its own. -/
theorem IDsFit.of_frame {before after : PacketManager n} (fits : before.IDsFit)
    (users : ∀ slot, (after.user slot).mUserID = (before.user slot).mUserID ∨
      (after.user slot).mUserID = [])
    (keys : ∀ userID, after.mUserManager.mUserIDDictionary userID ≠ none →
      before.mUserManager.mUserIDDictionary userID ≠ none) : after.IDsFit where
  users slot := by
    rcases users slot with same | empty
    · rw [same]
      exact fits.users slot
    · rw [empty]
      exact Nat.zero_le _
  dictionary userID known := fits.dictionary userID (keys userID known)

theorem IDsFit.modifyUser {manager : PacketManager n} (fits : manager.IDsFit) (index : Fin n)
    (change : User → User)
    (userID : (change (manager.user index)).mUserID = (manager.user index).mUserID) :
    (manager.modifyUser index change).IDsFit := by
  refine fits.of_frame (fun slot => Or.inl ?_) fun _ => id
  rcases eq_or_ne slot index with rfl | different
  · exact (congrArg User.mUserID (Function.update_self ..)).trans userID
  · exact congrArg User.mUserID (Function.update_of_ne different ..)

theorem IDsFit.leaveRoomOnClear {manager : PacketManager n} (fits : manager.IDsFit)
    (index : Fin n) : (manager.leaveRoomOnClear index).IDsFit := by
  unfold PacketManager.leaveRoomOnClear leaveUser RoomManager.leaveUser
  split
  · cases manager.mRoomManager.getRoomByNumber (manager.user index).roomIndex with
    | none => exact fits
    | some position =>
        have left := fits.modifyUser index (·.setDomainState .login) rfl
        exact ⟨left.users, left.dictionary⟩
  · exact fits

theorem IDsFit.eraseAndClear {manager : PacketManager n} (fits : manager.IDsFit)
    (index : Fin n) :
    { manager with mUserManager := manager.mUserManager.eraseAndClear index }.IDsFit := by
  refine fits.of_frame (fun slot => ?_) fun _ => dictionary_of_erased
  unfold user UserManager.eraseAndClear UserManager.eraseUserID UserManager.modifyUser
  dsimp only
  rcases eq_or_ne slot index with rfl | different
  · rw [Function.update_self]
    exact Or.inr rfl
  · rw [Function.update_of_ne different]
    exact Or.inl rfl

theorem IDsFit.retireGeneration {manager : PacketManager n} (fits : manager.IDsFit)
    (index : Fin n) :
    { manager with mUserManager := manager.mUserManager.retireGeneration index }.IDsFit := by
  have incremented := fits.modifyUser index User.incrementGeneration rfl
  exact ⟨incremented.users, incremented.dictionary⟩

/-- An ID which does not fit comes from a load-test login. -/
theorem IDsFit.recv {manager next : PacketManager n} {call : RecvCall n} (fits : manager.IDsFit)
    (test : IsTestLogin call → (loginUserID call.pPacket).length ≤ maxUserIDLength)
    (taken : manager.recv call = some next) : next.IDsFit := by
  obtain ⟨effect, effectCase, changed⟩ := recv_cases taken
  have own := fits.users call.clientIndex
  have copied (redis : manager.IsRedisLogin call) :
      (redisUserID call.pPacket).length ≤ maxUserIDLength := by
    unfold PacketManager.recv processRecvPacket at taken
    rw [redis.1] at taken
    exact redisUserID_short taken redis.2.1 redis.2.2
  constructor
  · refine changed.forall_user (fun user => user.mUserID.length ≤ maxUserIDLength) fits.users ?_
    cases effectCase with
    | keep noTest noRedis noLeave => exact own
    | testLogin isTest => exact test isTest
    | redisLogin redis => exact copied redis
    | disconnect found =>
        simp only [PacketEffect.onSlot]
        split
        · exact own
        · exact Nat.zero_le _
    | enter room found located state notFull => exact own
    | leave room found located => exact own
  · rw [changed.dictionary]
    cases effectCase with
    | keep noTest noRedis noLeave => exact fits.dictionary
    | testLogin isTest =>
        simp only [PacketEffect.onDictionary]
        split
        · exact dictionary_of_added fits.dictionary (test isTest) _
        · exact fits.dictionary
    | redisLogin redis => exact dictionary_of_added fits.dictionary (copied redis) _
    | disconnect found =>
        simp only [PacketEffect.onDictionary]
        split
        · exact fits.dictionary
        · exact fun userID known => fits.dictionary userID (dictionary_of_erased known)
    | enter room found located state notFull => exact fits.dictionary
    | leave room found located => exact fits.dictionary

/-! ## The IDs which are copied -/

/-- The IDs which the `strcpy_s` calls of a handler, and of `NotifyChat` under it, get as their
source. -/
def copiedUserIDs (manager : PacketManager n) (call : RecvCall n) : List Bytes :=
  let caller := manager.caller call
  match findHandler call.packetId with
  | some .processLoginDBResult =>
      if redisResult call.pPacket = ErrorCode.none.code ∧
          manager.mUserManager.mUserIDDictionary (redisUserID call.pPacket) = none then
        [redisUserID call.pPacket]
      else []
  | some .processEnterRoom =>
      if caller.mCurDomainState = .login ∧
          (manager.enterUser (enterRoomNumber call.pPacket) call.clientIndex).1 = .none then
        [caller.mUserID]
      else []
  | some .processLeaveRoom =>
      if (manager.leaveUser caller.roomIndex call.clientIndex).1 = .none then [caller.mUserID]
      else []
  | some .processRoomChatMessage =>
      if caller.mCurDomainState = .room ∧
          (manager.mRoomManager.getRoomByNumber caller.roomIndex).isSome then
        [caller.mUserID]
      else []
  | _ => []

/-- A source and its NUL fit a field for a user ID. -/
def UserIDFits (userID : Bytes) : Prop := userID.length < maxUserIDLength + 1

instance (userID : Bytes) : Decidable (UserIDFits userID) := inferInstanceAs (Decidable (_ < _))

theorem notifyChat_isSome_iff (manager : PacketManager n) (room : Option Nat) (index : Fin n)
    (userID message : Bytes) :
    (manager.notifyChat room index userID message).isSome = true ↔
      (room.isSome = true → UserIDFits userID ∧ message.length < maxChatMsg + 1) := by
  cases room with
  | none => simp [notifyChat]
  | some position =>
      simp only [notifyChat, Room.notifyChat, Option.bind_eq_bind, Option.isSome_map,
        strcpyS_bind_isSome_iff, Option.isSome_some, forall_const, Option.pure_def, and_true]
      rfl

theorem processLoginDBResult_isSome_iff (manager : PacketManager n) (index : Fin n)
    (pPacket : Bytes) :
    (manager.processLoginDBResult index pPacket).isSome = true ↔
      (redisResult pPacket = ErrorCode.none.code ∧
        manager.mUserManager.mUserIDDictionary (redisUserID pPacket) = none →
          UserIDFits (redisUserID pPacket)) := by
  unfold processLoginDBResult UserManager.addUser
  by_cases success : redisResult pPacket = ErrorCode.none.code
  · rw [if_pos success]
    cases known : manager.mUserManager.mUserIDDictionary (redisUserID pPacket) with
    | some owner => simp
    | none =>
        simp only [success, if_pos, Option.bind_eq_bind, strcpyS_bind_isSome_iff]
        simp [user, UserManager.increaseUserCnt, UserManager.modifyUser, User.setLogin,
          UserIDFits]
  · simp [success]

theorem enterUser_mUserID (manager : PacketManager n) (roomNumber : Int) (index : Fin n) :
    ((manager.enterUser roomNumber index).2.user index).mUserID =
      (manager.user index).mUserID := by
  unfold enterUser RoomManager.enterUser Room.enterUser user
  cases manager.mRoomManager.getRoomByNumber roomNumber with
  | none => rfl
  | some position =>
      dsimp only
      split
      · rfl
      · dsimp only
        rw [Function.update_self]
        rfl

theorem leaveUser_mUserID (manager : PacketManager n) (roomNumber : Int) (index : Fin n) :
    ((manager.leaveUser roomNumber index).2.user index).mUserID =
      (manager.user index).mUserID := by
  unfold leaveUser RoomManager.leaveUser user
  cases manager.mRoomManager.getRoomByNumber roomNumber with
  | none => rfl
  | some position =>
      dsimp only
      rw [Function.update_self]
      rfl

/-- The log entry and the notification which follow a change of a room. -/
theorem copyAndNotify_isSome_iff (logged : Bytes → PacketManager n) (room : Option Nat)
    (index : Fin n) (userID : Bytes) {message : Bytes} (short : message.length < maxChatMsg + 1)
    (respond : PacketManager n → PacketManager n) :
    ((strcpyS (maxUserIDLength + 1) userID).bind fun copy =>
        ((logged copy).notifyChat room index userID message).bind fun notified =>
          some (respond notified)).isSome = true ↔ UserIDFits userID := by
  have notified (copy : Bytes) (fits : UserIDFits userID) :
      ((logged copy).notifyChat room index userID message).isSome = true :=
    ((logged copy).notifyChat_isSome_iff room index userID message).mpr fun _ => ⟨fits, short⟩
  have responded (copy : Bytes) : (((logged copy).notifyChat room index userID message).bind
      fun notified => some (respond notified)) =
        ((logged copy).notifyChat room index userID message).map respond :=
    (Option.map_eq_bind ..).symm
  rw [strcpyS_bind_isSome_iff, responded, Option.isSome_map]
  exact ⟨And.left, fun fits => ⟨fits, notified userID fits⟩⟩

theorem processEnterRoom_isSome_iff (manager : PacketManager n) (index : Fin n)
    (pPacket : Bytes) :
    (manager.processEnterRoom index pPacket).isSome = true ↔
      ((manager.user index).mCurDomainState = .login ∧
        (manager.enterUser (enterRoomNumber pPacket) index).1 = .none →
          UserIDFits (manager.user index).mUserID) := by
  unfold processEnterRoom
  by_cases login : (manager.user index).mCurDomainState = .login
  · rw [if_neg (not_not.mpr login)]
    dsimp only
    by_cases entered : (manager.enterUser (enterRoomNumber pPacket) index).1 = .none
    · have short : enteredText.length < maxChatMsg + 1 := by decide
      rw [if_pos entered, ← manager.enterUser_mUserID (enterRoomNumber pPacket)]
      refine (copyAndNotify_isSome_iff _ ((manager.enterUser (enterRoomNumber pPacket)
        index).2.mRoomManager.getRoomByNumber (enterRoomNumber pPacket)) _ _ short _).trans ?_
      simp [login, entered]
    · simp [entered]
  · simp [login]

theorem processLeaveRoom_isSome_iff (manager : PacketManager n) (index : Fin n) :
    (manager.processLeaveRoom index).isSome = true ↔
      ((manager.leaveUser (manager.user index).roomIndex index).1 = .none →
          UserIDFits (manager.user index).mUserID) := by
  unfold processLeaveRoom
  dsimp only
  by_cases left : (manager.leaveUser (manager.user index).roomIndex index).1 = .none
  · have short : leftText.length < maxChatMsg + 1 := by decide
    rw [if_pos left, ← manager.leaveUser_mUserID (manager.user index).roomIndex]
    refine (copyAndNotify_isSome_iff _ _ _ _ short _).trans ?_
    simp [left]
  · simp [left]

theorem processRoomChatMessage_isSome_iff (manager : PacketManager n) (index : Fin n)
    (pPacket : Bytes) :
    (manager.processRoomChatMessage index pPacket).isSome = true ↔
      ((manager.user index).mCurDomainState = .room ∧
        (manager.mRoomManager.getRoomByNumber (manager.user index).roomIndex).isSome = true →
          UserIDFits (manager.user index).mUserID ∧
            (chatMessage pPacket).length < maxChatMsg + 1) := by
  unfold processRoomChatMessage
  by_cases inRoom : (manager.user index).mCurDomainState = .room
  · rw [if_neg (not_not.mpr inRoom)]
    dsimp only
    cases manager.mRoomManager.getRoomByNumber (manager.user index).roomIndex with
    | none => simp
    | some room =>
        have notified (userID message : Bytes) := notifyChat_isSome_iff
          ((manager.send index (.roomChatResponse ErrorCode.none.code)).pushMySQLTask
            (.insertChatMessage index userID (manager.user index).roomIndex message))
          (some room) index (manager.user index).mUserID (chatMessage pPacket)
        refine (strcpyS_bind_isSome_iff ..).trans ?_
        rw [Option.bind_eq_bind, strcpyS_bind_isSome_iff]
        constructor
        · rintro ⟨userID, message, _⟩ _
          exact ⟨userID, message⟩
        · intro fit
          obtain ⟨userID, message⟩ := fit ⟨inRoom, rfl⟩
          exact ⟨userID, message, (notified _ _).mpr fun _ => ⟨userID, message⟩⟩
  · simp [inRoom]

/-- A call completes precisely if the IDs which it copies fit, and the message of a chat
request which copies one does. -/
theorem recv_isSome_iff (manager : PacketManager n) (call : RecvCall n) :
    (manager.recv call).isSome = true ↔
      (∀ userID ∈ manager.copiedUserIDs call, UserIDFits userID) ∧
        (findHandler call.packetId = some .processRoomChatMessage →
          manager.copiedUserIDs call ≠ [] →
            (chatMessage call.pPacket).length < maxChatMsg + 1) := by
  have only (condition : Prop) [Decidable condition] (copied : Bytes) :
      (∀ userID ∈ (if condition then [copied] else []), UserIDFits userID) ↔
        (condition → UserIDFits copied) := by
    split <;> simp [*]
  unfold PacketManager.recv processRecvPacket copiedUserIDs
  cases found : findHandler call.packetId with
  | none => simp
  | some handler =>
      cases handler with
      | processUserConnect => simp [callHandler]
      | processUserDisconnect => simp [callHandler]
      | processLogin => simp [callHandler]
      | processLoginDBResult =>
          simp only [only, reduceCtorEq, Option.some.injEq, false_implies, and_true]
          exact manager.processLoginDBResult_isSome_iff _ _
      | processEnterRoom =>
          simp only [only, reduceCtorEq, Option.some.injEq, false_implies, and_true]
          exact manager.processEnterRoom_isSome_iff _ _
      | processLeaveRoom =>
          simp only [only, reduceCtorEq, Option.some.injEq, false_implies, and_true]
          exact manager.processLeaveRoom_isSome_iff _
      | processRoomChatMessage =>
          simp only [only, forall_const]
          refine (manager.processRoomChatMessage_isSome_iff _ _).trans ?_
          rw [imp_and]
          refine and_congr_right fun _ => ?_
          split
          · rename_i copies
            exact ⟨fun fits _ => fits copies, fun fits _ => fits nofun⟩
          · rename_i none
            exact ⟨fun _ copies => absurd rfl copies, fun _ copies => absurd copies none⟩
      | pong => simp [callHandler]

/-- A copied ID is that of the caller's slot, or that of a login result. -/
theorem mem_copiedUserIDs {manager : PacketManager n} {call : RecvCall n} {userID : Bytes}
    (copied : userID ∈ manager.copiedUserIDs call) :
    userID = (manager.caller call).mUserID ∨
      manager.IsRedisLogin call ∧ userID = redisUserID call.pPacket := by
  unfold copiedUserIDs at copied
  dsimp only at copied
  split at copied
  · rename_i found
    split at copied
    · rename_i redis
      exact Or.inr ⟨⟨found, redis⟩, List.mem_singleton.mp copied⟩
    · exact absurd copied List.not_mem_nil
  · split at copied
    · exact Or.inl (List.mem_singleton.mp copied)
    · exact absurd copied List.not_mem_nil
  · split at copied
    · exact Or.inl (List.mem_singleton.mp copied)
    · exact absurd copied List.not_mem_nil
  · split at copied
    · exact Or.inl (List.mem_singleton.mp copied)
    · exact absurd copied List.not_mem_nil
  · exact absurd copied List.not_mem_nil

/-- Only a login result brings an ID of its own to the copies. -/
theorem IDsFit.copies {manager : PacketManager n} {call : RecvCall n} (fits : manager.IDsFit)
    (result : manager.IsRedisLogin call → UserIDFits (redisUserID call.pPacket))
    {userID : Bytes} (copied : userID ∈ manager.copiedUserIDs call) : UserIDFits userID := by
  rcases mem_copiedUserIDs copied with rfl | ⟨redis, rfl⟩
  · exact Nat.lt_succ_of_le (fits.users call.clientIndex)
  · exact result redis

/-! ## The IDs which a call brings -/

instance (call : RecvCall n) : Decidable (IsTestLogin call) :=
  inferInstanceAs (Decidable (_ ∧ _ ∧ _))

instance (manager : PacketManager n) (call : RecvCall n) : Decidable (manager.IsRedisLogin call) :=
  inferInstanceAs (Decidable (_ ∧ _ ∧ _))

/-- There is a NUL inside `LOGIN_REQUEST_PACKET::UserID` if the ID is stored or forwarded, and a
login result for an ID which is not logged in has one that fits. -/
def BringsFittingIDs (manager : PacketManager n) (call : RecvCall n) : Prop :=
  (IsTestLogin call ∨ manager.ForwardsLogin call.packetId call.packetSize call.pPacket →
      0 ∈ (call.pPacket.drop packetHeaderLength).take (maxUserIDLength + 1)) ∧
    (manager.IsRedisLogin call → UserIDFits (redisUserID call.pPacket))

instance (manager : PacketManager n) (call : RecvCall n) :
    Decidable (manager.BringsFittingIDs call) := inferInstanceAs (Decidable (_ ∧ _))

theorem BringsFittingIDs.test {manager : PacketManager n} {call : RecvCall n}
    (brings : manager.BringsFittingIDs call) (test : IsTestLogin call) :
    (loginUserID call.pPacket).length ≤ maxUserIDLength :=
  Nat.le_of_lt_succ (length_cString_lt (brings.1 (Or.inl test)))

/-- A change of a slot leaves alone what decides about the login. -/
theorem BringsFittingIDs.modifyUser {manager : PacketManager n} {call : RecvCall n}
    (brings : manager.BringsFittingIDs call) (index : Fin n) (change : User → User) :
    (manager.modifyUser index change).BringsFittingIDs call := by
  refine ⟨fun login => brings.1 (login.imp_right fun forwards => ?_), brings.2⟩
  exact ⟨forwards.handler, forwards.size, forwards.noTestUser, forwards.notLoggedIn,
    forwards.notFull⟩

/-- What `TaskProcessThread` copies from a forwarded request fits. -/
theorem loginTask_fits {index : Fin n} {pPacket : Bytes}
    (terminated : 0 ∈ (pPacket.drop packetHeaderLength).take (maxUserIDLength + 1)) :
    UserIDFits (cString (loginTask index pPacket).pData) := by
  refine length_cString_lt ?_
  rw [loginTask, redisLoginReq, List.take_append, List.take_take, min_self]
  exact List.mem_append_left _ terminated

end PacketManager

end IOCPChatServer

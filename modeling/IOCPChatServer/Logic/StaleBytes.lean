import IOCPChatServer.Logic.Regular

/-!
# What the handlers read of a packet

A handler gets the whole temporary buffer: the bytes of the packet and after them what
earlier packets have left there.  `ReadsOwnBytes` says for each handler when the bytes of
the packet decide what it does; then what follows them does not matter, and in a state
which the server can reach it does matter otherwise.
-/

namespace IOCPChatServer

/-! ## Fields which begin in the packet -/

theorem getD_append_of_lt {own : Bytes} {position : Nat} (inside : position < own.length)
    (stale : Bytes) : (own ++ stale).getD position 0 = own.getD position 0 := by
  rw [List.getD_eq_getElem?_getD, List.getD_eq_getElem?_getD, List.getElem?_append_left inside]

theorem getD_of_le {own : Bytes} {position : Nat} (outside : own.length ≤ position) :
    own.getD position 0 = 0 := by
  rw [List.getD_eq_getElem?_getD, List.getElem?_eq_none outside]
  rfl

/-- A field inside the packet. -/
theorem u16_append {own : Bytes} {offset : Nat} (inside : offset + 2 ≤ own.length)
    (stale : Bytes) : u16 (own ++ stale) offset = u16 own offset := by
  unfold u16
  rw [getD_append_of_lt (by omega), getD_append_of_lt (by omega)]

theorem i32_append {own : Bytes} {offset : Nat} (inside : offset + 4 ≤ own.length)
    (stale : Bytes) : i32 (own ++ stale) offset = i32 own offset := by
  unfold i32
  rw [u16_append (by omega), u16_append (by omega)]

theorem take_drop_append {own : Bytes} {start count : Nat} (inside : start + count ≤ own.length)
    (stale : Bytes) : ((own ++ stale).drop start).take count = (own.drop start).take count := by
  rw [List.drop_append_of_le_length (by omega), List.take_append_of_le_length]
  rw [List.length_drop]
  omega

/-- Zeros are what a missing byte reads as. -/
theorem i32_append_zeros (own : Bytes) (count offset : Nat) :
    i32 (own ++ List.replicate count 0) offset = i32 own offset := by
  have getD (position : Nat) :
      (own ++ List.replicate count 0).getD position 0 = own.getD position 0 := by
    rcases Nat.lt_or_ge position own.length with inside | outside
    · exact getD_append_of_lt inside _
    · rw [getD_of_le outside, List.getD_eq_getElem?_getD, List.getElem?_append_right outside]
      rcases Nat.lt_or_ge (position - own.length) count with padded | beyond
      · rw [List.getElem?_replicate, if_pos padded]
        rfl
      · rw [List.getElem?_replicate, if_neg (Nat.not_lt.mpr beyond)]
        rfl
  unfold i32 u16
  rw [getD, getD, getD, getD]

namespace PacketManager

variable {n : Nat}

/-! ## When the packet decides -/

/-- What the handler of the packet reads lies in the packet, or does not matter. -/
def ReadsOwnBytes (manager : PacketManager n) (index : Fin n) (packetId : Nat)
    (own : Bytes) : Prop :=
  match findHandler packetId with
  | some .processLogin =>
      own.length = loginRequestPacketSize → isTestUser (loginUserID own) = true →
        0 ∈ own.drop packetHeaderLength
  | some .processLoginDBResult => 2 ≤ own.length
  | some .processEnterRoom =>
      (manager.user index).mCurDomainState = .login →
        packetHeaderLength + 4 ≤ own.length ∨
          manager.mRoomManager.getRoomByNumber (enterRoomNumber own) = none
  | some .processRoomChatMessage =>
      (manager.user index).mCurDomainState = .room →
        0 ∈ own.drop packetHeaderLength ∨
          packetHeaderLength + (maxChatMsg + 1) ≤ own.length
  | _ => True

/-! ## Login requests -/

theorem drop_header_append {own : Bytes} (header : packetHeaderLength ≤ own.length)
    (stale : Bytes) :
    (own ++ stale).drop packetHeaderLength = own.drop packetHeaderLength ++ stale :=
  List.drop_append_of_le_length header

/-- The ID of a login request ends in the packet, or goes on behind it. -/
theorem loginUserID_append_of_mem {own : Bytes} (header : packetHeaderLength ≤ own.length)
    (terminated : 0 ∈ own.drop packetHeaderLength) (stale : Bytes) :
    loginUserID (own ++ stale) = loginUserID own := by
  unfold loginUserID
  rw [drop_header_append header, cString_append_of_mem terminated]

theorem loginUserID_append_of_not_mem {own : Bytes} (header : packetHeaderLength ≤ own.length)
    (unterminated : 0 ∉ own.drop packetHeaderLength) (stale : Bytes) :
    loginUserID (own ++ stale) = own.drop packetHeaderLength ++ cString stale := by
  unfold loginUserID
  rw [drop_header_append header, cString_append_of_not_mem unterminated]

theorem loginUserID_of_not_mem {own : Bytes}
    (unterminated : 0 ∉ own.drop packetHeaderLength) :
    loginUserID own = own.drop packetHeaderLength := by
  have whole := cString_append_of_not_mem unterminated []
  rwa [List.append_nil, show cString [] = [] from rfl, List.append_nil] at whole

/-- A string behind a prefix which is long enough does not decide about a load test. -/
theorem isTestUser_append {userID : Bytes} (long : testUser.length ≤ userID.length)
    (more : Bytes) : isTestUser (userID ++ more) = isTestUser userID := by
  unfold isTestUser
  rw [Bool.eq_iff_iff, List.isPrefixOf_iff_prefix, List.isPrefixOf_iff_prefix]
  constructor
  · exact fun starts => List.prefix_of_prefix_length_le starts (List.prefix_append ..) long
  · exact fun starts => starts.trans (List.prefix_append ..)

theorem loginTask_append {own : Bytes} (size : own.length = loginRequestPacketSize)
    (index : Fin n) (stale : Bytes) : loginTask index (own ++ stale) = loginTask index own := by
  unfold loginTask redisLoginReq
  rw [take_drop_append (by rw [size]; decide), take_drop_append (by rw [size]; decide)]

/-- `ProcessLogin` reads the ID and the task. -/
theorem processLogin_congr (manager : PacketManager n) (index : Fin n) (packetSize : Nat)
    {first second : Bytes} (userID : loginUserID first = loginUserID second)
    (task : loginTask index first = loginTask index second) :
    manager.processLogin index packetSize first =
      manager.processLogin index packetSize second := by
  unfold processLogin
  rw [userID, task]

/-- A login request for an ID which is not logged in and no load test. -/
theorem processLogin_unknown {manager : PacketManager n} {pPacket : Bytes}
    (index : Fin n) (noTest : isTestUser (loginUserID pPacket) = false)
    (unknown : manager.mUserManager.mUserIDDictionary (loginUserID pPacket) = none) :
    manager.processLogin index loginRequestPacketSize pPacket =
      if n ≤ manager.mUserManager.mCurrentUserCnt then
        manager.send index (.loginResponse ErrorCode.loginUserUsedAllObj.code)
      else manager.pushRedisTask (loginTask index pPacket) := by
  have absent := (manager.mUserManager.findUserIndexByID_eq_neg_one _).mpr unknown
  simp [processLogin, noTest, absent]

/-- An ID which is too long for a login result is unknown unless it is a load test's. -/
theorem Regular.unknown {manager : PacketManager n} (regular : manager.Regular)
    {userID : Bytes} (noTest : isTestUser userID = false)
    (long : maxUserIDLength < userID.length) :
    manager.mUserManager.mUserIDDictionary userID = none := by
  by_contra known
  rcases regular.keys userID known with test | short
  · exact absurd (noTest.symm.trans test) Bool.false_ne_true
  · exact absurd short (Nat.not_le.mpr long)

theorem processLogin_stale {manager : PacketManager n} (regular : manager.Regular)
    (index : Fin n) {own : Bytes}
    (reads : own.length = loginRequestPacketSize → isTestUser (loginUserID own) = true →
      0 ∈ own.drop packetHeaderLength) (first second : Bytes) :
    manager.processLogin index own.length (own ++ first) =
      manager.processLogin index own.length (own ++ second) := by
  by_cases size : own.length = loginRequestPacketSize
  · have header : packetHeaderLength ≤ own.length := by
      rw [size]
      decide
    have task := (loginTask_append size index first).trans (loginTask_append size index second).symm
    by_cases terminated : 0 ∈ own.drop packetHeaderLength
    · refine manager.processLogin_congr index _ ?_ task
      rw [loginUserID_append_of_mem header terminated,
        loginUserID_append_of_mem header terminated]
    · have noTest : isTestUser (own.drop packetHeaderLength) = false := by
        rw [← loginUserID_of_not_mem terminated]
        exact Bool.eq_false_iff.mpr fun test => terminated (reads size test)
      have rest : (own.drop packetHeaderLength).length = loginRequestPacketSize - 5 := by
        rw [List.length_drop, size]
        rfl
      have forwarded (stale : Bytes) :
          isTestUser (loginUserID (own ++ stale)) = false ∧
            manager.mUserManager.mUserIDDictionary (loginUserID (own ++ stale)) = none := by
        rw [loginUserID_append_of_not_mem header terminated]
        have other : isTestUser (own.drop packetHeaderLength ++ cString stale) = false := by
          rw [isTestUser_append (by rw [rest]; decide), noTest]
        refine ⟨other, regular.unknown other ?_⟩
        rw [List.length_append, rest]
        exact Nat.lt_add_right _ (by decide)
      rw [size, processLogin_unknown index (forwarded first).1 (forwarded first).2,
        processLogin_unknown index (forwarded second).1 (forwarded second).2, task]
  · unfold processLogin
    rw [if_pos (Ne.symm size), if_pos (Ne.symm size)]

/-! ## Login results -/

theorem processLoginDBResult_failure {manager : PacketManager n} {pPacket : Bytes}
    (index : Fin n) (failure : redisResult pPacket ≠ ErrorCode.none.code) :
    manager.processLoginDBResult index pPacket =
      some (manager.send index (.loginResponse (redisResult pPacket))) := by
  unfold processLoginDBResult loginResultCode
  rw [if_neg failure, if_neg failure]

/-- A client's packet begins with its own length, which is a result other than success. -/
theorem processLoginDBResult_announced (manager : PacketManager n) (index : Fin n)
    {own : Bytes} (announced : u16 own 0 = own.length) (field : 2 ≤ own.length)
    (stale : Bytes) :
    redisResult (own ++ stale) = own.length ∧
      manager.processLoginDBResult index (own ++ stale) =
        some (manager.send index (.loginResponse own.length)) := by
  have result : redisResult (own ++ stale) = own.length := by
    unfold redisResult
    rw [u16_append (by omega), announced]
  have failure : own.length ≠ ErrorCode.none.code := by
    change own.length ≠ 0
    omega
  refine ⟨result, ?_⟩
  rw [processLoginDBResult_failure index (result.symm ▸ failure), result]

/-! ## Room numbers -/

theorem enterRoomNumber_append {own : Bytes} (field : packetHeaderLength + 4 ≤ own.length)
    (stale : Bytes) : enterRoomNumber (own ++ stale) = enterRoomNumber own :=
  i32_append field stale

theorem getD_le_append (own stale : Bytes) (position : Nat) :
    (own.getD position 0).toNat ≤ ((own ++ stale).getD position 0).toNat := by
  rcases Nat.lt_or_ge position own.length with inside | outside
  · exact Nat.le_of_eq (congrArg UInt8.toNat (getD_append_of_lt inside stale).symm)
  · rw [getD_of_le outside]
    exact Nat.zero_le _

/-- Behind a packet which is too short there may be any number of this form: not less
than what the packet has of it, or negative. -/
theorem enterRoomNumber_append_ge {own : Bytes} (short : own.length < packetHeaderLength + 4)
    (stale : Bytes) :
    0 ≤ enterRoomNumber own ∧ (enterRoomNumber own ≤ enterRoomNumber (own ++ stale) ∨
      enterRoomNumber (own ++ stale) < 0) := by
  have first := getD_le_append own stale 5
  have second := getD_le_append own stale 6
  have third := getD_le_append own stale 7
  have last : (own.getD 8 0).toNat = 0 := by
    have outside : own.length ≤ 8 := Nat.le_of_lt_succ short
    rw [getD_of_le outside]
    rfl
  have bound (position : Nat) : ((own ++ stale).getD position 0).toNat < 256 :=
    UInt8.toNat_lt _
  have fifth := bound 5
  have sixth := bound 6
  have seventh := bound 7
  have eighth := bound 8
  simp only [enterRoomNumber, packetHeaderLength, i32, u16, Nat.reduceAdd, last]
  omega

/-- What is missing of a room number cannot make it a room's if it is none without. -/
theorem getRoomByNumber_append {manager : PacketManager n} (regular : manager.Regular)
    {own : Bytes} (short : own.length < packetHeaderLength + 4)
    (missing : manager.mRoomManager.getRoomByNumber (enterRoomNumber own) = none)
    (stale : Bytes) :
    manager.mRoomManager.getRoomByNumber (enterRoomNumber (own ++ stale)) = none := by
  rw [getRoomByNumber_eq_none regular] at missing ⊢
  have more := enterRoomNumber_append_ge short stale
  omega

/-- `ProcessEnterRoom` for a number which is no room's. -/
theorem processEnterRoom_missing {manager : PacketManager n} {index : Fin n} {pPacket : Bytes}
    (login : (manager.user index).mCurDomainState = .login)
    (missing : manager.mRoomManager.getRoomByNumber (enterRoomNumber pPacket) = none) :
    manager.processEnterRoom index pPacket =
      some (manager.send index (.roomEnterResponse ErrorCode.roomInvalidIndex.code)) := by
  unfold processEnterRoom
  rw [if_neg (not_not.mpr login)]
  dsimp only
  unfold enterUser RoomManager.enterUser
  rw [missing]
  rfl

theorem processEnterRoom_stale {manager : PacketManager n} (regular : manager.Regular)
    (index : Fin n) {own : Bytes}
    (reads : (manager.user index).mCurDomainState = .login →
      packetHeaderLength + 4 ≤ own.length ∨
        manager.mRoomManager.getRoomByNumber (enterRoomNumber own) = none)
    (first second : Bytes) :
    manager.processEnterRoom index (own ++ first) =
      manager.processEnterRoom index (own ++ second) := by
  by_cases login : (manager.user index).mCurDomainState = .login
  · rcases Nat.lt_or_ge own.length (packetHeaderLength + 4) with short | field
    · have missing := (reads login).resolve_left (Nat.not_le.mpr short)
      rw [processEnterRoom_missing login (getRoomByNumber_append regular short missing first),
        processEnterRoom_missing login (getRoomByNumber_append regular short missing second)]
    · unfold processEnterRoom
      rw [enterRoomNumber_append field, enterRoomNumber_append field]
  · unfold processEnterRoom
    rw [if_pos login, if_pos login]

/-! ## Chat messages -/

/-- A message which does not fit ends the process. -/
theorem processRoomChatMessage_long {manager : PacketManager n} (regular : manager.Regular)
    {index : Fin n} {pPacket : Bytes} (room : (manager.user index).mCurDomainState = .room)
    (long : maxChatMsg < (chatMessage pPacket).length) :
    manager.processRoomChatMessage index pPacket = none := by
  unfold processRoomChatMessage
  rw [if_neg (not_not.mpr room)]
  dsimp only
  cases located : manager.mRoomManager.getRoomByNumber (manager.user index).roomIndex with
  | none => exact absurd located (regular.table.located index room)
  | some position =>
      have full : strcpyS (maxChatMsg + 1) (chatMessage pPacket) = none :=
        if_neg (by omega)
      dsimp only
      rw [full]
      cases strcpyS (maxUserIDLength + 1) ((manager.send index
        (.roomChatResponse ErrorCode.none.code)).user index).mUserID with
      | none => rfl
      | some userID => rfl

theorem chatMessage_append_of_mem {own : Bytes} (terminated : 0 ∈ own.drop packetHeaderLength)
    (stale : Bytes) : chatMessage (own ++ stale) = chatMessage own := by
  have header : packetHeaderLength ≤ own.length := by
    rcases Nat.le_total packetHeaderLength own.length with header | short
    · exact header
    · rw [List.drop_eq_nil_of_le short] at terminated
      exact absurd terminated List.not_mem_nil
  unfold chatMessage
  rw [drop_header_append header, cString_append_of_mem terminated]

theorem chatMessage_append_of_not_mem {own : Bytes}
    (unterminated : 0 ∉ own.drop packetHeaderLength) (stale : Bytes) :
    chatMessage (own ++ stale) = own.drop packetHeaderLength ++
      cString (stale.drop (packetHeaderLength - own.length)) := by
  unfold chatMessage
  rw [List.drop_append, cString_append_of_not_mem unterminated]

theorem processRoomChatMessage_stale {manager : PacketManager n} (regular : manager.Regular)
    (index : Fin n) {own : Bytes}
    (reads : (manager.user index).mCurDomainState = .room →
      0 ∈ own.drop packetHeaderLength ∨ packetHeaderLength + (maxChatMsg + 1) ≤ own.length)
    (first second : Bytes) :
    manager.processRoomChatMessage index (own ++ first) =
      manager.processRoomChatMessage index (own ++ second) := by
  by_cases room : (manager.user index).mCurDomainState = .room
  · by_cases terminated : 0 ∈ own.drop packetHeaderLength
    · unfold processRoomChatMessage
      rw [chatMessage_append_of_mem terminated, chatMessage_append_of_mem terminated]
    · have whole := (reads room).resolve_left terminated
      have long (stale : Bytes) : maxChatMsg < (chatMessage (own ++ stale)).length := by
        rw [chatMessage_append_of_not_mem terminated, List.length_append, List.length_drop]
        omega
      rw [processRoomChatMessage_long regular room (long first),
        processRoomChatMessage_long regular room (long second)]
  · unfold processRoomChatMessage
    rw [if_pos room, if_pos room]

/-! ## Enough is read -/

/-- While the packet decides, what follows it in the buffer does not matter. -/
theorem processRecvPacket_stale {manager : PacketManager n} (regular : manager.Regular)
    (index : Fin n) (packetId : Nat) {own : Bytes}
    (announced : 2 ≤ own.length → u16 own 0 = own.length)
    (reads : manager.ReadsOwnBytes index packetId own) (first second : Bytes) :
    manager.processRecvPacket index packetId own.length (own ++ first) =
      manager.processRecvPacket index packetId own.length (own ++ second) := by
  unfold processRecvPacket
  unfold ReadsOwnBytes at reads
  cases found : findHandler packetId with
  | none => rfl
  | some handler =>
      rw [found] at reads
      cases handler with
      | processUserConnect => rfl
      | processUserDisconnect => rfl
      | processLogin => exact congrArg some (processLogin_stale regular index reads first second)
      | processLoginDBResult =>
          have field : 2 ≤ own.length := reads
          exact (manager.processLoginDBResult_announced index (announced field) field first).2.trans
            (manager.processLoginDBResult_announced index (announced field) field second).2.symm
      | processEnterRoom => exact processEnterRoom_stale regular index reads first second
      | processLeaveRoom => rfl
      | processRoomChatMessage =>
          exact processRoomChatMessage_stale regular index reads first second
      | pong => rfl

/-! ## Too little is read -/

/-- What a client can see of a call, and the ID which the slot has after it. -/
def visible (manager : PacketManager n) (index : Fin n) :
    List (Fin n × ServerPacket) × Bytes :=
  (manager.sentPackets, (manager.user index).mUserID)

theorem getD_append_replicate {own : Bytes} {count position : Nat} (byte : UInt8)
    (outside : own.length ≤ position) (inside : position < own.length + count) :
    (own ++ List.replicate count byte).getD position 0 = byte := by
  rw [List.getD_eq_getElem?_getD, List.getElem?_append_right outside, List.getElem?_replicate,
    if_pos (by omega)]
  rfl

/-- An ID which is not terminated goes on with what follows the packet. -/
theorem testLogin_depends (manager : PacketManager n) (index : Fin n) {own : Bytes}
    (size : own.length = loginRequestPacketSize) (test : isTestUser (loginUserID own) = true)
    (unterminated : 0 ∉ own.drop packetHeaderLength) (stale : Bytes) :
    ((manager.processLogin index own.length (own ++ stale)).user index).mUserID =
      own.drop packetHeaderLength ++ cString stale := by
  have header : packetHeaderLength ≤ own.length := by
    rw [size]
    decide
  have userID := loginUserID_append_of_not_mem header unterminated stale
  have test' : isTestUser (loginUserID (own ++ stale)) = true := by
    rw [loginUserID_of_not_mem unterminated] at test
    rw [userID, isTestUser_append, test]
    rw [List.length_drop, size]
    decide
  have changed := manager.processLogin_effect index own.length (own ++ stale)
  rw [if_pos ⟨size, test'⟩] at changed
  rw [changed.user_self, ← userID]
  rfl

theorem enterUser_code {manager : PacketManager n} {roomNumber : Int} {position : Nat}
    (index : Fin n)
    (located : manager.mRoomManager.getRoomByNumber roomNumber = some position) :
    (manager.enterUser roomNumber index).1 ≠ .roomInvalidIndex := by
  unfold enterUser RoomManager.enterUser Room.enterUser
  rw [located]
  dsimp only
  split
  · nofun
  · nofun

theorem sentPackets_send (manager : PacketManager n) (index : Fin n) (packet : ServerPacket) :
    (manager.send index packet).sentPackets.getLast? = some (index, packet) :=
  List.getLast?_concat

/-- The answer of a room which exists is not that of a number which is no room's. -/
theorem processEnterRoom_response {manager after : PacketManager n} {index : Fin n}
    {pPacket : Bytes} {position : Nat}
    (login : (manager.user index).mCurDomainState = .login)
    (located : manager.mRoomManager.getRoomByNumber (enterRoomNumber pPacket) = some position)
    (completed : manager.processEnterRoom index pPacket = some after) :
    after.sentPackets.getLast? ≠
      some (index, .roomEnterResponse ErrorCode.roomInvalidIndex.code) := by
  have valid := enterUser_code index located
  have answered (code : ErrorCode) (other : code ≠ .roomInvalidIndex) :
      some (index, ServerPacket.roomEnterResponse code.code) ≠
        some (index, .roomEnterResponse ErrorCode.roomInvalidIndex.code) := by
    intro same
    have codes := ServerPacket.roomEnterResponse.inj (Prod.mk.inj (Option.some.inj same)).2
    cases code with
    | roomInvalidIndex => exact other rfl
    | _ => exact absurd codes (by decide)
  unfold processEnterRoom at completed
  rw [if_neg (not_not.mpr login)] at completed
  dsimp only at completed
  generalize manager.enterUser (enterRoomNumber pPacket) index = entered at completed valid
  split at completed
  · obtain ⟨userID, _, told⟩ := Option.bind_eq_some_iff.mp completed
    obtain ⟨notified, _, sent⟩ := Option.bind_eq_some_iff.mp told
    cases sent
    rw [sentPackets_send]
    exact answered _ valid
  · cases completed
    rw [sentPackets_send]
    exact answered _ valid

theorem notifyChat_fits (manager : PacketManager n) (room : Option Nat) (index : Fin n)
    {userID message : Bytes} (short : userID.length ≤ maxUserIDLength)
    (shortMessage : message.length ≤ maxChatMsg) :
    manager.notifyChat room index userID message ≠ none := by
  have copiedID : strcpyS (maxUserIDLength + 1) userID = some userID :=
    if_pos (Nat.lt_succ_of_le short)
  have copied : strcpyS (maxChatMsg + 1) message = some message :=
    if_pos (Nat.lt_succ_of_le shortMessage)
  cases room with
  | none => nofun
  | some position =>
      unfold notifyChat Room.notifyChat
      rw [copiedID, copied]
      nofun

theorem processRoomChatMessage_short {manager : PacketManager n} (regular : manager.Regular)
    {index : Fin n} {pPacket : Bytes} (room : (manager.user index).mCurDomainState = .room)
    (short : (chatMessage pPacket).length ≤ maxChatMsg) :
    manager.processRoomChatMessage index pPacket ≠ none := by
  have userID : strcpyS (maxUserIDLength + 1) ((manager.send index
      (.roomChatResponse ErrorCode.none.code)).user index).mUserID =
      some (manager.user index).mUserID :=
    if_pos (Nat.lt_succ_of_le (regular.members index room))
  have message : strcpyS (maxChatMsg + 1) (chatMessage pPacket) = some (chatMessage pPacket) :=
    if_pos (Nat.lt_succ_of_le short)
  unfold processRoomChatMessage
  rw [if_neg (not_not.mpr room)]
  dsimp only
  cases located : manager.mRoomManager.getRoomByNumber (manager.user index).roomIndex with
  | none => nofun
  | some position =>
      dsimp only
      rw [userID, message]
      simp only [Option.bind_eq_bind, Option.bind_some]
      exact notifyChat_fits _ _ index (regular.members index room) short

section Depends

variable {manager : PacketManager n} {index : Fin n} {own : Bytes} {count : Nat}

theorem processLogin_depends (size : own.length + count = maxPacketDataBufferSize)
    (whole : own.length = loginRequestPacketSize)
    (test : isTestUser (loginUserID own) = true)
    (unterminated : 0 ∉ own.drop packetHeaderLength) :
    (manager.processLogin index own.length (own ++ List.replicate count 0)).visible index ≠
      (manager.processLogin index own.length (own ++ List.replicate count 1)).visible index := by
  intro same
  have ids := congrArg Prod.snd same
  dsimp only [visible] at ids
  rw [testLogin_depends manager index whole test unterminated,
    testLogin_depends manager index whole test unterminated, cString_replicate_zero,
    cString_replicate_one] at ids
  have lengths := congrArg List.length ids
  rw [List.length_append, List.length_append, List.length_replicate, List.length_nil] at lengths
  rw [whole] at size
  simp only [loginRequestPacketSize, packetHeaderLength, maxUserIDLength, maxUserPWLength,
    maxPacketDataBufferSize] at size
  omega

/-- The result of a packet without both bytes of the field. -/
theorem redisResult_append_replicate (size : own.length + count = maxPacketDataBufferSize)
    (short : own.length < 2) (byte : UInt8) :
    256 * byte.toNat ≤ redisResult (own ++ List.replicate count byte) ∧
      redisResult (own ++ List.replicate count byte) < 256 * byte.toNat + 256 := by
  have second : (own ++ List.replicate count byte).getD 1 0 = byte :=
    getD_append_replicate byte (Nat.le_of_lt_succ short) (by rw [size]; decide)
  have first : ((own ++ List.replicate count byte).getD 0 0).toNat < 256 := UInt8.toNat_lt _
  unfold redisResult u16
  rw [Nat.zero_add, second]
  omega

theorem processLoginDBResult_depends (size : own.length + count = maxPacketDataBufferSize)
    (short : own.length < 2) :
    (manager.processLoginDBResult index (own ++ List.replicate count 1)).map
        (·.visible index) ≠
      (manager.processLoginDBResult index (own ++ List.replicate count 2)).map
        (·.visible index) := by
  have ones := redisResult_append_replicate size short 1
  have twos := redisResult_append_replicate size short 2
  simp only [UInt8.reduceToNat] at ones twos
  have success : ErrorCode.none.code = 0 := rfl
  rw [processLoginDBResult_failure index (by omega), processLoginDBResult_failure index (by omega)]
  intro same
  have sent := congrArg (fun view : List (Fin n × ServerPacket) × Bytes => view.1.getLast?)
    (Option.some.inj same)
  dsimp only [visible] at sent
  rw [sentPackets_send, sentPackets_send] at sent
  have results := ServerPacket.loginResponse.inj (Prod.mk.inj (Option.some.inj sent)).2
  omega

theorem processEnterRoom_depends (regular : manager.Regular)
    (size : own.length + count = maxPacketDataBufferSize)
    (login : (manager.user index).mCurDomainState = .login)
    (short : own.length < packetHeaderLength + 4)
    (located : manager.mRoomManager.getRoomByNumber (enterRoomNumber own) ≠ none) :
    (manager.processEnterRoom index (own ++ List.replicate count 0)).map (·.visible index) ≠
      (manager.processEnterRoom index (own ++ List.replicate count 1)).map
        (·.visible index) := by
  have number : enterRoomNumber (own ++ List.replicate count 0) = enterRoomNumber own :=
    i32_append_zeros own count packetHeaderLength
  have last : (own ++ List.replicate count 1).getD 8 0 = 1 :=
    getD_append_replicate 1 (Nat.le_of_lt_succ short) (by rw [size]; decide)
  have missing : manager.mRoomManager.getRoomByNumber
      (enterRoomNumber (own ++ List.replicate count 1)) = none := by
    have bound (position : Nat) : ((own ++ List.replicate count 1).getD position 0).toNat < 256 :=
      UInt8.toNat_lt _
    have fifth := bound 5
    have sixth := bound 6
    have seventh := bound 7
    rw [getRoomByNumber_eq_none regular]
    simp only [enterRoomNumber, packetHeaderLength, i32, u16, Nat.reduceAdd, last,
      UInt8.reduceToNat]
    omega
  obtain ⟨position, found⟩ := Option.ne_none_iff_exists'.mp located
  rw [processEnterRoom_missing login missing]
  intro same
  obtain ⟨after, completed, seen⟩ := Option.map_eq_some_iff.mp same
  have sent := congrArg (fun view : List (Fin n × ServerPacket) × Bytes => view.1.getLast?) seen
  dsimp only [visible] at sent
  rw [sentPackets_send] at sent
  exact processEnterRoom_response login (number.symm ▸ found) completed sent

theorem processRoomChatMessage_depends (regular : manager.Regular)
    (size : own.length + count = maxPacketDataBufferSize)
    (room : (manager.user index).mCurDomainState = .room)
    (unterminated : 0 ∉ own.drop packetHeaderLength)
    (short : own.length < packetHeaderLength + (maxChatMsg + 1)) :
    (manager.processRoomChatMessage index (own ++ List.replicate count 0)).map
        (·.visible index) ≠
      (manager.processRoomChatMessage index (own ++ List.replicate count 1)).map
        (·.visible index) := by
  have fits : (chatMessage (own ++ List.replicate count 0)).length ≤ maxChatMsg := by
    rw [chatMessage_append_of_not_mem unterminated, List.drop_replicate, cString_replicate_zero,
      List.append_nil, List.length_drop]
    omega
  have long : maxChatMsg < (chatMessage (own ++ List.replicate count 1)).length := by
    rw [chatMessage_append_of_not_mem unterminated, List.drop_replicate, cString_replicate_one,
      List.length_append, List.length_drop, List.length_replicate]
    simp only [packetHeaderLength, maxChatMsg, maxPacketDataBufferSize] at size ⊢
    omega
  rw [processRoomChatMessage_long regular room long]
  intro same
  exact processRoomChatMessage_short regular room fits (Option.map_eq_none_iff.mp same)

end Depends

/-- If what follows the packet never shows in what a client sees, in the slot's ID, or in
whether the call returns at all, the packet decides. -/
theorem readsOwnBytes_of_same {manager : PacketManager n} (regular : manager.Regular)
    {index : Fin n} {packetId : Nat} {own : Bytes} {count : Nat}
    (size : own.length + count = maxPacketDataBufferSize)
    (same : ∀ first second : Bytes, first.length = count → second.length = count →
      (manager.processRecvPacket index packetId own.length (own ++ first)).map
          (·.visible index) =
        (manager.processRecvPacket index packetId own.length (own ++ second)).map
          (·.visible index)) :
    manager.ReadsOwnBytes index packetId own := by
  have filled (first second : UInt8) := same (List.replicate count first)
    (List.replicate count second) List.length_replicate List.length_replicate
  unfold processRecvPacket at filled
  unfold ReadsOwnBytes
  cases found : findHandler packetId with
  | none => trivial
  | some handler =>
      simp only [found] at filled
      cases handler with
      | processUserConnect => trivial
      | processUserDisconnect => trivial
      | processLogin =>
          intro whole test
          by_contra unterminated
          exact processLogin_depends size whole test unterminated (Option.some.inj (filled 0 1))
      | processLoginDBResult =>
          by_contra short
          exact processLoginDBResult_depends size (Nat.not_le.mp short) (filled 1 2)
      | processEnterRoom =>
          intro login
          by_contra undecided
          obtain ⟨short, located⟩ := not_or.mp undecided
          exact processEnterRoom_depends regular size login (Nat.not_le.mp short) located
            (filled 0 1)
      | processLeaveRoom => trivial
      | processRoomChatMessage =>
          intro room
          by_contra undecided
          obtain ⟨unterminated, short⟩ := not_or.mp undecided
          exact processRoomChatMessage_depends regular size room unterminated
            (Nat.not_le.mp short) (filled 0 1)
      | pong => trivial

end PacketManager

end IOCPChatServer

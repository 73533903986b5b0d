import IOCPChatServer.Library.Simulation
import IOCPChatServer.Logic.ChatDelivery
import IOCPChatServer.Logic.ChatService
import IOCPChatServer.Logic.Dictionary
import IOCPChatServer.Logic.LoginAnswers
import IOCPChatServer.Logic.UserCount
import IOCPChatServer.Logic.UserIDs

/-!
# The logic layer implements the chat service

The slots, the dictionary, the counter and the lists of the rooms all say the same about the
sessions as long as the calls are orderly.  Each handler then does to the slots, to the
packets and to the tasks what the service does to its sessions, and no `strcpy_s` fails.
-/

namespace IOCPChatServer

/-- The session which a slot stands for. -/
def User.session (user : User) : Session :=
  match user.mCurDomainState with
  | .none => .anonymous
  | .login => .loggedIn user.mUserID
  | .room => .inRoom user.mUserID user.roomIndex

namespace User

theorem session_eq_anonymous_iff (user : User) :
    user.session = .anonymous ↔ user.mCurDomainState = .none := by
  unfold session
  cases user.mCurDomainState <;> simp

theorem userID?_session (user : User) :
    user.session.userID? =
      if user.mCurDomainState = .none then none else some user.mUserID := by
  unfold session
  cases user.mCurDomainState <;> rfl

theorem room?_session_iff (user : User) (room : Int) :
    user.session.room? = some room ↔ user.InRoom room := by
  unfold session InRoom
  cases user.mCurDomainState <;> simp [Session.room?]

theorem session_of_login {user : User} (login : user.mCurDomainState = .login) :
    user.session = .loggedIn user.mUserID := by
  rw [session, login]

theorem session_of_room {user : User} (inRoom : user.mCurDomainState = .room) :
    user.session = .inRoom user.mUserID user.roomIndex := by
  rw [session, inRoom]

end User

/-- What the call asks of the service. -/
def RecvCall.request {n : Nat} (call : RecvCall n) : Request :=
  match PacketManager.findHandler call.packetId with
  | some .processLogin =>
      if call.packetSize = loginRequestPacketSize then
        .login (PacketManager.loginUserID call.pPacket)
          (PacketManager.loginTask call.clientIndex call.pPacket).pData
      else .ignored
  | some .processLoginDBResult =>
      .loginResult (PacketManager.redisResult call.pPacket)
        (PacketManager.redisUserID call.pPacket)
  | some .processEnterRoom => .enter (PacketManager.enterRoomNumber call.pPacket)
  | some .processLeaveRoom => .leave
  | some .processRoomChatMessage => .chat (PacketManager.chatMessage call.pPacket)
  | some .processUserDisconnect => .disconnect
  | _ => .ignored

namespace PacketManager

variable {n : Nat}

/-- The packets for one slot among the calls of `SendPacketFunc`. -/
def packetsTo (slot : Fin n) (sent : List (Fin n × ServerPacket)) : List ServerPacket :=
  (sent.filter fun packet => packet.1 = slot).map Prod.snd

/-- The service which the state of the logic layer stands for. -/
def service (manager : PacketManager n) : ChatService n where
  session slot := (manager.user slot).session
  outbox slot := packetsTo slot manager.sentPackets
  redisTasks := manager.redisTasks
  mysqlTasks := manager.mysqlTasks

/-- One call, as the service serves it. -/
def serveCall (service : ChatService n) (call : RecvCall n) : ChatService n :=
  service.serve call.clientIndex call.request

/-- The call is one which the service relies on. -/
def OrderlyCall (service : ChatService n) (call : RecvCall n) : Prop :=
  service.Orderly call.clientIndex call.request

instance (service : ChatService n) (call : RecvCall n) : Decidable (OrderlyCall service call) :=
  inferInstanceAs (Decidable (service.Orderly _ _))

/-- Everything that the logic layer stores about the sessions agrees. -/
structure Intact (manager : PacketManager n) : Prop where
  regular : manager.Regular
  membership : manager.RoomMembership
  entered : manager.NoDuplicateLogin
  live : manager.LiveEntries
  counted : manager.CountExact
  fits : manager.IDsFit
  capacity : ∀ position,
    (manager.mRoomManager.mRoomList position).mMaxUserCount = ChatService.roomCapacity

theorem intact_init (memory : Fin n → Bytes) : (PacketManager.init memory).Intact where
  regular := regular_init memory
  membership := roomMembership_init memory
  entered := noDuplicateLogin_init memory
  live := liveEntries_init memory
  counted := countExact_init memory
  fits := idsFit_init memory
  capacity _ := rfl

theorem service_init (memory : Fin n → Bytes) : (PacketManager.init memory).service = {} := rfl

/-! ## What the service sees of an intact state -/

theorem userID?_service (manager : PacketManager n) (slot : Fin n) (userID : Bytes) :
    (manager.service.session slot).userID? = some userID ↔
      manager.LoggedIn slot ∧ (manager.user slot).mUserID = userID := by
  change (manager.user slot).session.userID? = some userID ↔ _
  rw [User.userID?_session, LoggedIn]
  split
  · rename_i none
    exact ⟨fun some => absurd some.symm (Option.some_ne_none _), fun both => absurd none both.1⟩
  · rename_i active
    rw [Option.some.injEq]
    exact ⟨fun same => ⟨active, same⟩, And.right⟩

/-- The dictionary knows the IDs which are taken. -/
theorem Intact.dictionary_eq_none_iff {manager : PacketManager n} (intact : manager.Intact)
    (userID : Bytes) : manager.dictionary userID = none ↔ ¬ manager.service.Taken userID := by
  constructor
  · rintro free ⟨slot, taken⟩
    obtain ⟨loggedIn, rfl⟩ := (manager.userID?_service slot userID).mp taken
    rw [intact.entered.entered slot loggedIn] at free
    cases free
  · intro free
    by_contra known
    obtain ⟨slot, entry⟩ := Option.ne_none_iff_exists'.mp known
    have owned := intact.live.live userID slot entry
    exact free ⟨slot, (manager.userID?_service slot userID).mpr owned⟩

/-- The counter counts the connections which are present. -/
theorem Intact.count_eq {manager : PacketManager n} (intact : manager.Intact) :
    manager.mUserManager.mCurrentUserCnt = manager.service.present.card := by
  have same : ((List.finRange n).filter manager.isLoggedIn).toFinset = manager.service.present := by
    ext slot
    rw [List.mem_toFinset, List.mem_filter, isLoggedIn_iff, LoggedIn]
    simp only [List.mem_finRange, true_and, ChatService.present, Finset.mem_filter,
      Finset.mem_univ]
    exact (not_congr (User.session_eq_anonymous_iff _)).symm
  rw [intact.counted.exact, loggedInCount, ← same, List.countP_eq_length_filter,
    List.toFinset_card_of_nodup ((List.nodup_finRange n).filter _)]

theorem mem_members_service (manager : PacketManager n) (room : Int) (slot : Fin n) :
    slot ∈ manager.service.members room ↔ (manager.user slot).InRoom room :=
  ChatService.mem_members.trans (User.room?_session_iff _ _)

/-- The counter and the list of a room describe its members. -/
theorem Intact.members_eq {manager : PacketManager n} (intact : manager.Intact) {number : Int}
    {position : Nat} (located : manager.mRoomManager.getRoomByNumber number = some position) :
    (manager.mRoomManager.mRoomList position).mUserList.toFinset =
      manager.service.members number := by
  obtain ⟨inside, same⟩ := intact.regular.table.numbered.getRoomByNumber_eq_some.mp located
  ext slot
  rw [List.mem_toFinset, mem_members_service,
    (intact.membership.consistent position inside).listed, same]
  rfl

theorem Intact.count_members {manager : PacketManager n} (intact : manager.Intact) {number : Int}
    {position : Nat} (located : manager.mRoomManager.getRoomByNumber number = some position) :
    (manager.mRoomManager.mRoomList position).mCurrentUserCount =
      (manager.service.members number).card := by
  obtain ⟨inside, _⟩ := intact.regular.table.numbered.getRoomByNumber_eq_some.mp located
  have consistent := intact.membership.consistent position inside
  rw [consistent.counted, ← intact.members_eq located,
    List.toFinset_card_of_nodup consistent.nodup]

/-! ## Orderly calls keep the state intact -/

theorem OrderlyCall.noTest {service : ChatService n} {call : RecvCall n}
    (orderly : OrderlyCall service call) : ¬ IsTestLogin call := by
  rintro ⟨found, size, test⟩
  unfold OrderlyCall RecvCall.request at orderly
  simp only [found, size, if_true, ChatService.Orderly] at orderly
  rw [orderly] at test
  cases test

theorem OrderlyCall.redis {manager : PacketManager n} {call : RecvCall n}
    (intact : manager.Intact) (orderly : OrderlyCall manager.service call)
    (redis : manager.IsRedisLogin call) :
    (manager.caller call).mCurDomainState = .none ∧
      (redisUserID call.pPacket).length ≤ maxUserIDLength := by
  obtain ⟨found, success, unknown⟩ := redis
  unfold OrderlyCall RecvCall.request at orderly
  simp only [found, ChatService.Orderly] at orderly
  obtain ⟨anonymous, short⟩ :=
    orderly success ((intact.dictionary_eq_none_iff _).mp unknown)
  exact ⟨(User.session_eq_anonymous_iff _).mp anonymous, short⟩

theorem OrderlyCall.leave {manager : PacketManager n} {call : RecvCall n}
    (orderly : OrderlyCall manager.service call)
    (found : findHandler call.packetId = some .processLeaveRoom) :
    (manager.caller call).mCurDomainState = .room := by
  unfold OrderlyCall RecvCall.request at orderly
  simp only [found, ChatService.Orderly] at orderly
  obtain ⟨room, inside⟩ := Option.ne_none_iff_exists'.mp orderly
  exact ((User.room?_session_iff _ _).mp inside).1

/-- How many users fit into a room never changes. -/
theorem capacity_onRooms (effect : PacketEffect) (user : User) (index : Fin n)
    (rooms : RoomManager n) (position : Nat) :
    ((effect.onRooms user index rooms).mRoomList position).mMaxUserCount =
      (rooms.mRoomList position).mMaxUserCount := by
  have replaced {room : Nat} {changed : Room n}
      (same : changed.mMaxUserCount = (rooms.mRoomList room).mMaxUserCount) :
      ((rooms.setRoom room changed).mRoomList position).mMaxUserCount =
        (rooms.mRoomList position).mMaxUserCount := by
    rcases eq_or_ne position room with rfl | different
    · rw [RoomManager.setRoom_self, same]
    · rw [RoomManager.setRoom_of_ne rooms changed different]
  cases effect with
  | keep => rfl
  | testLogin userID => rfl
  | redisLogin userID => rfl
  | disconnect =>
      simp only [PacketEffect.onRooms]
      split
      · split
        · rfl
        · exact replaced rfl
      · rfl
  | enter room => exact replaced rfl
  | leave room => exact replaced rfl

theorem Intact.recv {manager next : PacketManager n} {call : RecvCall n}
    (intact : manager.Intact) (orderly : OrderlyCall manager.service call)
    (taken : manager.recv call = some next) : next.Intact := by
  have noTest : ¬ IsTestLogin call := orderly.noTest
  have redis (login : manager.IsRedisLogin call) := (orderly.redis intact login).1
  have leave (left : manager.IsRoomLeave call) := orderly.leave left.1
  have outside (login : manager.IsRedisLogin call) : ¬ manager.LoggedIn call.clientIndex :=
    fun loggedIn => loggedIn (redis login)
  have loggedIn (left : manager.IsRoomLeave call) : manager.LoggedIn call.clientIndex := by
    rw [LoggedIn, show (manager.user call.clientIndex).mCurDomainState = .room from leave left]
    decide
  refine ⟨intact.regular.recv taken, ?_, ?_, ?_, ?_, ?_, ?_⟩
  · refine (roomMembership_recv_iff intact.regular.table intact.membership taken).mpr ?_
    refine ⟨fun test => absurd test noTest, fun login => ?_, leave⟩
    rw [redis login]
    decide
  · exact noDuplicateLogin_recv intact.entered ⟨fun test => absurd test noTest,
      fun left notLoggedIn => absurd (loggedIn left) notLoggedIn⟩ taken
  · refine (liveEntries_recv_iff intact.live taken).mpr ⟨fun test => absurd test noTest, ?_⟩
    intro login entry
    exact absurd (intact.live.live _ _ entry).1 (outside login)
  · exact (countExact_recv_iff intact.counted taken).mpr
      ⟨fun test => absurd test noTest, outside, loggedIn⟩
  · exact intact.fits.recv (fun test => absurd test noTest) taken
  · intro position
    obtain ⟨effect, _, changed⟩ := recv_cases taken
    rw [changed.rooms, capacity_onRooms]
    exact intact.capacity position

/-! ## What the service sees of a change -/

theorem packetsTo_append (slot : Fin n) (first second : List (Fin n × ServerPacket)) :
    packetsTo slot (first ++ second) = packetsTo slot first ++ packetsTo slot second := by
  rw [packetsTo, List.filter_append, List.map_append]
  rfl

theorem packetsTo_singleton (slot index : Fin n) (packet : ServerPacket) :
    packetsTo slot [(index, packet)] = if slot = index then [packet] else [] := by
  unfold packetsTo
  rcases eq_or_ne slot index with rfl | other
  · simp
  · simp [other, other.symm]

/-- One packet to each slot of a list without repetitions. -/
theorem packetsTo_map {list : List (Fin n)} (nodup : list.Nodup) (slot : Fin n)
    (packet : ServerPacket) :
    packetsTo slot (list.map fun receiver => (receiver, packet)) =
      if slot ∈ list then [packet] else [] := by
  induction list with
  | nil => rfl
  | cons receiver rest ih =>
      obtain ⟨fresh, nodup⟩ := List.nodup_cons.mp nodup
      have first := packetsTo_append slot [(receiver, packet)]
        (rest.map fun receiver => (receiver, packet))
      rw [List.map_cons, ← List.singleton_append, first, packetsTo_singleton, ih nodup]
      rcases eq_or_ne slot receiver with rfl | other
      · rw [if_pos rfl, if_neg fresh, if_pos List.mem_cons_self]
        rfl
      · rw [if_neg other, List.nil_append]
        simp [other]

@[simp]
theorem service_send (manager : PacketManager n) (index : Fin n) (packet : ServerPacket) :
    (manager.send index packet).service = manager.service.reply index packet := by
  refine ChatService.ext rfl (funext fun slot => ?_) rfl rfl
  exact (packetsTo_append ..).trans (congrArg _ (packetsTo_singleton ..))

@[simp]
theorem service_pushMySQLTask (manager : PacketManager n) (task : MySQLTask n) :
    (manager.pushMySQLTask task).service = manager.service.log task := rfl

/-- One slot changes. -/
theorem service_of_slot {before after : PacketManager n} {index : Fin n} {user : User}
    (slots : after.mUserManager.mUserObjPool =
      Function.update before.mUserManager.mUserObjPool index user)
    (sent : after.sentPackets = before.sentPackets)
    (redis : after.redisTasks = before.redisTasks)
    (mysql : after.mysqlTasks = before.mysqlTasks) :
    after.service = before.service.setSession index user.session := by
  refine ChatService.ext (funext fun slot => ?_) (funext fun slot => ?_) redis mysql
  · change (after.mUserManager.mUserObjPool slot).session = _
    rw [slots, ChatService.setSession]
    dsimp only
    rcases eq_or_ne slot index with rfl | other
    · rw [Function.update_self, Function.update_self]
    · rw [Function.update_of_ne other, Function.update_of_ne other]
      rfl
  · change packetsTo slot after.sentPackets = packetsTo slot before.sentPackets
    rw [sent]

/-- `NotifyChat` reaches the members of the room, if the call ends in an intact state. -/
theorem service_notifyChat {manager after last : PacketManager n} {index : Fin n}
    {position : Nat} {number : Int} {userID message : Bytes}
    (told : manager.notifyChat (some position) index userID message = some after)
    (intact : last.Intact) (users : last.mUserManager = manager.mUserManager)
    (rooms : last.mRoomManager = manager.mRoomManager)
    (located : last.mRoomManager.getRoomByNumber number = some position) :
    after.service = manager.service.announce number (.roomChatNotify userID message) := by
  obtain ⟨inside, _⟩ := intact.regular.table.numbered.getRoomByNumber_eq_some.mp located
  have nodup := (intact.membership.consistent position inside).nodup
  have listed (slot : Fin n) : slot ∈ (manager.mRoomManager.mRoomList position).mUserList ↔
      slot ∈ manager.service.members number := by
    rw [← rooms, ← List.mem_toFinset, intact.members_eq located, mem_members_service,
      mem_members_service, user, users]
    rfl
  obtain ⟨notifications, notified, rfl⟩ := Option.map_eq_some_iff.mp told
  obtain ⟨copiedID, copyID, rest⟩ := Option.bind_eq_some_iff.mp notified
  obtain ⟨copiedMessage, copyMessage, same⟩ := Option.bind_eq_some_iff.mp rest
  have everyone : (manager.mRoomManager.mRoomList position).sendToAllUser index false =
      (manager.mRoomManager.mRoomList position).mUserList :=
    List.filter_eq_self.mpr fun _ _ => rfl
  cases same
  refine ChatService.ext rfl (funext fun slot => ?_) rfl rfl
  refine (packetsTo_append ..).trans (congrArg _ ?_)
  rw [rooms] at nodup
  rw [everyone, strcpyS_eq copyID, strcpyS_eq copyMessage, packetsTo_map nodup]
  simp only [listed]

/-- `RoomManager::EnterUser` for a slot which is logged in. -/
theorem Intact.enterUser_eq {manager : PacketManager n} (intact : manager.Intact) (index : Fin n)
    (number : Int) :
    ((manager.enterUser number index).1, (manager.enterUser number index).2.service) =
      if number < 0 ∨ ChatService.roomCount ≤ number then
        (.roomInvalidIndex, manager.service)
      else if ChatService.roomCapacity ≤ (manager.service.members number).card then
        (.enterRoomFullUser, manager.service)
      else
        (.none, manager.service.setSession index
          (.inRoom (manager.user index).mUserID number)) := by
  have existing : manager.mRoomManager.getRoomByNumber number = none ↔
      number < 0 ∨ ChatService.roomCount ≤ number :=
    getRoomByNumber_eq_none intact.regular number
  unfold enterUser RoomManager.enterUser
  cases located : manager.mRoomManager.getRoomByNumber number with
  | none =>
      rw [if_pos (existing.mp located)]
  | some position =>
      have exists_room : ¬ (number < 0 ∨ ChatService.roomCount ≤ number) := fun missing =>
        absurd (located.symm.trans (existing.mpr missing)) (Option.some_ne_none _)
      have count := intact.count_members located
      have capacity := intact.capacity position
      have name := (intact.regular.table.numbered.getRoomByNumber_eq_some.mp located).2
      rw [if_neg exists_room]
      unfold Room.enterUser
      by_cases full : ChatService.roomCapacity ≤ (manager.service.members number).card
      · have noRoom : (manager.mRoomManager.mRoomList position).mMaxUserCount ≤
            (manager.mRoomManager.mRoomList position).mCurrentUserCount := by
          rw [count, capacity]
          exact_mod_cast full
        rw [if_pos full]
        simp only [if_pos noRoom]
        rfl
      · have room : ¬ (manager.mRoomManager.mRoomList position).mMaxUserCount ≤
            (manager.mRoomManager.mRoomList position).mCurrentUserCount := by
          rw [count, capacity]
          exact_mod_cast full
        rw [if_neg full]
        simp only [if_neg room]
        refine Prod.ext rfl ?_
        have entered := @service_of_slot n manager
          { manager with
            mRoomManager := manager.mRoomManager.setRoom position
              (PacketEffect.joined (manager.mRoomManager.mRoomList position) index)
            mUserManager := manager.mUserManager.modifyUser index fun user =>
              user.enterRoom (manager.mRoomManager.mRoomList position).mRoomNumber }
          index _ rfl rfl rfl rfl
        rw [name]
        exact entered

/-! ## The handlers -/

theorem Intact.processLogin_service {manager : PacketManager n} (intact : manager.Intact)
    (index : Fin n) {pPacket : Bytes} (noTest : isTestUser (loginUserID pPacket) = false) :
    (manager.processLogin index loginRequestPacketSize pPacket).service =
      manager.service.serveLogin index (loginUserID pPacket) (loginTask index pPacket).pData := by
  have free := intact.dictionary_eq_none_iff (loginUserID pPacket)
  have absent := manager.mUserManager.findUserIndexByID_eq_neg_one (loginUserID pPacket)
  unfold processLogin ChatService.serveLogin
  rw [if_neg (not_not.mpr rfl)]
  dsimp only
  rw [if_neg (Bool.eq_false_iff.mp noTest)]
  by_cases taken : manager.service.Taken (loginUserID pPacket)
  · have known : manager.mUserManager.findUserIndexByID (loginUserID pPacket) ≠ -1 :=
      fun missing => free.mp (absent.mp missing) taken
    rw [if_pos known, if_pos taken, service_send]
  · have unknown := absent.mpr (free.mpr taken)
    rw [if_neg (not_not.mpr unknown), if_neg taken, if_pos unknown, intact.count_eq]
    split
    · exact service_send ..
    · rfl

theorem Intact.processLoginDBResult_service {manager after : PacketManager n}
    (intact : manager.Intact) {index : Fin n} {pPacket : Bytes}
    (completed : manager.processLoginDBResult index pPacket = some after) :
    after.service =
      manager.service.serveLoginResult index (redisResult pPacket) (redisUserID pPacket) := by
  have free := intact.dictionary_eq_none_iff (redisUserID pPacket)
  unfold ChatService.serveLoginResult
  by_cases success : redisResult pPacket = ErrorCode.none.code
  · rw [if_neg (not_not.mpr success)]
    unfold processLoginDBResult loginResultCode UserManager.addUser at completed
    rw [if_pos success, if_pos success] at completed
    by_cases taken : manager.service.Taken (redisUserID pPacket)
    · obtain ⟨owner, entry⟩ := Option.ne_none_iff_exists'.mp fun unknown => free.mp unknown taken
      rw [show manager.mUserManager.mUserIDDictionary (redisUserID pPacket) = some owner from
        entry] at completed
      cases completed
      rw [if_pos taken]
      exact service_send ..
    · have unknown := free.mpr taken
      rw [show manager.mUserManager.mUserIDDictionary (redisUserID pPacket) = none from
        unknown] at completed
      obtain ⟨userID, copied, logged⟩ := Option.bind_eq_some_iff.mp completed
      cases logged
      have same := strcpyS_eq copied
      simp only [user, UserManager.increaseUserCnt, UserManager.modifyUser, User.setLogin,
        Function.update_self] at same
      have slot := @service_of_slot n manager
        { manager with
          mUserManager := UserManager.increaseUserCnt
            { manager.mUserManager.modifyUser index
                (fun user => user.setLogin (redisUserID pPacket)) with
              mUserIDDictionary := Function.update manager.mUserManager.mUserIDDictionary
                (redisUserID pPacket) (some index) } }
        index _ rfl rfl rfl rfl
      rw [if_neg taken, service_send, service_pushMySQLTask, same]
      exact congrArg (fun served : ChatService n =>
        (served.log (.insertLoginEvent index (redisUserID pPacket))).reply index
          (.loginResponse ErrorCode.none.code)) slot
  · rw [if_pos success]
    unfold processLoginDBResult loginResultCode at completed
    rw [if_neg success, if_neg success] at completed
    cases completed
    exact service_send ..

theorem Intact.processEnterRoom_service {manager after : PacketManager n}
    (intact : manager.Intact) (afterIntact : after.Intact) {index : Fin n} {pPacket : Bytes}
    (completed : manager.processEnterRoom index pPacket = some after) :
    after.service = manager.service.serveEnter index (enterRoomNumber pPacket) := by
  unfold processEnterRoom at completed
  unfold ChatService.serveEnter
  rw [show manager.service.session index = (manager.user index).session from rfl]
  by_cases login : (manager.user index).mCurDomainState = .login
  · have entered := intact.enterUser_eq index (enterRoomNumber pPacket)
    have userID := manager.enterUser_mUserID (enterRoomNumber pPacket) index
    rw [if_neg (not_not.mpr login)] at completed
    rw [User.session_of_login login]
    dsimp only at completed ⊢
    generalize manager.enterUser (enterRoomNumber pPacket) index = result
      at completed entered userID
    obtain ⟨code, next⟩ := result
    dsimp only at completed entered userID
    split at entered
    · rename_i missing
      obtain ⟨rfl, same⟩ := Prod.mk.inj entered
      rw [if_pos missing, ← same]
      cases completed
      exact service_send ..
    · rename_i existing
      rw [if_neg existing]
      split at entered
      · rename_i full
        obtain ⟨rfl, same⟩ := Prod.mk.inj entered
        rw [if_pos full, ← same]
        cases completed
        exact service_send ..
      · rename_i notFull
        obtain ⟨rfl, same⟩ := Prod.mk.inj entered
        rw [if_neg notFull, ← same]
        obtain ⟨copied, copy, logged⟩ := Option.bind_eq_some_iff.mp completed
        obtain ⟨notified, told, sent⟩ := Option.bind_eq_some_iff.mp logged
        cases sent
        obtain ⟨users, rooms⟩ := notifyChat_managers told
        obtain ⟨position, located⟩ := Option.ne_none_iff_exists'.mp fun missing =>
          existing ((getRoomByNumber_eq_none afterIntact.regular _).mp missing)
        rw [show (notified.send index _).mRoomManager = _ from rooms] at located
        rw [located] at told
        have announced := service_notifyChat told afterIntact users rooms (rooms ▸ located)
        have sender : ((next.pushMySQLTask (.insertRoomEvent index copied
            (enterRoomNumber pPacket) .enter)).user index).mUserID =
              (manager.user index).mUserID := userID
        rw [service_send, announced, sender, strcpyS_eq copy, userID]
        rfl
  · rw [if_pos login] at completed
    cases completed
    cases state : (manager.user index).mCurDomainState with
    | none =>
        rw [(User.session_eq_anonymous_iff _).mpr state]
        exact service_send ..
    | login => exact absurd state login
    | room =>
        rw [User.session_of_room state]
        exact service_send ..

theorem Intact.processLeaveRoom_service {manager after : PacketManager n}
    (intact : manager.Intact) (afterIntact : after.Intact) {index : Fin n}
    (inRoom : (manager.user index).mCurDomainState = .room)
    (completed : manager.processLeaveRoom index = some after) :
    after.service = manager.service.serveLeave index := by
  obtain ⟨position, located⟩ :=
    Option.ne_none_iff_exists'.mp (intact.regular.table.located index inRoom)
  have left : manager.leaveUser (manager.user index).roomIndex index =
      (.none, { manager with
        mRoomManager := manager.mRoomManager.setRoom position
          ((manager.mRoomManager.mRoomList position).leaveUser index)
        mUserManager := manager.mUserManager.modifyUser index (·.setDomainState .login) }) := by
    unfold leaveUser RoomManager.leaveUser
    rw [located]
    rfl
  have userID := manager.leaveUser_mUserID (manager.user index).roomIndex index
  have slot := @service_of_slot n manager
    (manager.leaveUser (manager.user index).roomIndex index).2 index
    ((manager.user index).setDomainState .login) (by rw [left]; rfl) (by rw [left])
    (by rw [left]) (by rw [left])
  have existing : (manager.leaveUser (manager.user index).roomIndex
      index).2.mRoomManager.getRoomByNumber (manager.user index).roomIndex = some position := by
    rw [left]
    exact located
  have code := congrArg Prod.fst left
  clear left
  unfold processLeaveRoom at completed
  unfold ChatService.serveLeave
  rw [show manager.service.session index = (manager.user index).session from rfl,
    User.session_of_room inRoom]
  dsimp only at completed ⊢
  rw [located, if_pos code] at completed
  generalize manager.leaveUser (manager.user index).roomIndex index = result at *
  obtain ⟨_, next⟩ := result
  dsimp only at completed userID slot existing code
  rw [code] at completed
  obtain ⟨copied, copy, logged⟩ := Option.bind_eq_some_iff.mp completed
  obtain ⟨notified, told, sent⟩ := Option.bind_eq_some_iff.mp logged
  cases sent
  obtain ⟨users, rooms⟩ := notifyChat_managers told
  have located := (congrArg (RoomManager.getRoomByNumber · (manager.user index).roomIndex)
    rooms).trans existing
  have announced := service_notifyChat told afterIntact users rooms located
  have sender : ((next.pushMySQLTask (.insertRoomEvent index copied
      (manager.user index).roomIndex .leave)).user index).mUserID =
        (manager.user index).mUserID := userID
  rw [service_send, announced, sender, strcpyS_eq copy, userID, service_pushMySQLTask, slot]
  rfl

theorem Intact.processRoomChatMessage_service {manager after : PacketManager n}
    (intact : manager.Intact) (afterIntact : after.Intact) {index : Fin n} {pPacket : Bytes}
    (completed : manager.processRoomChatMessage index pPacket = some after) :
    after.service = manager.service.serveChat index (chatMessage pPacket) := by
  unfold processRoomChatMessage at completed
  unfold ChatService.serveChat
  rw [show manager.service.session index = (manager.user index).session from rfl]
  by_cases inRoom : (manager.user index).mCurDomainState = .room
  · obtain ⟨position, located⟩ :=
      Option.ne_none_iff_exists'.mp (intact.regular.table.located index inRoom)
    rw [if_neg (not_not.mpr inRoom)] at completed
    rw [User.session_of_room inRoom]
    dsimp only at completed ⊢
    rw [located] at completed
    obtain ⟨copied, copy, rest⟩ := Option.bind_eq_some_iff.mp completed
    obtain ⟨message, copyMessage, told⟩ := Option.bind_eq_some_iff.mp rest
    obtain ⟨users, rooms⟩ := notifyChat_managers told
    have located : after.mRoomManager.getRoomByNumber (manager.user index).roomIndex =
        some position := by
      rw [rooms]
      exact located
    have announced := service_notifyChat told afterIntact users rooms located
    rw [announced, service_pushMySQLTask, service_send, strcpyS_eq copy, strcpyS_eq copyMessage]
    rfl
  · rw [if_pos inRoom] at completed
    cases completed
    cases state : (manager.user index).mCurDomainState with
    | none =>
        rw [(User.session_eq_anonymous_iff _).mpr state]
        exact service_send ..
    | login =>
        rw [User.session_of_login state]
        exact service_send ..
    | room => exact absurd state inRoom

theorem service_clearConnectionInfo (manager : PacketManager n) (index : Fin n) :
    (manager.clearConnectionInfo index).service = manager.service.setSession index .anonymous := by
  have cleared : (PacketEffect.disconnect.onSlot manager.mRoomManager
      (manager.user index)).session = .anonymous := by
    simp only [PacketEffect.onSlot]
    split
    · rename_i none
      exact (User.session_eq_anonymous_iff _).mpr none
    · rfl
  have changed := (clearConnectionInfo_effect manager index).slots
  rw [← cleared]
  refine service_of_slot changed ?_ ?_ ?_ <;> unfold clearConnectionInfo leaveRoomOnClear <;>
    dsimp only <;> split <;> split <;> rfl

/-! ## Runs -/

/-- An orderly call completes. -/
theorem Intact.recv_isSome {manager : PacketManager n} {call : RecvCall n}
    (intact : manager.Intact) (orderly : OrderlyCall manager.service call) :
    (manager.recv call).isSome = true := by
  refine (manager.recv_isSome_iff call).mpr ⟨fun userID copied => ?_, fun found copies => ?_⟩
  · exact intact.fits.copies (fun redis => Nat.lt_succ_of_le (orderly.redis intact redis).2) copied
  · unfold OrderlyCall RecvCall.request at orderly
    unfold copiedUserIDs at copies
    simp only [found, ChatService.Orderly] at orderly copies
    by_cases inRoom : (manager.caller call).mCurDomainState = .room
    · have inside : (manager.service.session call.clientIndex).room? ≠ none := by
        rw [show manager.service.session call.clientIndex = _ from User.session_of_room inRoom]
        exact Option.some_ne_none _
      exact Nat.lt_succ_of_le (orderly inside)
    · exact absurd (if_neg fun both => inRoom both.1) copies

/-- An orderly call does to the logic layer what the service does with the request. -/
theorem simulates_recv :
    Simulation.Simulates (recv (n := n)) serveCall OrderlyCall service Intact := by
  intro manager call intact orderly
  obtain ⟨next, taken⟩ := Option.isSome_iff_exists.mp (intact.recv_isSome orderly)
  have nextIntact := intact.recv orderly taken
  refine ⟨next, taken, nextIntact, ?_⟩
  unfold recv processRecvPacket at taken
  unfold serveCall RecvCall.request
  cases found : findHandler call.packetId with
  | none =>
      rw [found] at taken
      cases taken
      rfl
  | some handler =>
      rw [found] at taken
      cases handler with
      | processUserConnect =>
          cases taken
          rfl
      | processUserDisconnect =>
          cases taken
          exact service_clearConnectionInfo ..
      | processLogin =>
          cases taken
          unfold OrderlyCall RecvCall.request at orderly
          rw [found] at orderly
          by_cases size : call.packetSize = loginRequestPacketSize
          · simp only [size, if_true] at orderly ⊢
            exact intact.processLogin_service _ orderly
          · simp only [size, if_false]
            exact congrArg service (if_pos (Ne.symm size))
      | processLoginDBResult => exact intact.processLoginDBResult_service taken
      | processEnterRoom => exact intact.processEnterRoom_service nextIntact taken
      | processLeaveRoom =>
          exact intact.processLeaveRoom_service nextIntact (orderly.leave found) taken
      | processRoomChatMessage => exact intact.processRoomChatMessage_service nextIntact taken
      | pong =>
          cases taken
          rfl

/--
From the start of the server on, orderly calls all complete, and at the end the slots, the
packets for each client and the tasks for both databases are those of the chat service.
-/
theorem run_serves (memory : Fin n → Bytes) {calls : List (RecvCall n)}
    (orderly : Simulation.Admissible serveCall OrderlyCall {} calls) :
    ∃ last, Execution.run? recv (PacketManager.init memory) calls = some last ∧ last.Intact ∧
      last.service = calls.foldl serveCall {} :=
  simulates_recv.run (intact_init memory) orderly

/-- Two clients log in and meet in room 0, one of them says something and leaves, and the other
is disconnected. -/
def meeting : List (RecvCall 2) :=
  [.loginRequest 0 (text ['a']) [], loginAccepted 0 (text ['a']), loginAccepted 1 (text ['b']),
    .roomEnterRequest 0, .roomEnterRequest 1, .roomChatRequest 1 (text ['h', 'i']),
    .roomLeaveRequest 1, .sysUserDisconnect 0]

theorem run_serves_meeting :
    (meeting.foldl serveCall {}).outbox 0 =
      [.loginResponse 0, .roomChatNotify (text ['a']) enteredText, .roomEnterResponse 0,
        .roomChatNotify (text ['b']) enteredText, .roomChatNotify (text ['b']) (text ['h', 'i']),
        .roomChatNotify (text ['b']) leftText] ∧
    ∃ last, Execution.run? recv (PacketManager.init fun _ => []) meeting = some last ∧
      last.Intact ∧ last.service = meeting.foldl serveCall {} :=
  ⟨by decide +kernel, run_serves _ (by decide +kernel)⟩

end PacketManager

end IOCPChatServer

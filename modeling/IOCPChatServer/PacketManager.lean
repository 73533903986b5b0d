import IOCPChatServer.Room

/-!
# The packet handlers

The data of `PacketManager` which only the logic thread touches, and the handlers
of `PacketManager.cpp` over it.  A handler returns `none` when a `strcpy_s` ends
the process.  `redisTasks`, `mysqlTasks` and `sentPackets` record every call of
`RedisManager::PushTask`, `MySQLManager::PushTask` and `SendPacketFunc`, in order.
-/

namespace IOCPChatServer

/-- The logic-thread part of `class PacketManager`. -/
structure PacketManager (n : Nat) where
  mUserManager : UserManager n
  mRoomManager : RoomManager n
  redisTasks : List (RedisTask n) := []
  mysqlTasks : List (MySQLTask n) := []
  sentPackets : List (Fin n × ServerPacket) := []

namespace PacketManager

variable {n : Nat}

/-- `CreateComponent`. -/
def init (memory : Fin n → Bytes) : PacketManager n where
  mUserManager := UserManager.init memory
  mRoomManager := RoomManager.init 0 250 8

/-- `UserManager::GetUserByConnIdx`. -/
def user (manager : PacketManager n) (index : Fin n) : User :=
  manager.mUserManager.mUserObjPool index

def modifyUser (manager : PacketManager n) (index : Fin n) (change : User → User) :
    PacketManager n :=
  { manager with mUserManager := manager.mUserManager.modifyUser index change }

def send (manager : PacketManager n) (index : Fin n) (packet : ServerPacket) :
    PacketManager n :=
  { manager with sentPackets := manager.sentPackets ++ [(index, packet)] }

def pushRedisTask (manager : PacketManager n) (task : RedisTask n) : PacketManager n :=
  { manager with redisTasks := manager.redisTasks ++ [task] }

def pushMySQLTask (manager : PacketManager n) (task : MySQLTask n) : PacketManager n :=
  { manager with mysqlTasks := manager.mysqlTasks ++ [task] }

/-- `RoomManager::EnterUser` on the slots of this manager. -/
def enterUser (manager : PacketManager n) (roomNumber : Int) (index : Fin n) :
    ErrorCode × PacketManager n :=
  let entered := manager.mRoomManager.enterUser manager.mUserManager.mUserObjPool
    roomNumber index
  (entered.1,
    { manager with
      mRoomManager := entered.2.1
      mUserManager := { manager.mUserManager with mUserObjPool := entered.2.2 } })

/-- `RoomManager::LeaveUser` on the slots of this manager. -/
def leaveUser (manager : PacketManager n) (roomNumber : Int) (index : Fin n) :
    ErrorCode × PacketManager n :=
  let left := manager.mRoomManager.leaveUser manager.mUserManager.mUserObjPool
    roomNumber index
  (left.1,
    { manager with
      mRoomManager := left.2.1
      mUserManager := { manager.mUserManager with mUserObjPool := left.2.2 } })

/-- `pRoom->NotifyChat`, skipped when `GetRoomByNumber` returned `nullptr`. -/
def notifyChat (manager : PacketManager n) (room : Option Nat) (index : Fin n)
    (userID message : Bytes) : Option (PacketManager n) :=
  match room with
  | none => some manager
  | some position =>
      ((manager.mRoomManager.mRoomList position).notifyChat index userID message).map
        fun notifications =>
          { manager with sentPackets := manager.sentPackets ++ notifications }

/-! ## Login -/

/-- The load-test prefix which skips authentication. -/
def testUser : Bytes := text ['t', 'e', 's', 't', '_', 'u', 's', 'e', 'r']

/-- `LOGIN_REQUEST_PACKET::UserID` as the handlers read it. -/
def loginUserID (pPacket : Bytes) : Bytes := cString (pPacket.drop packetHeaderLength)

/-- `strncmp(pUserID, prefix, prefixLen) == 0`. -/
def isTestUser (userID : Bytes) : Bool := testUser.isPrefixOf userID

/-- The task which `ProcessLogin` pushes for an ID which is not logged in. -/
def loginTask (index : Fin n) (pPacket : Bytes) : RedisTask n where
  UserIndex := index
  TaskID := .requestLogin
  pData := redisLoginReq (pPacket.drop packetHeaderLength)
    (pPacket.drop (packetHeaderLength + (maxUserIDLength + 1)))

/-- `ProcessLogin`. -/
def processLogin (manager : PacketManager n) (index : Fin n) (packetSize : Nat)
    (pPacket : Bytes) : PacketManager n :=
  if loginRequestPacketSize ≠ packetSize then manager
  else
    let userID := loginUserID pPacket
    if isTestUser userID then
      -- the load-test path logs in first and ignores the result of `Adduser`
      let loggedIn := manager.modifyUser index (fun user => user.setLogin userID)
      let added := { loggedIn with
        mUserManager := (loggedIn.mUserManager.addUser userID index).2 }
      added.send index (.loginResponse ErrorCode.none.code)
    else if manager.mUserManager.findUserIndexByID userID ≠ -1 then
      manager.send index (.loginResponse ErrorCode.loginUserAlready.code)
    else if n ≤ manager.mUserManager.mCurrentUserCnt then
      manager.send index (.loginResponse ErrorCode.loginUserUsedAllObj.code)
    else if manager.mUserManager.findUserIndexByID userID = -1 then
      manager.pushRedisTask (loginTask index pPacket)
    else
      manager.send index (.loginResponse ErrorCode.loginUserAlready.code)

/-- `RedisLoginRes::Result` and `RedisLoginRes::UserID` as the handler reads them. -/
def redisResult (pPacket : Bytes) : Nat := u16 pPacket 0

def redisUserID (pPacket : Bytes) : Bytes := cString (pPacket.drop 2)

/-- The value of `pBody->Result` when `ProcessLoginDBResult` sends its response. -/
def loginResultCode (manager : PacketManager n) (index : Fin n) (pPacket : Bytes) : Nat :=
  if redisResult pPacket = ErrorCode.none.code then
    if (manager.mUserManager.addUser (redisUserID pPacket) index).1 = .none then
      ErrorCode.none.code
    else ErrorCode.loginUserUsedAllObj.code
  else redisResult pPacket

/-- `ProcessLoginDBResult`. -/
def processLoginDBResult (manager : PacketManager n) (index : Fin n) (pPacket : Bytes) :
    Option (PacketManager n) :=
  let response := ServerPacket.loginResponse (manager.loginResultCode index pPacket)
  if redisResult pPacket = ErrorCode.none.code then
    let added := manager.mUserManager.addUser (redisUserID pPacket) index
    if added.1 = .none then do
      let counted := { manager with mUserManager := added.2.increaseUserCnt }
      let userID ← strcpyS (maxUserIDLength + 1) (counted.user index).mUserID
      pure ((counted.pushMySQLTask (.insertLoginEvent index userID)).send index response)
    else some (manager.send index response)
  else some (manager.send index response)

/-! ## Disconnection -/

/-- The part of `ClearConnectionInfo` between the purge and `DeleteUserInfo`. -/
def leaveRoomOnClear (manager : PacketManager n) (index : Fin n) : PacketManager n :=
  if (manager.user index).mCurDomainState = .room then
    (manager.leaveUser (manager.user index).roomIndex index).2
  else manager

/-- `ClearConnectionInfo` without the purge of the packet tasks. -/
def clearConnectionInfo (manager : PacketManager n) (index : Fin n) : PacketManager n :=
  let left := manager.leaveRoomOnClear index
  if (left.user index).mCurDomainState ≠ .none then
    { left with mUserManager := left.mUserManager.deleteUserInfo index }
  else left

/-! ## Rooms and chat -/

def enteredText : Bytes :=
  text ['e', 'n', 't', 'e', 'r', 'e', 'd', ' ', 't', 'h', 'e', ' ', 'r', 'o', 'o', 'm', '.']

def leftText : Bytes :=
  text ['h', 'a', 's', ' ', 'l', 'e', 'f', 't', ' ', 't', 'h', 'e', ' ',
    'r', 'o', 'o', 'm', '.']

/-- `ROOM_ENTER_REQUEST_PACKET::RoomNumber`. -/
def enterRoomNumber (pPacket : Bytes) : Int := i32 pPacket packetHeaderLength

/-- `ProcessEnterRoom`. -/
def processEnterRoom (manager : PacketManager n) (index : Fin n) (pPacket : Bytes) :
    Option (PacketManager n) :=
  if (manager.user index).mCurDomainState ≠ .login then
    some (manager.send index
      (.roomEnterResponse ErrorCode.enterRoomInvalidUserStatus.code))
  else
    let roomNumber := enterRoomNumber pPacket
    let entered := manager.enterUser roomNumber index
    let response := ServerPacket.roomEnterResponse entered.1.code
    if entered.1 = .none then do
      let userID ← strcpyS (maxUserIDLength + 1) (entered.2.user index).mUserID
      let logged := entered.2.pushMySQLTask (.insertRoomEvent index userID roomNumber .enter)
      let notified ← logged.notifyChat (logged.mRoomManager.getRoomByNumber roomNumber)
        index (logged.user index).mUserID enteredText
      pure (notified.send index response)
    else some (entered.2.send index response)

/-- `ProcessLeaveRoom`: the domain state of the slot is not looked at. -/
def processLeaveRoom (manager : PacketManager n) (index : Fin n) :
    Option (PacketManager n) :=
  let roomNumber := (manager.user index).roomIndex
  let room := manager.mRoomManager.getRoomByNumber roomNumber
  let left := manager.leaveUser roomNumber index
  let response := ServerPacket.roomLeaveResponse left.1.code
  if left.1 = .none then do
    let userID ← strcpyS (maxUserIDLength + 1) (left.2.user index).mUserID
    let logged := left.2.pushMySQLTask (.insertRoomEvent index userID roomNumber .leave)
    let notified ← logged.notifyChat room index (logged.user index).mUserID leftText
    pure (notified.send index response)
  else some (left.2.send index response)

/-- `ROOM_CHAT_REQUEST_PACKET::Message` as the handlers read it. -/
def chatMessage (pPacket : Bytes) : Bytes := cString (pPacket.drop packetHeaderLength)

/-- `ProcessRoomChatMessage`. -/
def processRoomChatMessage (manager : PacketManager n) (index : Fin n) (pPacket : Bytes) :
    Option (PacketManager n) :=
  if (manager.user index).mCurDomainState ≠ .room then
    some (manager.send index
      (.roomChatResponse ErrorCode.enterRoomInvalidUserStatus.code))
  else
    let roomNum := (manager.user index).roomIndex
    match manager.mRoomManager.getRoomByNumber roomNum with
    | none =>
        some (manager.send index
          (.roomChatResponse ErrorCode.chatRoomInvalidRoomNumber.code))
    | some room => do
        let responded := manager.send index (.roomChatResponse ErrorCode.none.code)
        let userID ← strcpyS (maxUserIDLength + 1) (responded.user index).mUserID
        let message ← strcpyS (maxChatMsg + 1) (chatMessage pPacket)
        let logged :=
          responded.pushMySQLTask (.insertChatMessage index userID roomNum message)
        logged.notifyChat (some room) index (logged.user index).mUserID
          (chatMessage pPacket)

/-! ## Dispatch -/

/-- The functions which `RegisterHandlers` puts into `mPacketHandlers`. -/
inductive PacketHandler where
  | processUserConnect
  | processUserDisconnect
  | processLogin
  | processLoginDBResult
  | processEnterRoom
  | processLeaveRoom
  | processRoomChatMessage
  | pong
  deriving DecidableEq, Repr

/-- `RegisterHandlers`: client, system and Redis identifiers share one table. -/
def mPacketHandlers : List (Nat × PacketHandler) :=
  [(PacketId.sysUserConnect.code, .processUserConnect),
    (PacketId.sysUserDisconnect.code, .processUserDisconnect),
    (PacketId.loginRequest.code, .processLogin),
    (RedisTaskID.responseLogin.code, .processLoginDBResult),
    (PacketId.roomEnterRequest.code, .processEnterRoom),
    (PacketId.roomLeaveRequest.code, .processLeaveRoom),
    (PacketId.roomChatRequest.code, .processRoomChatMessage),
    (PacketId.sysPong.code, .pong)]

/-- `mPacketHandlers.find`. -/
def findHandler (packetId : Nat) : Option PacketHandler := mPacketHandlers.lookup packetId

/-- A registered function called on its arguments. -/
def callHandler (manager : PacketManager n) (index : Fin n) (packetSize : Nat)
    (pPacket : Bytes) : PacketHandler → Option (PacketManager n)
  | .processUserConnect => some manager
  | .processUserDisconnect => some (manager.clearConnectionInfo index)
  | .processLogin => some (manager.processLogin index packetSize pPacket)
  | .processLoginDBResult => manager.processLoginDBResult index pPacket
  | .processEnterRoom => manager.processEnterRoom index pPacket
  | .processLeaveRoom => manager.processLeaveRoom index
  | .processRoomChatMessage => manager.processRoomChatMessage index pPacket
  | .pong => some manager

/-- `ProcessRecvPacket`: an unknown identifier is ignored. -/
def processRecvPacket (manager : PacketManager n) (index : Fin n) (packetId packetSize : Nat)
    (pPacket : Bytes) : Option (PacketManager n) :=
  match findHandler packetId with
  | some handler => manager.callHandler index packetSize pPacket handler
  | none => some manager

end PacketManager

end IOCPChatServer

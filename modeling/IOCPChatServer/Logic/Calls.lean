import IOCPChatServer.Library.Execution
import IOCPChatServer.Logic.PacketEffect

/-!
# Runs of the logic layer

A run of the logic layer is a list of calls of `ProcessRecvPacket`: client packets,
system packets and Redis results all arrive through it.  Nothing is assumed about
the arguments, so the runs below include every run of the server, whatever the
clients send and in whatever order the logic thread takes its queues.
-/

namespace IOCPChatServer

/-- The arguments of one call of `ProcessRecvPacket`. -/
structure RecvCall (n : Nat) where
  clientIndex : Fin n
  packetId : Nat
  packetSize : Nat
  pPacket : Bytes
  deriving DecidableEq, Repr

namespace RecvCall

variable {n : Nat}

/-- `LOGIN_REQUEST_PACKET` as a client lays it out. -/
def loginRequest (index : Fin n) (UserID UserPW : Bytes) : RecvCall n where
  clientIndex := index
  packetId := PacketId.loginRequest.code
  packetSize := loginRequestPacketSize
  pPacket :=
    u16Bytes loginRequestPacketSize ++ u16Bytes PacketId.loginRequest.code ++ [0] ++
      UserID ++ List.replicate (maxUserIDLength + 1 - UserID.length) 0 ++
      UserPW ++ List.replicate (maxUserPWLength + 1 - UserPW.length) 0

/-- `ROOM_ENTER_REQUEST_PACKET` for room 0. -/
def roomEnterRequest (index : Fin n) : RecvCall n where
  clientIndex := index
  packetId := PacketId.roomEnterRequest.code
  packetSize := packetHeaderLength + 4
  pPacket :=
    u16Bytes (packetHeaderLength + 4) ++ u16Bytes PacketId.roomEnterRequest.code ++
      [0, 0, 0, 0, 0]

/-- `ROOM_LEAVE_REQUEST_PACKET`. -/
def roomLeaveRequest (index : Fin n) : RecvCall n where
  clientIndex := index
  packetId := PacketId.roomLeaveRequest.code
  packetSize := packetHeaderLength
  pPacket :=
    u16Bytes packetHeaderLength ++ u16Bytes PacketId.roomLeaveRequest.code ++ [0]

/-- `PushSystemPacket(clientIndex, SYS_USER_DISCONNECT)` when it is processed. -/
def sysUserDisconnect (index : Fin n) : RecvCall n where
  clientIndex := index
  packetId := PacketId.sysUserDisconnect.code
  packetSize := 0
  pPacket := []

end RecvCall

namespace PacketManager

variable {n : Nat}

/-- One step of the logic layer. -/
def recv (manager : PacketManager n) (call : RecvCall n) : Option (PacketManager n) :=
  manager.processRecvPacket call.clientIndex call.packetId call.packetSize call.pPacket

/-- The slot which the call is about. -/
def caller (manager : PacketManager n) (call : RecvCall n) : User :=
  manager.user call.clientIndex

/-- The effect of the call in this state. -/
def effect (manager : PacketManager n) (call : RecvCall n) : PacketEffect :=
  manager.packetEffect call.clientIndex call.packetId call.packetSize call.pPacket

theorem ChangedBy.user_self {before after : PacketManager n} {index : Fin n}
    {effect : PacketEffect} (changed : before.ChangedBy index effect after) :
    after.user index = effect.onSlot before.mRoomManager (before.user index) := by
  unfold user
  rw [changed.slots, Function.update_self]
  rfl

theorem ChangedBy.user_of_ne {before after : PacketManager n} {index other : Fin n}
    {effect : PacketEffect} (changed : before.ChangedBy index effect after)
    (different : other ≠ index) : after.user other = before.user other := by
  unfold user
  rw [changed.slots, Function.update_of_ne different]

/-- A property of single slots holds of all slots if it does of the caller's. -/
theorem ChangedBy.forall_user {before after : PacketManager n} {index : Fin n}
    {effect : PacketEffect} (holds : User → Prop)
    (changed : before.ChangedBy index effect after)
    (all : ∀ slot, holds (before.user slot))
    (self : holds (effect.onSlot before.mRoomManager (before.user index))) (slot : Fin n) :
    holds (after.user slot) := by
  by_cases same : slot = index
  · rw [same, changed.user_self]
    exact self
  · rw [changed.user_of_ne same]
    exact all slot

/-! ## When a call has an effect -/

/-- The call is a load-test login. -/
def IsTestLogin (call : RecvCall n) : Prop :=
  findHandler call.packetId = some .processLogin ∧
    call.packetSize = loginRequestPacketSize ∧ isTestUser (loginUserID call.pPacket) = true

/-- The call is a successful login result for an ID which is not logged in. -/
def IsRedisLogin (manager : PacketManager n) (call : RecvCall n) : Prop :=
  findHandler call.packetId = some .processLoginDBResult ∧
    redisResult call.pPacket = ErrorCode.none.code ∧
    manager.mUserManager.mUserIDDictionary (redisUserID call.pPacket) = none

/-- The call is a leave request from a slot whose room index names a room. -/
def IsRoomLeave (manager : PacketManager n) (call : RecvCall n) : Prop :=
  findHandler call.packetId = some .processLeaveRoom ∧
    manager.mRoomManager.getRoomByNumber (manager.caller call).roomIndex ≠ none

/-- The call enters the room at this position. -/
structure EntersRoom (manager : PacketManager n) (call : RecvCall n) (position : Nat) :
    Prop where
  found : findHandler call.packetId = some .processEnterRoom
  located : manager.mRoomManager.getRoomByNumber (enterRoomNumber call.pPacket) = some position
  state : (manager.caller call).mCurDomainState = .login
  notFull : (manager.mRoomManager.mRoomList position).mCurrentUserCount <
    (manager.mRoomManager.mRoomList position).mMaxUserCount

/-- What the state before the call and the call itself look like, by effect. -/
inductive EffectCase (manager : PacketManager n) (call : RecvCall n) : PacketEffect → Prop where
  | keep (noTest : ¬ IsTestLogin call) (noRedis : ¬ manager.IsRedisLogin call)
      (noLeave : ¬ manager.IsRoomLeave call) : EffectCase manager call .keep
  | testLogin (test : IsTestLogin call) :
      EffectCase manager call (.testLogin (loginUserID call.pPacket))
  | redisLogin (redis : manager.IsRedisLogin call) :
      EffectCase manager call (.redisLogin (redisUserID call.pPacket))
  | disconnect (found : findHandler call.packetId = some .processUserDisconnect) :
      EffectCase manager call .disconnect
  | enter (room : Nat) (found : findHandler call.packetId = some .processEnterRoom)
      (located : manager.mRoomManager.getRoomByNumber (enterRoomNumber call.pPacket) = some room)
      (state : (manager.caller call).mCurDomainState = .login)
      (notFull : (manager.mRoomManager.mRoomList room).mCurrentUserCount <
        (manager.mRoomManager.mRoomList room).mMaxUserCount) :
      EffectCase manager call (.enter room)
  | leave (room : Nat) (found : findHandler call.packetId = some .processLeaveRoom)
      (located : manager.mRoomManager.getRoomByNumber (manager.caller call).roomIndex =
        some room) :
      EffectCase manager call (.leave room)

theorem isRoomLeave_of_located {manager : PacketManager n} {call : RecvCall n} {room : Nat}
    (found : findHandler call.packetId = some .processLeaveRoom)
    (located : manager.mRoomManager.getRoomByNumber (manager.caller call).roomIndex =
      some room) : manager.IsRoomLeave call :=
  ⟨found, fun none => nomatch none.symm.trans located⟩

/-- A handler which is none of the three which change a slot by an ID or a leave. -/
theorem EffectCase.of_handler {manager : PacketManager n} {call : RecvCall n}
    {handler : PacketHandler} (found : findHandler call.packetId = some handler)
    (login : handler ≠ .processLogin) (result : handler ≠ .processLoginDBResult)
    (leave : handler ≠ .processLeaveRoom) : manager.EffectCase call .keep := by
  refine .keep ?_ ?_ ?_
  · exact fun test => login (Option.some.inj (found.symm.trans test.1))
  · exact fun redis => result (Option.some.inj (found.symm.trans redis.1))
  · exact fun left => leave (Option.some.inj (found.symm.trans left.1))

theorem effectCase (manager : PacketManager n) (call : RecvCall n) :
    manager.EffectCase call (manager.effect call) := by
  have is {handler other : PacketHandler} (found : findHandler call.packetId = some handler)
      (found' : findHandler call.packetId = some other) : handler = other :=
    Option.some.inj (found.symm.trans found')
  unfold effect packetEffect
  cases found : findHandler call.packetId with
  | none =>
      refine .keep ?_ ?_ ?_
      · exact fun test => nomatch found.symm.trans test.1
      · exact fun redis => nomatch found.symm.trans redis.1
      · exact fun left => nomatch found.symm.trans left.1
  | some handler =>
      cases handler with
      | processUserConnect => exact .of_handler found nofun nofun nofun
      | processUserDisconnect => exact .disconnect found
      | processLogin =>
          dsimp only
          split
          · exact .testLogin ⟨found, by assumption⟩
          · refine .keep (fun test => ?_) (fun redis => ?_) (fun left => ?_)
            · exact absurd test.2 (by assumption)
            · exact nomatch is found redis.1
            · exact nomatch is found left.1
      | processLoginDBResult =>
          dsimp only
          split
          · exact .redisLogin ⟨found, by assumption⟩
          · refine .keep (fun test => ?_) (fun redis => ?_) (fun left => ?_)
            · exact nomatch is found test.1
            · exact absurd redis.2 (by assumption)
            · exact nomatch is found left.1
      | processEnterRoom =>
          dsimp only
          split
          · exact .of_handler found nofun nofun nofun
          · split
            · exact .enter _ found (by assumption) (And.left (by assumption))
                (And.right (by assumption))
            · exact .of_handler found nofun nofun nofun
      | processLeaveRoom =>
          dsimp only
          split
          · refine .keep (fun test => ?_) (fun redis => ?_) (fun left => ?_)
            · exact nomatch is found test.1
            · exact nomatch is found redis.1
            · exact absurd (by assumption) left.2
          · exact .leave _ found (by assumption)
      | processRoomChatMessage => exact .of_handler found nofun nofun nofun
      | pong => exact .of_handler found nofun nofun nofun

theorem EffectCase.eq_testLogin {manager : PacketManager n} {call : RecvCall n}
    {effect : PacketEffect} (effectCase : manager.EffectCase call effect)
    (test : IsTestLogin call) : effect = .testLogin (loginUserID call.pPacket) := by
  cases effectCase with
  | keep noTest noRedis noLeave => exact absurd test noTest
  | testLogin => rfl
  | redisLogin redis => exact nomatch test.1.symm.trans redis.1
  | disconnect found => exact nomatch test.1.symm.trans found
  | enter room found located state notFull => exact nomatch test.1.symm.trans found
  | leave room found located => exact nomatch test.1.symm.trans found

theorem EffectCase.eq_redisLogin {manager : PacketManager n} {call : RecvCall n}
    {effect : PacketEffect} (effectCase : manager.EffectCase call effect)
    (redis : manager.IsRedisLogin call) :
    effect = .redisLogin (redisUserID call.pPacket) := by
  cases effectCase with
  | keep noTest noRedis noLeave => exact absurd redis noRedis
  | testLogin test => exact nomatch redis.1.symm.trans test.1
  | redisLogin => rfl
  | disconnect found => exact nomatch redis.1.symm.trans found
  | enter room found located state notFull => exact nomatch redis.1.symm.trans found
  | leave room found located => exact nomatch redis.1.symm.trans found

theorem EffectCase.eq_leave {manager : PacketManager n} {call : RecvCall n}
    {effect : PacketEffect} (effectCase : manager.EffectCase call effect)
    (leave : manager.IsRoomLeave call) :
    ∃ room, effect = .leave room ∧
      manager.mRoomManager.getRoomByNumber (manager.caller call).roomIndex = some room := by
  cases effectCase with
  | keep noTest noRedis noLeave => exact absurd leave noLeave
  | testLogin test => exact nomatch leave.1.symm.trans test.1
  | redisLogin redis => exact nomatch leave.1.symm.trans redis.1
  | disconnect found => exact nomatch leave.1.symm.trans found
  | enter room found located state notFull => exact nomatch leave.1.symm.trans found
  | leave room found located => exact ⟨room, rfl, located⟩

theorem EntersRoom.effect {manager : PacketManager n} {call : RecvCall n} {position : Nat}
    (enters : manager.EntersRoom call position) : manager.effect call = .enter position := by
  unfold PacketManager.effect packetEffect
  rw [enters.found]
  dsimp only
  rw [enters.located]
  exact if_pos ⟨enters.state, enters.notFull⟩

/-- The inversion of one step of the logic layer. -/
theorem recv_cases {manager next : PacketManager n} {call : RecvCall n}
    (taken : manager.recv call = some next) :
    ∃ effect, manager.EffectCase call effect ∧
      manager.ChangedBy call.clientIndex effect next :=
  ⟨manager.effect call, manager.effectCase call, processRecvPacket_effect taken⟩

end PacketManager

end IOCPChatServer

import IOCPChatServer.Logic.Calls

/-!
# Authentication by the state machine

A slot should be `LOGIN` or `ROOM` only after a `SetLogin` which no `Clear`
followed.  `ProcessLeaveRoom` does not look at the domain state and `Clear` leaves
`roomIndex` as it was, so the one way round the login is a leave request from a
`NONE` slot whose room index still names a room.
-/

namespace IOCPChatServer

/-- The slot is `NONE` or has logged in since it was last cleared. -/
def User.Authenticated (user : User) : Prop :=
  user.mCurDomainState ≠ .none → user.loginSinceClear = true

/-- A slot which has logged in since it was last cleared is not `NONE`. -/
def User.LoginHistory (user : User) : Prop :=
  user.loginSinceClear = true → user.mCurDomainState ≠ .none

namespace PacketManager

variable {n : Nat}

/-- Every slot which is not `NONE` has logged in since it was last cleared. -/
def Authenticated (manager : PacketManager n) : Prop :=
  ∀ slot, (manager.user slot).Authenticated

/-- The call is a room packet: enter, leave or chat. -/
def IsRoomPacket (call : RecvCall n) : Prop :=
  findHandler call.packetId = some .processEnterRoom ∨
    findHandler call.packetId = some .processLeaveRoom ∨
    findHandler call.packetId = some .processRoomChatMessage

/-- The call does not move its slot out of `NONE` if it is a room packet. -/
def RoomPacketKeepsNone (manager : PacketManager n) (call : RecvCall n) : Prop :=
  IsRoomPacket call → (manager.caller call).mCurDomainState = .none →
    ∀ next, manager.recv call = some next →
      (next.caller call).mCurDomainState = .none

/-- A leave request whose room index names a room comes from a slot in a state
other than `NONE`. -/
def LeavesAfterLogin (manager : PacketManager n) (call : RecvCall n) : Prop :=
  manager.IsRoomLeave call → (manager.caller call).mCurDomainState ≠ .none

/-- The history variable is cleared together with the domain state. -/
def LoginHistory (manager : PacketManager n) : Prop :=
  ∀ slot, (manager.user slot).LoginHistory

theorem loginHistory_init (memory : Fin n → Bytes) :
    (PacketManager.init memory).LoginHistory :=
  fun _ impossible => nomatch impossible

theorem authenticated_init (memory : Fin n → Bytes) :
    (PacketManager.init memory).Authenticated :=
  fun _ active => absurd rfl active

theorem loginHistory_recv {manager next : PacketManager n} {call : RecvCall n}
    (history : manager.LoginHistory) (taken : manager.recv call = some next) :
    next.LoginHistory := by
  obtain ⟨effect, effectCase, changed⟩ := recv_cases taken
  refine changed.forall_user User.LoginHistory history ?_
  have own := history call.clientIndex
  cases effectCase with
  | keep noTest noRedis noLeave => exact own
  | testLogin test =>
      intro _ none
      cases none
  | redisLogin redis =>
      intro _ none
      cases none
  | disconnect found =>
      simp only [PacketEffect.onSlot]
      split
      · exact own
      · intro active
        cases active
  | enter room found located state notFull =>
      intro _ none
      cases none
  | leave room found located =>
      intro _ none
      cases none

/-- From a good state a step ends in a good state just when it is no leave request
of a slot which has not logged in. -/
theorem authenticated_recv_iff {manager next : PacketManager n} {call : RecvCall n}
    (history : manager.LoginHistory) (authenticated : manager.Authenticated)
    (taken : manager.recv call = some next) :
    next.Authenticated ↔ manager.LeavesAfterLogin call := by
  obtain ⟨effect, effectCase, changed⟩ := recv_cases taken
  have own := authenticated call.clientIndex
  by_cases leaves : manager.IsRoomLeave call
  · obtain ⟨room, rfl, _⟩ := effectCase.eq_leave leaves
    constructor
    · intro good _
      have loggedIn := good call.clientIndex
      rw [changed.user_self] at loggedIn
      refine history call.clientIndex (loggedIn fun none => ?_)
      cases none
    · intro condition
      exact changed.forall_user User.Authenticated authenticated
        fun _ => own (condition leaves)
  · refine ⟨fun _ leave => absurd leave leaves,
      fun _ => changed.forall_user User.Authenticated authenticated ?_⟩
    cases effectCase with
    | keep noTest noRedis noLeave => exact own
    | testLogin test => exact fun _ => rfl
    | redisLogin redis => exact fun _ => rfl
    | disconnect found =>
        simp only [PacketEffect.onSlot]
        split
        · exact own
        · exact fun active => absurd rfl active
    | enter room found located state notFull =>
        refine fun _ => own fun none => ?_
        cases none.symm.trans state
    | leave room found located => exact absurd (isRoomLeave_of_located found located) leaves

/-- Of the room packets only the leave request can move a slot out of `NONE`. -/
theorem roomPacketKeepsNone_of_leavesAfterLogin {manager : PacketManager n}
    {call : RecvCall n} (condition : manager.LeavesAfterLogin call) :
    manager.RoomPacketKeepsNone call := by
  intro roomPacket none next taken
  obtain ⟨effect, effectCase, changed⟩ := recv_cases taken
  have slot : next.caller call = effect.onSlot manager.mRoomManager (manager.caller call) :=
    changed.user_self
  have other {handler : PacketHandler} (found : findHandler call.packetId = some handler) :
      handler = .processEnterRoom ∨ handler = .processLeaveRoom ∨
        handler = .processRoomChatMessage := by
    simpa [IsRoomPacket, found] using roomPacket
  rw [slot]
  cases effectCase with
  | keep noTest noRedis noLeave => exact none
  | testLogin test => simpa using other test.1
  | redisLogin redis => simpa using other redis.1
  | disconnect found => simpa using other found
  | enter room found located state notFull => exact nomatch none.symm.trans state
  | leave room found located =>
      exact absurd none (condition (isRoomLeave_of_located found located))

/--
A run keeps every slot behind its login precisely when none of its leave requests
comes from a `NONE` slot with the number of a room; the room packets then leave
`NONE` slots alone.
-/
theorem authenticated_iff_leavesAfterLogin (memory : Fin n → Bytes)
    (calls : List (RecvCall n)) :
    (Execution.Always recv Authenticated (PacketManager.init memory) calls ∧
      Execution.Throughout recv RoomPacketKeepsNone (PacketManager.init memory) calls) ↔
    Execution.Throughout recv LeavesAfterLogin (PacketManager.init memory) calls := by
  have exact : Execution.Always recv Authenticated (PacketManager.init memory) calls ↔
      Execution.Throughout recv LeavesAfterLogin (PacketManager.init memory) calls :=
    Execution.always_iff_throughout
      (fun _ _ _ history taken => loginHistory_recv history taken)
      (fun _ _ _ history good taken => authenticated_recv_iff history good taken)
      (loginHistory_init memory) (authenticated_init memory) calls
  constructor
  · exact fun both => exact.mp both.1
  · intro condition
    exact ⟨exact.mpr condition,
      condition.mono fun _ _ => roomPacketKeepsNone_of_leavesAfterLogin⟩

/-- Log in, enter room 0, disconnect: the next connection of the slot leaves the
room which it never entered and is `LOGIN` without a login. -/
def leaveWithoutLogin : List (RecvCall 1) :=
  [.loginRequest 0 (testUser ++ text ['1']) [], .roomEnterRequest 0, .sysUserDisconnect 0,
    .roomLeaveRequest 0]

theorem leaveWithoutLogin_not_authenticated :
    ¬ Execution.Always recv Authenticated (PacketManager.init fun _ => []) leaveWithoutLogin := by
  intro always
  have seen : (Execution.run? recv (PacketManager.init fun _ => []) leaveWithoutLogin).map
      (fun last => ((last.user 0).mCurDomainState, (last.user 0).loginSinceClear)) =
        some (.login, false) := by decide +kernel
  obtain ⟨last, authenticated, observed⟩ := always.observed seen
  obtain ⟨state, history⟩ := Prod.mk.inj observed
  have loggedIn := authenticated 0 (by rw [state]; exact nofun)
  rw [history] at loggedIn
  exact Bool.noConfusion loggedIn

end PacketManager

end IOCPChatServer

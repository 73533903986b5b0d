import IOCPChatServer.Logic.UserIDs
import IOCPChatServer.Network.PacketLayout

/-!
# The packets which the handlers send

Whatever the clients send, the values in the packets of the server fit into their fields:
result codes are 16-bit numbers, and what `NotifyChat` copies was cut at its NUL and passed
`strcpy_s`.
-/

namespace IOCPChatServer

theorem u16_lt (bytes : Bytes) (offset : Nat) : u16 bytes offset < 65536 := by
  have low := (bytes.getD offset 0).toNat_lt
  have high := (bytes.getD (offset + 1) 0).toNat_lt
  unfold u16
  omega

theorem ErrorCode.code_lt (error : ErrorCode) : error.code < 65536 := by
  cases error <;> decide

namespace PacketManager

variable {n : Nat}

/-- The stored IDs are C strings, and all packets so far fit. -/
structure SendsFittingPackets (manager : PacketManager n) : Prop where
  names : ∀ slot, 0 ∉ (manager.user slot).mUserID
  packets : ∀ sent ∈ manager.sentPackets, sent.2.Fits

theorem sendsFittingPackets_init (memory : Fin n → Bytes) :
    (PacketManager.init memory).SendsFittingPackets where
  names _ := List.not_mem_nil
  packets _ member := absurd member List.not_mem_nil

theorem fits_send {manager : PacketManager n} {packet : ServerPacket}
    (fit : ∀ sent ∈ manager.sentPackets, sent.2.Fits) (index : Fin n) (fits : packet.Fits) :
    ∀ sent ∈ (manager.send index packet).sentPackets, sent.2.Fits := by
  intro sent member
  rcases List.mem_append.mp member with old | new
  · exact fit sent old
  · rw [List.mem_singleton.mp new]
    exact fits

/-- What `NotifyChat` sends has passed its copies. -/
theorem fits_notifyChat {manager after : PacketManager n} {room : Option Nat} {index : Fin n}
    {userID message : Bytes} (fit : ∀ sent ∈ manager.sentPackets, sent.2.Fits)
    (name : 0 ∉ userID) (letters : 0 ∉ message)
    (told : manager.notifyChat room index userID message = some after) :
    ∀ sent ∈ after.sentPackets, sent.2.Fits := by
  cases room with
  | none =>
      cases told
      exact fit
  | some position =>
      obtain ⟨notifications, notified, rfl⟩ := Option.map_eq_some_iff.mp told
      obtain ⟨copiedID, copyID, rest⟩ := Option.bind_eq_some_iff.mp notified
      obtain ⟨copiedMessage, copyMessage, same⟩ := Option.bind_eq_some_iff.mp rest
      cases same
      intro sent member
      rcases List.mem_append.mp member with old | new
      · exact fit sent old
      · obtain ⟨receiver, _, rfl⟩ := List.mem_map.mp new
        have shortID := Nat.lt_succ_of_le (strcpyS_length copyID)
        have shortMessage := Nat.lt_succ_of_le (strcpyS_length copyMessage)
        rw [strcpyS_eq copyID, strcpyS_eq copyMessage]
        exact ⟨⟨shortID, name⟩, shortMessage, letters⟩

/-! ## The handlers -/

theorem SendsFittingPackets.processLogin {manager : PacketManager n}
    (fitting : manager.SendsFittingPackets) (index : Fin n) (packetSize : Nat)
    (pPacket : Bytes) :
    ∀ sent ∈ (manager.processLogin index packetSize pPacket).sentPackets, sent.2.Fits := by
  have answered (error : ErrorCode) :
      ∀ sent ∈ (manager.send index (.loginResponse error.code)).sentPackets, sent.2.Fits :=
    fits_send fitting.packets index error.code_lt
  unfold PacketManager.processLogin
  split
  · exact fitting.packets
  · dsimp only
    split
    · exact answered .none
    · split
      · exact answered .loginUserAlready
      · split
        · exact answered .loginUserUsedAllObj
        · split
          · exact fitting.packets
          · exact answered .loginUserAlready

theorem loginResultCode_lt (manager : PacketManager n) (index : Fin n) (pPacket : Bytes) :
    manager.loginResultCode index pPacket < 65536 := by
  unfold loginResultCode
  split
  · split <;> exact ErrorCode.code_lt _
  · exact u16_lt pPacket 0

theorem SendsFittingPackets.processLoginDBResult {manager after : PacketManager n}
    (fitting : manager.SendsFittingPackets) {index : Fin n} {pPacket : Bytes}
    (completed : manager.processLoginDBResult index pPacket = some after) :
    ∀ sent ∈ after.sentPackets, sent.2.Fits := by
  have code := manager.loginResultCode_lt index pPacket
  unfold PacketManager.processLoginDBResult at completed
  dsimp only at completed
  split at completed
  · split at completed
    · obtain ⟨userID, _, rest⟩ := Option.bind_eq_some_iff.mp completed
      cases rest
      exact fits_send fitting.packets index code
    · cases completed
      exact fits_send fitting.packets index code
  · cases completed
    exact fits_send fitting.packets index code

theorem zero_notMem_enteredText : 0 ∉ enteredText := by decide

theorem zero_notMem_leftText : 0 ∉ leftText := by decide

theorem SendsFittingPackets.processEnterRoom {manager after : PacketManager n}
    (fitting : manager.SendsFittingPackets) {index : Fin n} {pPacket : Bytes}
    (completed : manager.processEnterRoom index pPacket = some after) :
    ∀ sent ∈ after.sentPackets, sent.2.Fits := by
  have code := ErrorCode.code_lt (manager.enterUser (enterRoomNumber pPacket) index).1
  have name := fitting.names index
  rw [← manager.enterUser_mUserID (enterRoomNumber pPacket)] at name
  unfold PacketManager.processEnterRoom at completed
  dsimp only at completed
  split at completed
  · cases completed
    exact fits_send fitting.packets index (ErrorCode.code_lt _)
  · split at completed
    · obtain ⟨copy, _, logged⟩ := Option.bind_eq_some_iff.mp completed
      obtain ⟨notified, told, sent⟩ := Option.bind_eq_some_iff.mp logged
      cases sent
      refine fits_send (fits_notifyChat ?_ name zero_notMem_enteredText told) index code
      exact fitting.packets
    · cases completed
      exact fits_send fitting.packets index code

theorem SendsFittingPackets.processLeaveRoom {manager after : PacketManager n}
    (fitting : manager.SendsFittingPackets) {index : Fin n}
    (completed : manager.processLeaveRoom index = some after) :
    ∀ sent ∈ after.sentPackets, sent.2.Fits := by
  have code := ErrorCode.code_lt (manager.leaveUser (manager.user index).roomIndex index).1
  have name := fitting.names index
  rw [← manager.leaveUser_mUserID (manager.user index).roomIndex] at name
  unfold PacketManager.processLeaveRoom at completed
  dsimp only at completed
  split at completed
  · obtain ⟨copy, _, logged⟩ := Option.bind_eq_some_iff.mp completed
    obtain ⟨notified, told, sent⟩ := Option.bind_eq_some_iff.mp logged
    cases sent
    refine fits_send (fits_notifyChat ?_ name zero_notMem_leftText told) index code
    exact fitting.packets
  · cases completed
    exact fits_send fitting.packets index code

theorem SendsFittingPackets.processRoomChatMessage {manager after : PacketManager n}
    (fitting : manager.SendsFittingPackets) {index : Fin n} {pPacket : Bytes}
    (completed : manager.processRoomChatMessage index pPacket = some after) :
    ∀ sent ∈ after.sentPackets, sent.2.Fits := by
  have answered (error : ErrorCode) :
      ∀ sent ∈ (manager.send index (.roomChatResponse error.code)).sentPackets, sent.2.Fits :=
    fits_send fitting.packets index error.code_lt
  unfold PacketManager.processRoomChatMessage at completed
  dsimp only at completed
  split at completed
  · cases completed
    exact answered .enterRoomInvalidUserStatus
  · split at completed
    · cases completed
      exact answered .chatRoomInvalidRoomNumber
    · obtain ⟨copy, _, rest⟩ := Option.bind_eq_some_iff.mp completed
      obtain ⟨message, _, told⟩ := Option.bind_eq_some_iff.mp rest
      refine fits_notifyChat ?_ (fitting.names index) (zero_notMem_cString _) told
      exact answered .none

/-- The IDs which a call stores are C strings. -/
theorem names_recv {manager next : PacketManager n} {call : RecvCall n}
    (names : ∀ slot, 0 ∉ (manager.user slot).mUserID)
    (taken : manager.recv call = some next) : ∀ slot, 0 ∉ (next.user slot).mUserID := by
  obtain ⟨effect, effectCase, changed⟩ := recv_cases taken
  refine changed.forall_user (fun user => 0 ∉ user.mUserID) names ?_
  have own := names call.clientIndex
  cases effectCase with
  | keep noTest noRedis noLeave => exact own
  | testLogin test => exact zero_notMem_cString _
  | redisLogin redis => exact zero_notMem_cString _
  | disconnect found =>
      simp only [PacketEffect.onSlot]
      split
      · exact own
      · exact List.not_mem_nil
  | enter room found located state notFull => exact own
  | leave room found located => exact own

/-- Every completed call of `ProcessRecvPacket`. -/
theorem SendsFittingPackets.recv {manager next : PacketManager n} {call : RecvCall n}
    (fitting : manager.SendsFittingPackets) (taken : manager.recv call = some next) :
    next.SendsFittingPackets := by
  constructor
  · exact names_recv fitting.names taken
  · unfold PacketManager.recv processRecvPacket at taken
    cases found : findHandler call.packetId with
    | none =>
        rw [found] at taken
        cases taken
        exact fitting.packets
    | some handler =>
        rw [found] at taken
        cases handler with
        | processUserConnect =>
            cases taken
            exact fitting.packets
        | processUserDisconnect =>
            cases taken
            have same : (manager.clearConnectionInfo call.clientIndex).sentPackets =
                manager.sentPackets := by
              unfold clearConnectionInfo leaveRoomOnClear
              dsimp only
              split <;> split <;> rfl
            rw [same]
            exact fitting.packets
        | processLogin =>
            cases taken
            exact fitting.processLogin _ _ _
        | processLoginDBResult => exact fitting.processLoginDBResult taken
        | processEnterRoom => exact fitting.processEnterRoom taken
        | processLeaveRoom => exact fitting.processLeaveRoom taken
        | processRoomChatMessage => exact fitting.processRoomChatMessage taken
        | pong =>
            cases taken
            exact fitting.packets

/-- Every run of the logic layer. -/
theorem always_sendsFittingPackets (memory : Fin n → Bytes) (calls : List (RecvCall n)) :
    Execution.Always recv SendsFittingPackets (PacketManager.init memory) calls :=
  Execution.always_of_invariant (fun _ _ _ fitting taken => fitting.recv taken)
    (sendsFittingPackets_init memory) calls

end PacketManager

end IOCPChatServer

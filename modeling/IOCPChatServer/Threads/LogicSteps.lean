import IOCPChatServer.Logic.Regular
import IOCPChatServer.Threads.Mailboxes

/-!
# The logic layer under the threads

What a step of the server does to the data of the logic layer: at most one call of a
handler, one part of `ClearConnectionInfo`, or one access to a reassembly buffer.  An
invariant of the logic layer which all of these keep holds in every state which the
server reaches.
-/

namespace IOCPChatServer

namespace ChatServer

variable {n : Nat}

/-- The ways in which a step can change the data of the logic layer. -/
inductive LogicCase (server : ChatServer n) : PacketManager n → Prop where
  | same : LogicCase server server.logic
  | setPacketData (index : Fin n) (data : Bytes) :
      LogicCase server (server.logic.modifyUser index fun user => user.setPacketData data)
  | takePacket (index : Fin n) : LogicCase server (server.takePacket index).logic
  | recv (call : RecvCall n) (logic : PacketManager n)
      (taken : server.logic.recv call = some logic) : LogicCase server logic
  | dispatch (index : Fin n) (call : RecvCall n) (logic : PacketManager n)
      (taken : (server.takePacket index).logic.recv call = some logic) : LogicCase server logic
  | storeResult (index : Fin n) (call : RecvCall n) (logic : PacketManager n)
      (taken : (server.takePacket index).logic.recv call = some logic) (code : Nat) :
      LogicCase server
        (logic.modifyUser index fun user => { user with
          m_tempPacketBuffer := u16Bytes code ++ user.m_tempPacketBuffer.drop 2 })
  | leaveRoom (index : Fin n) : LogicCase server (server.logic.leaveRoomOnClear index)
  | eraseAndClear (index : Fin n) :
      LogicCase server
        { server.logic.leaveRoomOnClear index with
          mUserManager :=
            (server.logic.leaveRoomOnClear index).mUserManager.eraseAndClear index }
  | retireGeneration (index : Fin n) :
      LogicCase server
        { server.logic with
          mUserManager := server.logic.mUserManager.retireGeneration index }

/-- A call of `ProcessRecvPacket` begins to clear a connection or runs a handler. -/
theorem processRecvPacket_logic {server after : ChatServer n} {index : Fin n}
    {packetId packetSize : Nat} {pPacket : Bytes} {connection : Nat} {fromSystem : Bool}
    (completed : server.processRecvPacket index packetId packetSize pPacket connection
      fromSystem = some after) :
    (PacketManager.findHandler packetId = some .processUserDisconnect ∧
        after.logic = server.logic) ∨
      server.logic.recv ⟨index, packetId, packetSize, pPacket⟩ = some after.logic := by
  unfold processRecvPacket at completed
  split at completed
  · rename_i found
    cases completed
    exact Or.inl ⟨found, rfl⟩
  · obtain ⟨logic, ran, rfl⟩ := Option.map_eq_some_iff.mp completed
    exact Or.inr ran

theorem LogicCase.of_received (server : ChatServer n) {before after : ChatServer n}
    {index : Fin n} {packetId packetSize : Nat} {pPacket : Bytes} {connection : Nat}
    {fromSystem : Bool}
    (completed : before.processRecvPacket index packetId packetSize pPacket connection
      fromSystem = some after) (same : before.logic = server.logic) :
    server.LogicCase after.logic := by
  rcases processRecvPacket_logic completed with ⟨_, unchanged⟩ | ran
  · rw [unchanged, same]
    exact .same
  · rw [same] at ran
    exact .recv _ _ ran

theorem drain_logic {server next : ChatServer n} {index : Fin n}
    (taken : server.drain index = some next) : server.LogicCase next.logic := by
  unfold drain at taken
  dsimp only at taken
  split at taken
  · cases taken
    exact .takePacket index
  · obtain ⟨after, completed, rfl⟩ := Option.map_eq_some_iff.mp taken
    unfold storeResult
    rcases processRecvPacket_logic completed with ⟨found, unchanged⟩ | ran
    · split
      · rename_i result
        exact nomatch found.symm.trans result
      · rw [unchanged]
        exact .takePacket index
    · split
      · exact .storeResult index _ _ ran _
      · exact .dispatch index _ _ ran

theorem processPacket_logic {server next : ChatServer n}
    (taken : server.processPacket = some next) : server.LogicCase next.logic := by
  unfold processPacket at taken
  split at taken
  · split at taken
    · cases taken
    · cases taken
      exact .same
  · split at taken
    · cases taken
      exact .same
    · exact .of_received server taken rfl
  · split at taken
    · cases taken
      exact .same
    · split at taken
      · cases taken
        exact .same
      · cases taken
        exact .same
  · exact drain_logic taken
  · split at taken
    · cases taken
      exact .same
    · split at taken
      · cases taken
        exact .same
      · exact .of_received server taken rfl

/-- Every step of the server is one of the cases for the logic layer. -/
theorem step_logic {server next : ChatServer n} {event : Event n}
    (taken : server.step event = some next) : server.LogicCase next.logic := by
  cases event with
  | logic =>
      change server.logicStep = some next at taken
      unfold logicStep at taken
      split at taken
      · exact processPacket_logic taken
      · rename_i clearing ongoing
        split at taken
        · cases taken
          exact .same
        · cases taken
          unfold clear
          dsimp only
          split
          · exact .leaveRoom clearing.clientIndex
          · exact .eraseAndClear clearing.clientIndex
        · cases taken
          exact .retireGeneration clearing.clientIndex
  | setPacketData index connection =>
      cases step_cases taken with
      | setPacketData _ _ data given => exact .setPacketData index data
  | accept index =>
      cases step_cases taken with
      | accept _ free => exact .same
  | onConnect index =>
      cases step_cases taken with
      | onConnect => exact .same
  | close index =>
      cases step_cases taken with
      | close _ isOpen => exact .same
  | receive index data =>
      cases step_cases taken with
      | receive _ _ idle nonempty => exact .same
  | enqueuePacketData index connection =>
      cases step_cases taken with
      | enqueuePacketData _ _ written => exact .same
  | redisTake =>
      cases step_cases taken with
      | redisTake task rest front => exact .same
  | redisAnswer worker value =>
      cases step_cases taken with
      | redisAnswer _ _ task responses busy answered => exact .same

/-! ## Regular states and full buffers -/

/-- `GetPacket` looks at nothing else of the slot. -/
theorem getPacket_keeps (user : User) :
    user.getPacket.2.mCurDomainState = user.mCurDomainState ∧
      user.getPacket.2.roomIndex = user.roomIndex ∧
      user.getPacket.2.mUserID = user.mUserID := by
  unfold User.getPacket
  split
  · exact ⟨rfl, rfl, rfl⟩
  · split
    · exact ⟨rfl, rfl, rfl⟩
    · dsimp only
      split
      · exact ⟨rfl, rfl, rfl⟩
      · split
        · exact ⟨rfl, rfl, rfl⟩
        · exact ⟨rfl, rfl, rfl⟩

theorem regular_takePacket {server : ChatServer n} (regular : server.logic.Regular)
    (index : Fin n) : (server.takePacket index).logic.Regular := by
  obtain ⟨state, roomIndex, userID⟩ := getPacket_keeps (server.user index)
  exact regular.modifyUser index _ state roomIndex userID

theorem regular_step {server next : ChatServer n} {event : Event n}
    (regular : server.logic.Regular) (taken : server.step event = some next) :
    next.logic.Regular := by
  have stepped := step_logic taken
  generalize next.logic = after at stepped ⊢
  cases stepped with
  | same => exact regular
  | setPacketData index data => exact regular.modifyUser index _ rfl rfl rfl
  | takePacket index => exact regular_takePacket regular index
  | recv call logic received => exact regular.recv received
  | dispatch index call logic received => exact (regular_takePacket regular index).recv received
  | storeResult index call logic received code =>
      exact ((regular_takePacket regular index).recv received).modifyUser index _ rfl rfl rfl
  | leaveRoom index => exact regular.leaveRoomOnClear index
  | eraseAndClear index => exact (regular.leaveRoomOnClear index).eraseAndClear index
  | retireGeneration index => exact regular.retireGeneration index

/-- Every temporary buffer has its size. -/
def BuffersSized (manager : PacketManager n) : Prop :=
  ∀ slot, (manager.user slot).m_tempPacketBuffer.length = maxPacketDataBufferSize

theorem BuffersSized.modifyUser {manager : PacketManager n} (sized : BuffersSized manager)
    (index : Fin n) (change : User → User)
    (size : (change (manager.user index)).m_tempPacketBuffer.length =
      maxPacketDataBufferSize) : BuffersSized (manager.modifyUser index change) := by
  intro slot
  rcases eq_or_ne slot index with rfl | different
  · rw [PacketManager.user_modifyUser_self]
    exact size
  · rw [manager.user_modifyUser_of_ne change different]
    exact sized slot

theorem BuffersSized.recv {manager next : PacketManager n} {call : RecvCall n}
    (sized : BuffersSized manager) (taken : manager.recv call = some next) :
    BuffersSized next := by
  obtain ⟨effect, effectCase, changed⟩ := PacketManager.recv_cases taken
  refine changed.forall_user
    (fun user => user.m_tempPacketBuffer.length = maxPacketDataBufferSize) sized ?_
  have own := sized call.clientIndex
  cases effectCase with
  | disconnect found =>
      simp only [PacketEffect.onSlot]
      split
      · exact own
      · exact own
  | keep noTest noRedis noLeave => exact own
  | testLogin test => exact own
  | redisLogin redis => exact own
  | enter room found located state notFull => exact own
  | leave room found located => exact own

theorem buffersSized_takePacket {server : ChatServer n} {index : Fin n}
    (ok : server.MailboxOk index) (sized : BuffersSized server.logic) :
    BuffersSized (server.takePacket index).logic := by
  refine sized.modifyUser index _ ?_
  rcases next : User.packetFormat.next? (server.user index).bytes with _ | ⟨packet, rest⟩
  · rw [User.getPacket_of_none ok.valid next]
    exact sized index
  · obtain ⟨got, _, split⟩ := User.getPacket_of_some ok.valid next
    have held : packet.length ≤ maxPacketDataBufferSize := by
      have size := ok.valid.size_le
      rw [← RingBuffer.length_contents, show (server.user index).mPacketDataBuffer.contents =
        (server.user index).bytes from rfl, split, List.length_append] at size
      omega
    have own := sized index
    change (server.user index).m_tempPacketBuffer.length = _ at own
    rw [got]
    dsimp only
    rw [List.length_append, List.length_drop, own]
    omega

theorem leaveRoomOnClear_tempBuffer (manager : PacketManager n) (index slot : Fin n) :
    ((manager.leaveRoomOnClear index).user slot).m_tempPacketBuffer =
      (manager.user slot).m_tempPacketBuffer := by
  unfold PacketManager.leaveRoomOnClear PacketManager.leaveUser RoomManager.leaveUser
  split
  · cases manager.mRoomManager.getRoomByNumber (manager.user index).roomIndex with
    | none => rfl
    | some room =>
        change (Function.update manager.mUserManager.mUserObjPool index
          ((manager.mUserManager.mUserObjPool index).setDomainState .login)
            slot).m_tempPacketBuffer = _
        rcases eq_or_ne slot index with rfl | different
        · rw [Function.update_self]
          rfl
        · rw [Function.update_of_ne different]
          rfl
  · rfl

theorem buffersSized_step {server next : ChatServer n} {event : Event n}
    (mailboxes : ∀ slot, server.MailboxOk slot) (sized : BuffersSized server.logic)
    (taken : server.step event = some next) : BuffersSized next.logic := by
  have stepped := step_logic taken
  have left (index : Fin n) : BuffersSized (server.logic.leaveRoomOnClear index) :=
    fun slot => (leaveRoomOnClear_tempBuffer server.logic index slot).symm ▸ sized slot
  generalize next.logic = after at stepped ⊢
  cases stepped with
  | same => exact sized
  | setPacketData index data => exact sized.modifyUser index _ (sized index)
  | takePacket index => exact buffersSized_takePacket (mailboxes index) sized
  | recv call logic received => exact sized.recv received
  | dispatch index call logic received =>
      exact (buffersSized_takePacket (mailboxes index) sized).recv received
  | storeResult index call logic received code =>
      have handled := (buffersSized_takePacket (mailboxes index) sized).recv received
      refine handled.modifyUser index _ ?_
      have own := handled index
      dsimp only
      rw [List.length_append, List.length_drop, own]
      rfl
  | leaveRoom index => exact left index
  | eraseAndClear index => exact (left index).modifyUser index _ (left index index)
  | retireGeneration index => exact sized.modifyUser index _ (sized index)

/-- What holds of slots and buffers in every state which the server reaches. -/
structure Settled (server : ChatServer n) : Prop where
  mailboxes : ∀ slot, server.MailboxOk slot
  regular : server.logic.Regular
  sized : BuffersSized server.logic

theorem settled_init {memory : Fin n → Bytes}
    (sized : ∀ slot, (memory slot).length = maxPacketDataBufferSize) :
    (init memory).Settled :=
  ⟨init_mailboxOk memory, PacketManager.regular_init memory, sized⟩

theorem settled_step {server next : ChatServer n} {event : Event n} (settled : server.Settled)
    (taken : server.step event = some next) : next.Settled :=
  ⟨fun slot => step_mailboxOk taken (settled.mailboxes slot), regular_step settled.regular taken,
    buffersSized_step settled.mailboxes settled.sized taken⟩

end ChatServer

end IOCPChatServer

import IOCPChatServer.Logic.UserIDs
import IOCPChatServer.Threads.Leakage

/-!
# The copies of a chat message

`ProcessRoomChatMessage` and `NotifyChat` copy the message of a request into 257 bytes with
`strcpy_s`.  Nothing has looked for its end: the string goes on behind the packet, in what
earlier packets of the slot left in the temporary buffer.
-/

namespace IOCPChatServer

namespace PacketManager

variable {n : Nat} {manager : PacketManager n} {index : Fin n} {pPacket : Bytes}

/-- In a room a chat request ends the process exactly when its message does not fit. -/
theorem Regular.processRoomChatMessage_isSome_iff (regular : manager.Regular)
    (inRoom : (manager.user index).mCurDomainState = .room) :
    (manager.processRoomChatMessage index pPacket).isSome = true ↔
      (strcpyS (maxChatMsg + 1) (chatMessage pPacket)).isSome = true := by
  have userID : UserIDFits (manager.user index).mUserID :=
    Nat.lt_succ_of_le (regular.members index inRoom)
  have located := Option.isSome_iff_ne_none.mpr (regular.table.located index inRoom)
  rw [manager.processRoomChatMessage_isSome_iff, strcpyS, Option.isSome_ite]
  exact ⟨fun fit => (fit ⟨inRoom, located⟩).2, fun message _ => ⟨userID, message⟩⟩

end PacketManager

namespace ChatServer

variable {n : Nat}

/-- The logic thread is about to process a chat request of a slot in `ROOM`. -/
structure ChatRequestNext (server : ChatServer n) (index : Fin n) : Prop where
  phase : server.phase = .draining index
  clearing : server.clearing = none
  packetId : (server.packet index).PacketId = PacketId.roomChatRequest.code
  state : (server.user index).mCurDomainState = .room

/-- The copies of the message succeed, and the process goes on. -/
def CopiesMessage (server : ChatServer n) : Prop :=
  ∀ index, server.ChatRequestNext index →
    (strcpyS (maxChatMsg + 1) (PacketManager.chatMessage (server.packet index).pDataPtr)).isSome =
        true ∧
      (server.step .logic).isSome = true

/-- The first packet of the reassembly buffer, and what the temporary buffer holds behind it. -/
def bytesInPlace (server : ChatServer n) (index : Fin n) : Bytes :=
  let packet := (server.user index).bytes.take (u16 (server.user index).bytes 0)
  packet ++ (server.user index).m_tempPacketBuffer.drop packet.length

/-- One of the 257 bytes behind the header is NUL. -/
def MessageEnds (server : ChatServer n) : Prop :=
  ∀ index, server.ChatRequestNext index →
    0 ∈ ((server.bytesInPlace index).drop packetHeaderLength).take (maxChatMsg + 1)

/-- `pDataPtr` of a packet is the temporary buffer, which is then these bytes. -/
theorem Settled.bytesInPlace {server : ChatServer n} (settled : server.Settled) {index : Fin n}
    (some : (server.packet index).PacketId ≠ 0) :
    (server.packet index).pDataPtr = server.bytesInPlace index ∧
      (server.bytesInPlace index).length = maxPacketDataBufferSize := by
  have valid := (settled.mailboxes index).valid
  by_cases holds : User.HoldsPacket (server.user index).bytes
  · obtain ⟨got, _, split⟩ :=
      User.getPacket_of_some valid (User.next?_of_holdsPacket holds)
    refine ⟨congrArg (PacketInfo.pDataPtr ∘ Prod.fst) got, ?_⟩
    have held := valid.size_le
    rw [← RingBuffer.length_contents] at held
    have queued : (server.user index).bytes.length ≤ maxPacketDataBufferSize := held
    have buffer : (server.user index).m_tempPacketBuffer.length = maxPacketDataBufferSize :=
      settled.sized index
    rw [ChatServer.bytesInPlace, List.length_append, List.length_drop,
      List.length_take_of_le holds.2]
    have := holds.2
    omega
  · have nothing : server.packet index = {} :=
      congrArg Prod.fst (User.getPacket_of_none valid (User.next?_of_not_holdsPacket holds))
    exact absurd (congrArg PacketInfo.PacketId nothing) some

/-- The logic thread goes on after a chat request exactly when its message fits. -/
theorem Settled.step_isSome_iff {server : ChatServer n} (settled : server.Settled)
    {index : Fin n} (next : server.ChatRequestNext index) :
    (server.step .logic).isSome = true ↔ (strcpyS (maxChatMsg + 1)
      (PacketManager.chatMessage (server.packet index).pDataPtr)).isSome = true := by
  have found : PacketManager.findHandler (server.packet index).PacketId =
      some .processRoomChatMessage := by
    rw [next.packetId]
    decide
  have some : (server.packet index).PacketId ≠ 0 := by
    rw [next.packetId]
    decide
  have inRoom : ((server.takePacket index).logic.user index).mCurDomainState = .room := by
    rw [show (server.takePacket index).logic.user index = (server.user index).getPacket.2 from
      PacketManager.user_modifyUser_self .., (getPacket_keeps (server.user index)).1, next.state]
  rw [← (regular_takePacket settled.regular index).processRoomChatMessage_isSome_iff inRoom]
  simp only [step, logicStep, next.clearing, processPacket, next.phase, drain, if_neg some,
    processRecvPacket, found, Option.isSome_map]
  simp only [PacketManager.processRecvPacket, found, PacketManager.callHandler]
  rw [if_neg (by decide), Option.isSome_map]
  exact Iff.rfl

theorem Settled.copiesMessage_iff {server : ChatServer n} (settled : server.Settled) :
    server.CopiesMessage ↔ server.MessageEnds := by
  refine forall_congr' fun index => forall_congr' fun next => ?_
  have some : (server.packet index).PacketId ≠ 0 := by
    rw [next.packetId]
    decide
  obtain ⟨inPlace, length⟩ := settled.bytesInPlace some
  rw [settled.step_isSome_iff next, and_self, inPlace, strcpyS, Option.isSome_ite]
  refine length_cString_lt_iff ?_
  rw [List.length_drop, length]
  decide

/-- A run never copies a message which does not fit precisely when there is always a NUL in
place. -/
theorem copiesMessage_iff_messageEnds (memory : Fin n → Bytes)
    (sized : ∀ slot, (memory slot).length = maxPacketDataBufferSize) (events : List (Event n)) :
    Execution.Always step CopiesMessage (init memory) events ↔
      Execution.Always step MessageEnds (init memory) events :=
  Execution.always_congr (fun _ _ _ settled taken => settled_step settled taken)
    (fun _ settled => settled.copiesMessage_iff) (settled_init sized) events

/-- A client logs in, enters a room and sends a chat request of 262 bytes without a NUL. -/
def endlessChatRun : List (Event 1) :=
  [.accept 0,
    .receive 0 (u16Bytes loginRequestPacketSize ++ u16Bytes PacketId.loginRequest.code ++ [0] ++
      PacketManager.testUser ++
      List.replicate (loginRequestPacketSize - packetHeaderLength -
        PacketManager.testUser.length) 0 ++
      u16Bytes (packetHeaderLength + 4) ++ u16Bytes PacketId.roomEnterRequest.code ++
      [0, 0, 0, 0, 0] ++
      u16Bytes (packetHeaderLength + (maxChatMsg + 1)) ++ u16Bytes PacketId.roomChatRequest.code ++
      [0] ++ List.replicate (maxChatMsg + 1) 1),
    .setPacketData 0 1, .enqueuePacketData 0 1, .logic, .logic, .logic, .logic, .logic]

theorem endlessChatRun_exact :
    Execution.Always step CopiesMessage (init clearedMemory) endlessChatRun ↔
      Execution.Always step MessageEnds (init clearedMemory) endlessChatRun :=
  copiesMessage_iff_messageEnds clearedMemory (fun _ => List.length_replicate) endlessChatRun

theorem endlessChatRun_not_copiesMessage :
    ¬Execution.Always step CopiesMessage (init clearedMemory) endlessChatRun := by
  intro always
  have seen : (Execution.run? step (init clearedMemory) endlessChatRun).map (fun last =>
      (last.phase, last.clearing.isNone, (last.packet 0).PacketId, (last.user 0).mCurDomainState,
        (last.step .logic).isSome)) =
      some (.draining 0, true, 221, .room, false) := by
    decide +kernel
  obtain ⟨last, copies, observed⟩ := always.observed seen
  simp only [Prod.mk.injEq] at observed
  obtain ⟨phase, clearing, packetId, state, aborts⟩ := observed
  have goesOn := (copies 0 ⟨phase, Option.isNone_iff_eq_none.mp clearing, packetId, state⟩).2
  exact Bool.false_ne_true (aborts.symm.trans goesOn)

end ChatServer

end IOCPChatServer

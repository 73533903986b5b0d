import IOCPChatServer.Logic.StaleBytes
import IOCPChatServer.Logic.TempBuffer
import IOCPChatServer.Threads.LogicSteps

/-!
# Bytes of earlier packets

The temporary buffer of a slot outlives packets and connections.  Two states which differ
only behind the packet which `GetPacket` is about to return are taken through
`ProcessRecvPacket`; nothing leaks if they come out the same but for these bytes.
-/

namespace IOCPChatServer

namespace ChatServer

variable {n : Nat}

/-- The state with other bytes behind the next packet of the slot. -/
def withStale (server : ChatServer n) (index : Fin n) (stale : Bytes) : ChatServer n :=
  { server with
    logic := server.logic.withBuffer index
      ((server.user index).m_tempPacketBuffer.take (server.packet index).DataSize ++ stale) }

/-- The state without the bytes of the temporary buffer from a position on. -/
def forgetStale (server : ChatServer n) (index : Fin n) (count : Nat) : ChatServer n :=
  { server with
    logic := server.logic.withBuffer index
      ((server.user index).m_tempPacketBuffer.take count) }

/-- What is done with the next packet of the slot does not depend on the bytes which are
behind it in the temporary buffer. -/
def LeaksNothing (server : ChatServer n) (index : Fin n) : Prop :=
  let size := (server.packet index).DataSize
  ∀ stale : Bytes, stale.length = ((server.user index).m_tempPacketBuffer.drop size).length →
    ((server.withStale index stale).drain index).map (·.forgetStale index size) =
      (server.drain index).map (·.forgetStale index size)

/-- The handler of the next packet reads bytes of the packet only, or bytes which do not
matter. -/
def ReadsOwnBytes (server : ChatServer n) (index : Fin n) : Prop :=
  server.logic.ReadsOwnBytes index (server.packet index).PacketId
    (server.handedPacket index).pDataPtr

section Packets

variable {server : ChatServer n} {index : Fin n} {packet rest : Bytes}

theorem user_withStale (server : ChatServer n) (index : Fin n) (stale : Bytes) :
    (server.withStale index stale).user index = (server.user index).withBuffer
      ((server.user index).m_tempPacketBuffer.take (server.packet index).DataSize ++ stale) :=
  server.logic.user_withBuffer_self index _

/-- What `GetPacket` returns when other bytes are behind the packet. -/
theorem getPacket_withStale (ok : server.MailboxOk index)
    (next : User.packetFormat.next? (server.user index).bytes = some (packet, rest))
    (sized : packet.length ≤ (server.user index).m_tempPacketBuffer.length)
    (stale : Bytes) :
    ((server.withStale index stale).user index).getPacket =
      (⟨(server.packet index).PacketId, packet.length, packet ++ stale⟩,
        (server.user index).getPacket.2.withBuffer (packet ++ stale)) := by
  obtain ⟨got, _, _⟩ := User.getPacket_of_some ok.valid next
  have info : server.packet index = _ := congrArg Prod.fst got
  have user := server.user_withStale index stale
  have valid : ((server.withStale index stale).user index).mPacketDataBuffer.Valid := by
    rw [user]
    exact ok.valid
  have next' : User.packetFormat.next? ((server.withStale index stale).user index).bytes =
      some (packet, rest) := by
    rw [user]
    exact next
  obtain ⟨got', _, _⟩ := User.getPacket_of_some valid next'
  have behind : ((server.user index).m_tempPacketBuffer.take packet.length ++ stale).drop
      packet.length = stale :=
    List.drop_left' (List.length_take_of_le sized)
  rw [got', user, info, got]
  dsimp only [User.withBuffer]
  rw [behind]
  rfl

theorem packet_withStale (ok : server.MailboxOk index)
    (next : User.packetFormat.next? (server.user index).bytes = some (packet, rest))
    (sized : packet.length ≤ (server.user index).m_tempPacketBuffer.length) (stale : Bytes) :
    (server.withStale index stale).packet index =
      ⟨(server.packet index).PacketId, packet.length, packet ++ stale⟩ :=
  congrArg Prod.fst (getPacket_withStale ok next sized stale)

theorem sender_withStale (ok : server.MailboxOk index)
    (next : User.packetFormat.next? (server.user index).bytes = some (packet, rest))
    (sized : packet.length ≤ (server.user index).m_tempPacketBuffer.length) (stale : Bytes) :
    (server.withStale index stale).sender index = server.sender index := by
  have info : server.packet index = _ := congrArg Prod.fst (User.getPacket_of_some ok.valid next).1
  unfold sender packetConnections
  rw [packet_withStale ok next sized stale, info]
  rfl

theorem dispatch_withStale (ok : server.MailboxOk index)
    (next : User.packetFormat.next? (server.user index).bytes = some (packet, rest))
    (sized : packet.length ≤ (server.user index).m_tempPacketBuffer.length)
    (stale : Bytes) :
    (server.withStale index stale).dispatch index =
      { server.dispatch index with
        logic := (server.dispatch index).logic.withBuffer index (packet ++ stale) } := by
  obtain ⟨got, _, _⟩ := User.getPacket_of_some ok.valid next
  have info : server.packet index = _ := congrArg Prod.fst got
  have got' := getPacket_withStale ok next sized stale
  have replaced := server.logic.replaceUser_withBuffer index (server.user index).getPacket.2
    ((server.user index).m_tempPacketBuffer.take (server.packet index).DataSize ++ stale)
    (packet ++ stale)
  rw [got] at replaced
  unfold dispatch takePacket observe handedPacket packetConnections ChatServer.packet
  rw [got', server.user_withStale index stale, got, info]
  dsimp only [User.withBuffer]
  rw [List.take_left, List.take_left, ← replaced]
  rfl

/-- The bytes of the temporary buffer which count after the packet `packet` in front of
`buffer` was handled. -/
def keptBytes (server : ChatServer n) (index : Fin n) (packetId : Nat) (packet stale : Bytes) :
    Bytes :=
  if PacketManager.findHandler packetId = some .processLoginDBResult then
    (u16Bytes (server.logic.loginResultCode index (packet ++ stale)) ++
      (packet ++ stale).drop 2).take packet.length
  else packet

theorem forgetStale_withBuffer {server : ChatServer n} {logic : PacketManager n}
    {index : Fin n} {bytes : Bytes} (same : server.logic = logic.withBuffer index bytes)
    (count : Nat) :
    server.forgetStale index count =
      { server with logic := logic.withBuffer index (bytes.take count) } := by
  have own : (server.user index).m_tempPacketBuffer = bytes := by
    unfold user
    rw [same, PacketManager.user_withBuffer_self]
    rfl
  unfold forgetStale
  rw [own, same, PacketManager.withBuffer_withBuffer]

/-- What becomes of the next packet of the slot when these bytes are behind it. -/
theorem drain_withStale (ok : server.MailboxOk index)
    (next : User.packetFormat.next? (server.user index).bytes = some (packet, rest))
    (sized : packet.length ≤ (server.user index).m_tempPacketBuffer.length)
    (some : (server.packet index).PacketId ≠ 0)
    (other : PacketManager.findHandler (server.packet index).PacketId ≠
      Option.some .processUserDisconnect) (stale : Bytes) :
    ((server.withStale index stale).drain index).map
        (·.forgetStale index (server.packet index).DataSize) =
      ((server.dispatch index).logic.processRecvPacket index (server.packet index).PacketId
        packet.length (packet ++ stale)).map fun logic =>
          { (server.dispatch index).handled logic (server.sender index) with
            logic := logic.withBuffer index ((server.dispatch index).keptBytes index
              (server.packet index).PacketId packet stale) } := by
  obtain ⟨got, _, _⟩ := User.getPacket_of_some ok.valid next
  have info : server.packet index = _ := congrArg Prod.fst got
  unfold drain
  dsimp only
  rw [packet_withStale ok next sized stale, if_neg some, dispatch_withStale ok next sized stale,
    sender_withStale ok next sized stale]
  unfold processRecvPacket
  rw [if_neg other]
  dsimp only
  rw [PacketManager.processRecvPacket_withBuffer _ index _ _ _ other]
  rw [Option.map_map, Option.map_map, Option.map_map]
  refine congrArg (fun finish => Option.map finish _) (funext fun logic => ?_)
  dsimp only [Function.comp_apply]
  unfold storeResult keptBytes
  rw [info]
  dsimp only
  split
  · rw [PacketManager.loginResultCode_withBuffer]
    exact forgetStale_withBuffer (logic.modifyUser_withBuffer_self index (packet ++ stale)
      fun bytes => _ ++ bytes.drop 2) packet.length
  · refine (forgetStale_withBuffer rfl packet.length).trans ?_
    rw [List.take_left]
    rfl

/-- A disconnect which the client sent itself is not handled before the next step. -/
theorem drain_disconnect_withStale (ok : server.MailboxOk index)
    (next : User.packetFormat.next? (server.user index).bytes = some (packet, rest))
    (sized : packet.length ≤ (server.user index).m_tempPacketBuffer.length)
    (some : (server.packet index).PacketId ≠ 0)
    (disconnect : PacketManager.findHandler (server.packet index).PacketId =
      Option.some .processUserDisconnect) (stale : Bytes) :
    ((server.withStale index stale).drain index).map
        (·.forgetStale index (server.packet index).DataSize) =
      Option.some { server.dispatch index with
        logic := (server.dispatch index).logic.withBuffer index packet
        clearing := Option.some ⟨index, server.sender index, false, .purge⟩ } := by
  obtain ⟨got, _, _⟩ := User.getPacket_of_some ok.valid next
  have info : server.packet index = _ := congrArg Prod.fst got
  have noResult : PacketManager.findHandler (server.packet index).PacketId ≠
      Option.some .processLoginDBResult := by
    rw [disconnect]
    nofun
  unfold drain storeResult processRecvPacket
  dsimp only
  rw [packet_withStale ok next sized stale, if_neg some, dispatch_withStale ok next sized stale,
    sender_withStale ok next sized stale]
  dsimp only
  rw [if_pos disconnect, Option.map_some, if_neg noResult, Option.map_some]
  rw [forgetStale_withBuffer rfl, info, List.take_left]

/-- A packet which holds its length field begins with its length. -/
theorem packet_announced
    (next : User.packetFormat.next? (server.user index).bytes = some (packet, rest))
    (field : 2 ≤ packet.length) : u16 packet 0 = packet.length := by
  obtain ⟨header, parted⟩ := FrameFormat.next?_some next
  change packetHeaderLength ≤ _ at header
  have length := FrameFormat.next?_length next
  have front : u16 ((server.user index).bytes.take packetHeaderLength ++
      (server.user index).bytes.drop packetHeaderLength) 0 =
        u16 ((server.user index).bytes.take packetHeaderLength) 0 :=
    u16_append (by rw [List.length_take_of_le header]; decide) _
  rw [List.take_append_drop, parted, u16_append field] at front
  rw [front, ← parted]
  exact length

theorem readsOwnBytes_dispatch (server : ChatServer n) (index : Fin n) (packetId : Nat)
    (own : Bytes) :
    (server.dispatch index).logic.ReadsOwnBytes index packetId own ↔
      server.logic.ReadsOwnBytes index packetId own := by
  have user : (server.dispatch index).logic.user index = (server.user index).getPacket.2 :=
    PacketManager.user_modifyUser_self ..
  have rooms : (server.dispatch index).logic.mRoomManager = server.logic.mRoomManager := rfl
  unfold PacketManager.ReadsOwnBytes
  rw [user, (getPacket_keeps (server.user index)).1, rooms]
  rfl

/-- The stored result is the length of the packet. -/
theorem keptBytes_stale
    (next : User.packetFormat.next? (server.user index).bytes = some (packet, rest))
    {packetId : Nat} (reads : server.logic.ReadsOwnBytes index packetId packet)
    (first second : Bytes) :
    (server.dispatch index).keptBytes index packetId packet first =
      (server.dispatch index).keptBytes index packetId packet second := by
  unfold keptBytes
  split
  · rename_i found
    have field : 2 ≤ packet.length := by
      unfold PacketManager.ReadsOwnBytes at reads
      rw [found] at reads
      exact reads
    have code (stale : Bytes) :
        (server.dispatch index).logic.loginResultCode index (packet ++ stale) =
          packet.length := by
      have result := ((server.dispatch index).logic.processLoginDBResult_announced index
        (packet_announced next field) field stale).1
      have failure : packet.length ≠ ErrorCode.none.code := by
        change packet.length ≠ 0
        omega
      unfold PacketManager.loginResultCode
      rw [result, if_neg failure]
    have kept (stale : Bytes) :
        (u16Bytes packet.length ++ (packet ++ stale).drop 2).take packet.length =
          u16Bytes packet.length ++ packet.drop 2 := by
      rw [List.drop_append_of_le_length field, ← List.append_assoc]
      refine List.take_left' ?_
      rw [List.length_append, List.length_drop]
      change 2 + (packet.length - 2) = packet.length
      omega
    rw [code, code, kept, kept]
  · rfl

end Packets

theorem withStale_self (server : ChatServer n) (index : Fin n) :
    server.withStale index
      ((server.user index).m_tempPacketBuffer.drop (server.packet index).DataSize) = server := by
  have unchanged : server.logic.withBuffer index (server.user index).m_tempPacketBuffer =
      server.logic := PacketManager.withBuffer_eq_self rfl
  unfold withStale
  rw [List.take_append_drop, unchanged]

/-- Two fillings instead of one filling and the bytes which are there. -/
theorem leaksNothing_iff (server : ChatServer n) (index : Fin n) :
    server.LeaksNothing index ↔
      ∀ first second : Bytes,
        first.length = ((server.user index).m_tempPacketBuffer.drop
          (server.packet index).DataSize).length →
        second.length = ((server.user index).m_tempPacketBuffer.drop
          (server.packet index).DataSize).length →
        ((server.withStale index first).drain index).map
            (·.forgetStale index (server.packet index).DataSize) =
          ((server.withStale index second).drain index).map
            (·.forgetStale index (server.packet index).DataSize) := by
  constructor
  · exact fun leaks first second firstLength secondLength =>
      (leaks first firstLength).trans (leaks second secondLength).symm
  · intro same stale length
    have filled := same stale _ length rfl
    rwa [withStale_self] at filled

/-- What `drain` needs to know about a packet, from the invariant. -/
theorem Settled.next {server : ChatServer n} (settled : server.Settled) {index : Fin n}
    (some : (server.packet index).PacketId ≠ 0) :
    ∃ packet rest, User.packetFormat.next? (server.user index).bytes =
        Option.some (packet, rest) ∧
      (server.packet index).DataSize = packet.length ∧
      (server.handedPacket index).pDataPtr = packet ∧
      packet.length ≤ (server.user index).m_tempPacketBuffer.length := by
  have valid := (settled.mailboxes index).valid
  rcases next : User.packetFormat.next? (server.user index).bytes with _ | ⟨packet, rest⟩
  · have nothing : server.packet index = _ :=
      congrArg Prod.fst (User.getPacket_of_none valid next)
    exact absurd (congrArg PacketInfo.PacketId nothing) some
  · obtain ⟨got, _, split⟩ := User.getPacket_of_some valid next
    have info : server.packet index = _ := congrArg Prod.fst got
    have held := valid.size_le
    rw [← RingBuffer.length_contents, show (server.user index).mPacketDataBuffer.contents =
      (server.user index).bytes from rfl, split, List.length_append] at held
    have size : (server.user index).m_tempPacketBuffer.length = maxPacketDataBufferSize :=
      settled.sized index
    refine ⟨packet, rest, rfl, congrArg PacketInfo.DataSize info, ?_, by omega⟩
    unfold handedPacket
    rw [info]
    exact List.take_left

theorem visible_withBuffer (manager : PacketManager n) (index : Fin n) (bytes : Bytes) :
    (manager.withBuffer index bytes).visible index = manager.visible index := by
  unfold PacketManager.visible
  rw [PacketManager.mUserID_withBuffer]
  rfl

theorem leaksNothing_of_reads {server : ChatServer n} (settled : server.Settled)
    {index : Fin n} (some : (server.packet index).PacketId ≠ 0)
    (reads : server.ReadsOwnBytes index) : server.LeaksNothing index := by
  obtain ⟨packet, rest, next, size, own, sized⟩ := settled.next some
  have ok := settled.mailboxes index
  unfold ReadsOwnBytes at reads
  rw [own] at reads
  rw [leaksNothing_iff]
  intro first second _ _
  rcases eq_or_ne (PacketManager.findHandler (server.packet index).PacketId)
    (Option.some .processUserDisconnect) with disconnect | other
  · rw [drain_disconnect_withStale ok next sized some disconnect,
      drain_disconnect_withStale ok next sized some disconnect]
  · have handled := PacketManager.processRecvPacket_stale
      (regular_takePacket settled.regular index) index (server.packet index).PacketId
      (packet_announced next) ((readsOwnBytes_dispatch server index _ _).mpr reads) first second
    rw [drain_withStale ok next sized some other, drain_withStale ok next sized some other,
      keptBytes_stale next reads first second]
    exact congrArg (Option.map _) handled

theorem reads_of_leaksNothing {server : ChatServer n} (settled : server.Settled)
    {index : Fin n} (some : (server.packet index).PacketId ≠ 0)
    (leaks : server.LeaksNothing index) : server.ReadsOwnBytes index := by
  obtain ⟨packet, rest, next, size, own, sized⟩ := settled.next some
  have ok := settled.mailboxes index
  unfold ReadsOwnBytes
  rw [own]
  rcases eq_or_ne (PacketManager.findHandler (server.packet index).PacketId)
    (Option.some .processUserDisconnect) with disconnect | other
  · unfold PacketManager.ReadsOwnBytes
    rw [disconnect]
    trivial
  · rw [← readsOwnBytes_dispatch]
    have whole : packet.length + ((server.user index).m_tempPacketBuffer.drop
        (server.packet index).DataSize).length = maxPacketDataBufferSize := by
      have buffer : (server.user index).m_tempPacketBuffer.length = maxPacketDataBufferSize :=
        settled.sized index
      rw [List.length_drop, size]
      omega
    refine PacketManager.readsOwnBytes_of_same (regular_takePacket settled.regular index) whole
      fun first second firstLength secondLength => ?_
    have same := (leaksNothing_iff server index).mp leaks first second firstLength secondLength
    rw [drain_withStale ok next sized some other, drain_withStale ok next sized some other] at same
    have seen := congrArg (Option.map fun server => server.logic.visible index) same
    rw [Option.map_map, Option.map_map] at seen
    dsimp only [Function.comp_def] at seen
    simp only [visible_withBuffer] at seen
    exact seen

/-- In every state which the server reaches, nothing leaks into the handling of the next
packet if and only if its handler reads bytes of the packet only. -/
theorem leaksNothing_iff_readsOwnBytes (memory : Fin n → Bytes)
    (sized : ∀ slot, (memory slot).length = maxPacketDataBufferSize) (events : List (Event n)) :
    Execution.Always step
      (fun server => ∀ index, (server.packet index).PacketId ≠ 0 →
        (server.LeaksNothing index ↔ server.ReadsOwnBytes index)) (init memory) events := by
  have settled : Execution.Always step Settled (init memory) events :=
    Execution.always_of_invariant (fun _ _ _ settled taken => settled_step settled taken)
      (settled_init sized) events
  refine settled.mono fun server settled index some => ⟨?_, ?_⟩
  · exact reads_of_leaksNothing settled some
  · exact leaksNothing_of_reads settled some

/-- Temporary buffers which hold zeros. -/
def clearedMemory : Fin 1 → Bytes := fun _ => List.replicate maxPacketDataBufferSize 0

/-- A client logs in with an ID of the load test and enters a room with a packet which
ends with its header. -/
def bareEnterRun : List (Event 1) :=
  [.accept 0,
    .receive 0 (u16Bytes loginRequestPacketSize ++ u16Bytes PacketId.loginRequest.code ++ [0] ++
      PacketManager.testUser ++
      List.replicate (loginRequestPacketSize - packetHeaderLength -
        PacketManager.testUser.length) 0 ++
      u16Bytes packetHeaderLength ++ u16Bytes PacketId.roomEnterRequest.code ++ [0]),
    .setPacketData 0 1, .enqueuePacketData 0 1, .logic, .logic, .logic, .logic]

theorem bareEnterRun_exact :
    Execution.Always step
      (fun server => ∀ index, (server.packet index).PacketId ≠ 0 →
        (server.LeaksNothing index ↔ server.ReadsOwnBytes index))
      (init clearedMemory) bareEnterRun :=
  leaksNothing_iff_readsOwnBytes clearedMemory (fun _ => List.length_replicate) bareEnterRun

/-- The last packet which is sent when the next one was handled. -/
def answer (server : ChatServer 1) : Option ServerPacket :=
  (server.drain 0).bind fun after => after.logic.sentPackets.getLast?.map Prod.snd

/-- The number of the room is read from the login request before it. -/
theorem bareEnterRun_leaks :
    ¬ Execution.Always step
      (fun server => ∀ index, (server.packet index).PacketId ≠ 0 → server.LeaksNothing index)
      (init clearedMemory) bareEnterRun := by
  intro always
  have seen : (Execution.run? step (init clearedMemory) bareEnterRun).map (fun last =>
      ((last.packet 0).PacketId, (last.packet 0).DataSize,
        (last.user 0).m_tempPacketBuffer.length,
        (last.withStale 0 (List.replicate 8091 0)).answer, last.answer)) =
      some (206, 5, 8096, some (.roomEnterResponse ErrorCode.none.code),
        some (.roomEnterResponse ErrorCode.roomInvalidIndex.code)) := by
    decide +kernel
  obtain ⟨last, good, observed⟩ := always.observed seen
  simp only [Prod.mk.injEq] at observed
  obtain ⟨packetId, size, buffer, zeros, real⟩ := observed
  have same := good 0 (by rw [packetId]; decide) (List.replicate 8091 0)
    (by rw [List.length_replicate, List.length_drop, buffer, size])
  have answers := congrArg
    (fun after => after.bind fun server => server.logic.sentPackets.getLast?.map Prod.snd) same
  rw [Option.bind_map, Option.bind_map] at answers
  have equal : (last.withStale 0 (List.replicate 8091 0)).answer = last.answer := answers
  rw [zeros, real] at equal
  exact absurd equal (by decide)

end ChatServer

end IOCPChatServer

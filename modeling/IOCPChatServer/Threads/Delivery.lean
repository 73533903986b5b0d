import IOCPChatServer.Threads.Provenance

/-!
# Stream reassembly

What the drain loop dispatches for a client against what the client's chunks were.  The
ring is a reader of the stream of packets; the queued tasks, the task being drained and
the I/O thread between its two steps are what guarantees that a complete packet in the
ring is going to be read.
-/

namespace IOCPChatServer

/-! ## Packets of a client -/

/-- The identifiers of the packets which clients send. -/
def clientRequests : List Nat :=
  [PacketId.loginRequest.code, PacketId.roomEnterRequest.code, PacketId.roomLeaveRequest.code,
    PacketId.roomChatRequest.code, PacketId.sysPong.code]

/-- A well-formed packet of a client. -/
structure ClientPacket (packet : Bytes) : Prop where
  header : packetHeaderLength ≤ packet.length
  fits : packet.length ≤ maxPacketDataBufferSize
  PacketLength : u16 packet 0 = packet.length
  PacketId : u16 packet 2 ∈ clientRequests

theorem ClientPacket.isFrame {packet : Bytes} (client : ClientPacket packet) :
    User.packetFormat.IsFrame packet := by
  refine ⟨client.header, ?_⟩
  have announced : User.packetFormat.length (packet.take User.packetFormat.header) =
      u16 (packet.take packetHeaderLength) 0 := rfl
  rw [announced, u16_take packet (by decide)]
  exact client.PacketLength

/-- What `GetPacket` tells about a packet. -/
def packetInfo (packet : Bytes) : PacketInfo := ⟨u16 packet 2, packet.length, packet⟩

/-- A request of a client goes to a handler other than `ClearConnectionInfo`. -/
theorem findHandler_clientRequest {packetId : Nat} (request : packetId ∈ clientRequests) :
    packetId ≠ 0 ∧
      PacketManager.findHandler packetId ≠ some .processUserDisconnect := by
  unfold clientRequests at request
  simp only [List.mem_cons, List.not_mem_nil, or_false] at request
  rcases request with rfl | rfl | rfl | rfl | rfl <;> decide

namespace ChatServer

open Execution

variable {n : Nat}

/-! ## What the history tells about a client -/

/-- The packets which the drain loop gave to `ProcessRecvPacket` for the index. -/
def dispatchedTo (index : Fin n) (trace : List (Observation n)) : List PacketInfo :=
  trace.filterMap fun
    | .dispatched slot packet _ => if slot = index then some packet else none
    | _ => none

/-- The chunks which `SetPacketData` was given for the index, in one piece. -/
def writtenTo (index : Fin n) (trace : List (Observation n)) : Bytes :=
  trace.flatMap fun
    | .written slot _ data _ => if slot = index then data else []
    | _ => []

theorem dispatchedTo_append (index : Fin n) (first second : List (Observation n)) :
    dispatchedTo index (first ++ second) =
      dispatchedTo index first ++ dispatchedTo index second := List.filterMap_append ..

theorem writtenTo_append (index : Fin n) (first second : List (Observation n)) :
    writtenTo index (first ++ second) = writtenTo index first ++ writtenTo index second :=
  List.flatMap_append ..

/-- No disconnect of the index is queued or being processed. -/
structure Calm (server : ChatServer n) (index : Fin n) : Prop where
  queued : ∀ packet ∈ server.mSystemWriteBuffer ++ server.mSystemReadBuffer,
    packet.value.clientIndex = index → packet.value.packetId ≠ .sysUserDisconnect
  clearing : ∀ clearing, server.clearing = some clearing → clearing.clientIndex ≠ index

/-- Nothing but the close of the client's connection and a disconnect in the client's own
packets begins a disconnect of the index. -/
theorem step_calm {server next : ChatServer n} {event : Event n} {index : Fin n}
    (calm : server.Calm index) (stays : event ≠ .close index)
    (genuine : ¬ server.Forges index) (taken : server.step event = some next) :
    next.Calm index := by
  constructor
  · rintro packet member rfl disconnect
    rcases step_systemPackets taken member with old | ⟨_, close | connect⟩
    · exact calm.queued packet old rfl disconnect
    · exact stays close
    · exact nomatch disconnect.symm.trans connect
  · rintro clearing processing rfl
    cases step_clearing taken processing with
    | ongoing same => exact calm.clearing clearing same rfl
    | purged before _ => exact calm.clearing _ before rfl
    | cleared _ before _ _ => exact calm.clearing _ before rfl
    | queued _ _ front => exact calm.queued _ (List.mem_append_right _ front) rfl rfl
    | forged _ _ _ forges _ => exact genuine forges

/-- Somebody is going to call `GetPacket` for the connection: the I/O thread which has
written and not yet enqueued, a queued task of the present generation, or the drain loop. -/
def Served (server : ChatServer n) (index : Fin n) (connection : Nat) : Prop :=
  server.receiving index connection = some .written ∨
    (∃ task ∈ server.mWriteBuffer ++ server.mReadBuffer, task.value.clientIndex = index ∧
      task.connection = connection ∧
        task.value.generation = (server.user index).mGeneration) ∨
    server.phase = .draining index

/-- The reading of a stream of packets which a connection sends, since the history was
`past`. -/
structure Reading (server : ChatServer n) (index : Fin n) (connection : Nat)
    (packets : List Bytes) (past recent : List (Observation n)) : Prop where
  history : server.trace = past ++ recent
  mailbox : server.MailboxOk index
  current : server.connection index = connection
  isOpen : server.isOpen index = true
  own : ∀ held ∈ server.byteConnections index, held = connection
  sources : ∀ packet connections, .dispatched index packet connections ∈ recent →
    connections = List.replicate (max packetHeaderLength packet.DataSize) connection
  infos : ∀ info ∈ dispatchedTo index recent, info = packetInfo info.pDataPtr
  reassembly : FrameFormat.Reassembly packets
    ((dispatchedTo index recent).map PacketInfo.pDataPtr) (server.user index).bytes
    (writtenTo index recent)
  served : User.packetFormat.next? (server.user index).bytes ≠ none →
    server.Served index connection

/-- The reading of a stream which no disconnect can disturb. -/
structure Delivering (server : ChatServer n) (index : Fin n) (connection : Nat)
    (packets : List Bytes) (past recent : List (Observation n)) : Prop
    extends server.Reading index connection packets past recent where
  calm : server.Calm index

/-- When nobody is going to call `GetPacket`, all complete packets are dispatched. -/
theorem Reading.complete {server : ChatServer n} {index : Fin n} {connection : Nat}
    {packets : List Bytes} {past recent : List (Observation n)}
    (reading : server.Reading index connection packets past recent)
    (wellFormed : ∀ packet ∈ packets, ClientPacket packet)
    (idle : ¬ server.Served index connection) :
    (dispatchedTo index recent).map PacketInfo.pDataPtr =
      FrameFormat.complete packets (writtenTo index recent).length := by
  have nothing : User.packetFormat.next? (server.user index).bytes = none := by
    by_contra waiting
    exact idle (reading.served waiting)
  exact reading.reassembly.complete
    (fun packet member => (wellFormed packet member).isFrame) nothing

/-- The dispatched packets as `ProcessRecvPacket` gets them. -/
theorem Reading.dispatchedTo_eq {server : ChatServer n} {index : Fin n} {connection : Nat}
    {packets : List Bytes} {past recent : List (Observation n)}
    (reading : server.Reading index connection packets past recent) :
    dispatchedTo index recent =
      ((dispatchedTo index recent).map PacketInfo.pDataPtr).map packetInfo := by
  rw [List.map_map]
  refine (List.map_id _).symm.trans (List.map_congr_left fun info member => ?_)
  exact reading.infos info member

/-! ## Steps which do not concern the client -/

/-- The observation is not about the stream of the index. -/
def Elsewhere (index : Fin n) : Observation n → Prop
  | .dispatched slot _ _ => slot ≠ index
  | .written slot _ _ _ => slot ≠ index
  | _ => True

theorem dispatchedTo_eq_nil {index : Fin n} {added : List (Observation n)}
    (elsewhere : ∀ observation ∈ added, Elsewhere index observation) :
    dispatchedTo index added = [] := by
  refine List.filterMap_eq_nil_iff.mpr fun observation member => ?_
  have other := elsewhere observation member
  cases observation with
  | dispatched slot packet connections => exact if_neg other
  | _ => rfl

theorem writtenTo_eq_nil {index : Fin n} {added : List (Observation n)}
    (noWrites : ∀ observation ∈ added, Elsewhere index observation ∨ NoWrite observation) :
    writtenTo index added = [] := by
  refine List.flatMap_eq_nil_iff.mpr fun observation member => ?_
  have other := noWrites observation member
  cases observation with
  | written slot sender data count => exact if_neg (other.resolve_right id)
  | _ => rfl

theorem Reading.of_bytes {before after : ChatServer n} {index : Fin n} {connection : Nat}
    {packets : List Bytes} {past recent added : List (Observation n)}
    (reading : before.Reading index connection packets past recent)
    (mailbox : after.MailboxOk index)
    (bytes : (after.user index).bytes = (before.user index).bytes)
    (tags : after.byteConnections index = before.byteConnections index)
    (current : after.connection index = before.connection index)
    (isOpen : after.isOpen index = before.isOpen index)
    (trace : after.trace = before.trace ++ added)
    (elsewhere : ∀ observation ∈ added, Elsewhere index observation)
    (served : User.packetFormat.next? (before.user index).bytes ≠ none →
      before.Served index connection → after.Served index connection) :
    after.Reading index connection packets past (recent ++ added) := by
  have dispatched : dispatchedTo index (recent ++ added) = dispatchedTo index recent := by
    rw [dispatchedTo_append, dispatchedTo_eq_nil elsewhere, List.append_nil]
  have written : writtenTo index (recent ++ added) = writtenTo index recent := by
    rw [writtenTo_append, writtenTo_eq_nil fun other member => .inl (elsewhere other member),
      List.append_nil]
  refine ⟨?_, mailbox, current.trans reading.current, isOpen.trans reading.isOpen, ?_, ?_, ?_,
    ?_, ?_⟩
  · rw [trace, reading.history, List.append_assoc]
  · rw [tags]
    exact reading.own
  · intro packet connections member
    rcases List.mem_append.mp member with old | new
    · exact reading.sources packet connections old
    · exact absurd rfl (elsewhere _ new)
  · rw [dispatched]
    exact reading.infos
  · rw [dispatched, written, bytes]
    exact reading.reassembly
  · rw [bytes]
    exact fun waiting => served waiting (reading.served waiting)

theorem Reading.of_frame {before after : ChatServer n} {index : Fin n} {connection : Nat}
    {packets : List Bytes} {past recent added : List (Observation n)}
    (reading : before.Reading index connection packets past recent)
    (same : SameMailbox (before.user index) (after.user index))
    (tags : after.byteConnections index = before.byteConnections index)
    (current : after.connection index = before.connection index)
    (isOpen : after.isOpen index = before.isOpen index)
    (trace : after.trace = before.trace ++ added)
    (elsewhere : ∀ observation ∈ added, Elsewhere index observation)
    (served : User.packetFormat.next? (before.user index).bytes ≠ none →
      before.Served index connection → after.Served index connection) :
    after.Reading index connection packets past (recent ++ added) :=
  reading.of_bytes (reading.mailbox.of_same same tags) same.bytes tags current isOpen trace
    elsewhere served

/-! ## The client's own steps -/

/-- `SetPacketData` hands the next chunk of the stream to the reader. -/
theorem Reading.setPacketData {server : ChatServer n} {index : Fin n} {connection : Nat}
    {packets : List Bytes} {past recent : List (Observation n)}
    (reading : server.Reading index connection packets past recent) (data : Bytes)
    (fits : (server.user index).bytes.length + data.length ≤ maxPacketDataBufferSize)
    (stream : writtenTo index recent ++ data <+: packets.flatten) :
    ∃ count, ((server.setPacketData index connection data).setReceiving index connection
      (some .written)).Reading index connection packets past
        (recent ++ [.written index connection data count]) := by
  have wrote := setPacketData_mailboxOk reading.mailbox index connection data
  have user := server.user_setPacketData_self index connection data
  have bytes : ((server.setPacketData index connection data).user index).bytes =
      (server.user index).bytes ++ data := by
    rw [user, User.bytes_setPacketData reading.mailbox.valid, List.take_of_length_le]
    omega
  have nothing (count : Nat) : dispatchedTo index
      (recent ++ [.written index connection data count]) = dispatchedTo index recent := by
    rw [dispatchedTo_append]
    exact List.append_nil _
  refine ⟨((server.user index).mPacketDataBuffer.write data).1, ?_, ?_, reading.current,
    reading.isOpen, ?_, ?_, ?_, ?_, ?_⟩
  · rw [← List.append_assoc, ← reading.history]
    rfl
  · exact ⟨wrote.valid, wrote.tagged⟩
  · intro held member
    have tags := server.byteConnections_setPacketData_self index connection data
    rcases List.mem_append.mp (tags ▸ member) with old | new
    · exact reading.own held old
    · exact List.eq_of_mem_replicate new
  · intro packet connections member
    rcases List.mem_append.mp member with old | new
    · exact reading.sources packet connections old
    · exact nomatch List.mem_singleton.mp new
  · rw [nothing]
    exact reading.infos
  · have chunk : writtenTo index [.written index connection data
        ((server.user index).mPacketDataBuffer.write data).1] = data := by
      simp [writtenTo]
    rw [nothing, writtenTo_append, chunk]
    have received := reading.reassembly.receive stream
    rw [← bytes] at received
    exact received
  · exact fun _ => .inl (setReceiving_self ..)

/-- The drain loop takes the next packet of the stream. -/
theorem Reading.dispatch {server : ChatServer n} {index : Fin n} {connection : Nat}
    {packets : List Bytes} {past recent : List (Observation n)}
    (reading : server.Reading index connection packets past recent)
    (wellFormed : ∀ packet ∈ packets, ClientPacket packet)
    (phase : server.phase = .draining index) {packet rest : Bytes}
    (next : User.packetFormat.next? (server.user index).bytes = some (packet, rest)) :
    (server.packet index).PacketId ∈ clientRequests ∧
      ∃ observation, (server.dispatch index).Reading index connection packets past
        (recent ++ [observation]) := by
  have took := takePacket_of_some reading.mailbox next
  obtain ⟨member, taken⟩ := reading.reassembly.take (by decide)
    (fun packet member => (wellFormed packet member).isFrame) next
  have client := wellFormed packet member
  have header : u16 ((server.user index).bytes.take packetHeaderLength) 2 = u16 packet 2 := by
    rw [took.split, List.take_append_of_le_length client.header, u16_take packet (by decide)]
  have info : server.handedPacket index = packetInfo packet := by
    rw [took.info, header]
    rfl
  have packetId : (server.packet index).PacketId = u16 packet 2 :=
    congrArg PacketInfo.PacketId info
  have tookOk := takePacket_mailboxOk reading.mailbox index
  have dispatched : dispatchedTo index [.dispatched index (server.handedPacket index)
      (server.packetConnections index)] = [packetInfo packet] := by
    rw [info]
    simp [dispatchedTo]
  refine ⟨packetId ▸ client.PacketId,
    .dispatched index (server.handedPacket index) (server.packetConnections index),
    ?_, ?_, reading.current, reading.isOpen, ?_, ?_, ?_, ?_, ?_⟩
  · rw [← List.append_assoc, ← reading.history]
    rfl
  · exact tookOk.of_same (.refl _) rfl
  · intro held member
    have left : (server.dispatch index).byteConnections index =
        (server.byteConnections index).drop packet.length := took.tags
    rw [left] at member
    exact reading.own held (List.mem_of_mem_drop member)
  · intro other connections member
    rcases List.mem_append.mp member with old | new
    · exact reading.sources other connections old
    · cases List.mem_singleton.mp new
      exact packetConnections_eq reading.mailbox next reading.own
  · rw [dispatchedTo_append, dispatched]
    intro other member
    rcases List.mem_append.mp member with old | new
    · exact reading.infos other old
    · rw [List.mem_singleton.mp new]
      rfl
  · have nothing : writtenTo index [.dispatched index (server.handedPacket index)
        (server.packetConnections index)] = [] := rfl
    have left : ((server.dispatch index).user index).bytes = rest := took.bytes
    rw [dispatchedTo_append, dispatched, writtenTo_append, nothing, List.append_nil,
      List.map_append, left]
    exact taken
  · exact fun _ => .inr (.inr phase)

/-! ## Every step -/

theorem Served.of_same {before after : ChatServer n} {index : Fin n} {connection : Nat}
    (served : before.Served index connection)
    (same : SameMailbox (before.user index) (after.user index))
    (receiving : before.receiving index connection = some .written →
      after.receiving index connection = some .written)
    (tasks : ∀ task ∈ before.mWriteBuffer ++ before.mReadBuffer,
      task.value.clientIndex = index → task.connection = connection →
        task ∈ after.mWriteBuffer ++ after.mReadBuffer)
    (phase : before.phase = .draining index → after.phase = .draining index) :
    after.Served index connection := by
  rcases served with written | ⟨task, queued, own, sent, generation⟩ | draining
  · exact .inl (receiving written)
  · refine .inr (.inl ⟨task, tasks task queued own sent, own, sent, ?_⟩)
    rw [same.mGeneration]
    exact generation
  · exact .inr (.inr (phase draining))

/-- A handler does not disturb the reading, nor does the call of `ClearConnectionInfo`
before its first step. -/
theorem Received.reading {server after : ChatServer n} {index slot : Fin n}
    {packetId packetSize : Nat} {pPacket : Bytes} {sender connection : Nat} {fromSystem : Bool}
    {packets : List Bytes} {past recent : List (Observation n)}
    (received : server.Received slot packetId packetSize pPacket sender fromSystem after)
    (reading : server.Reading index connection packets past recent) :
    after.Reading index connection packets past recent := by
  have kept := (received.mailbox index).1
  have framed : after.Reading index connection packets past (recent ++ []) := by
    cases received with
    | clears found =>
        exact reading.of_frame kept rfl rfl rfl (List.append_nil _).symm
          (fun _ member => absurd member List.not_mem_nil) (fun _ served => served)
    | handled other logic tasks forwarded same =>
        exact reading.of_frame kept rfl rfl rfl (List.append_nil _).symm
          (fun _ member => absurd member List.not_mem_nil)
          (fun _ served => served.of_same kept id (fun _ queued _ _ => queued) id)
  rwa [List.append_nil] at framed

/-- The chunk which an I/O thread has in hand and has not yet written. -/
def inHand (server : ChatServer n) (index : Fin n) (connection : Nat) : Bytes :=
  match server.receiving index connection with
  | some (.received data) => data
  | _ => []

/-- The chunk which `SetPacketData` is about to write has room in the ring. -/
def Fits (server : ChatServer n) (index : Fin n) : Event n → Prop
  | .setPacketData slot connection => slot = index →
      (server.user slot).bytes.length + (server.inHand slot connection).length ≤
        maxPacketDataBufferSize
  | _ => True

instance (server : ChatServer n) (index : Fin n) :
    (event : Event n) → Decidable (server.Fits index event)
  | .setPacketData .. => by unfold Fits; infer_instance
  | .accept _ | .onConnect _ | .close _ | .receive .. | .enqueuePacketData .. | .logic |
    .redisTake | .redisAnswer .. => isTrue trivial

/-- A call of `ClearConnectionInfo` finds nothing of the connection which it would
remove. -/
structure Spares (server : ChatServer n) (clearing : Clearing n) (connection : Nat) : Prop where
  purge : clearing.stage = .purge → ∀ task ∈ server.mWriteBuffer,
    task.value.clientIndex = clearing.clientIndex → task.connection ≠ connection
  clear : clearing.stage = .clear →
    (server.user clearing.clientIndex).mCurDomainState ≠ .none →
      (server.user clearing.clientIndex).bytes = []
  retire : clearing.stage = .incrementGeneration →
    ∀ task ∈ server.mWriteBuffer ++ server.mReadBuffer,
      task.value.clientIndex = clearing.clientIndex → task.connection ≠ connection

/-! ### The cases of a step -/

theorem elsewhere_nil {index : Fin n} :
    ∀ observation ∈ ([] : List (Observation n)), Elsewhere index observation :=
  fun _ member => absurd member List.not_mem_nil

theorem elsewhere_singleton {index : Fin n} {observation : Observation n}
    (elsewhere : Elsewhere index observation) :
    ∀ other ∈ [observation], Elsewhere index other :=
  fun _ member => List.mem_singleton.mp member ▸ elsewhere

/-- `ClearConnectionInfo` returns. -/
theorem elsewhere_ended {index : Fin n} (clearing : Clearing n) :
    ∀ observation ∈ (if clearing.fromSystem then
      [Observation.disconnected clearing.clientIndex clearing.connection] else []),
      Elsewhere index observation := by
  intro observation member
  rw [ended_eq member]
  trivial

section Cases

variable {server after : ChatServer n} {index slot : Fin n} {connection : Nat}
  {packets : List Bytes} {past recent : List (Observation n)}

/-- A step which keeps whoever is going to call `GetPacket`. -/
theorem Reading.quiet {added : List (Observation n)}
    (reading : server.Reading index connection packets past recent)
    (same : SameMailbox (server.user index) (after.user index))
    (tags : after.byteConnections index = server.byteConnections index)
    (current : after.connection index = server.connection index)
    (isOpen : after.isOpen index = server.isOpen index)
    (trace : after.trace = server.trace ++ added)
    (elsewhere : ∀ observation ∈ added, Elsewhere index observation)
    (receiving : server.receiving index connection = some .written →
      after.receiving index connection = some .written)
    (tasks : ∀ task ∈ server.mWriteBuffer ++ server.mReadBuffer,
      task.value.clientIndex = index → task.connection = connection →
        task ∈ after.mWriteBuffer ++ after.mReadBuffer)
    (phase : server.phase = .draining index → after.phase = .draining index) :
    ∃ added, after.Reading index connection packets past (recent ++ added) :=
  ⟨added, reading.of_frame same tags current isOpen trace elsewhere
    fun _ served => served.of_same same receiving tasks phase⟩

theorem Reading.receive (reading : server.Reading index connection packets past recent)
    {sender : Nat} (data : Bytes) (idle : server.receiving slot sender = none) :
    ∃ added, (server.setReceiving slot sender (some (.received data))).Reading index
      connection packets past (recent ++ added) := by
  refine reading.quiet (.refl _) rfl rfl rfl (List.append_nil _).symm elsewhere_nil
    (fun written => ?_) (fun _ queued _ _ => queued) id
  rw [setReceiving_of_ne]
  · exact written
  · by_contra same
    obtain ⟨rfl, rfl⟩ := not_or.mp same |>.imp not_not.mp not_not.mp
    exact nomatch written.symm.trans idle

/-- `SetPacketData` for another index. -/
theorem Reading.setPacketData_of_ne
    (reading : server.Reading index connection packets past recent)
    (different : index ≠ slot) (sender : Nat) (data : Bytes) :
    ∃ added, ((server.setPacketData slot sender data).setReceiving slot sender
      (some .written)).Reading index connection packets past (recent ++ added) := by
  have kept := server.user_setPacketData_of_ne sender data different
  refine reading.quiet ⟨congrArg User.mPacketDataBuffer kept, congrArg User.mGeneration kept⟩
    (server.byteConnections_setPacketData_of_ne sender data different) rfl rfl rfl
    (elsewhere_singleton different.symm) (fun written => ?_) (fun _ queued _ _ => queued) id
  rw [setReceiving_of_ne _ _ (.inl different)]
  exact written

/-- After `EnqueuePacketData` a task of the present generation is queued. -/
theorem Reading.enqueuePacketData
    (reading : server.Reading index connection packets past recent) (slot : Fin n)
    (sender : Nat) :
    ∃ added, ((server.enqueuePacketData slot sender).setReceiving slot sender none).Reading
      index connection packets past (recent ++ added) := by
  refine ⟨[], reading.of_frame (.refl _) rfl rfl rfl (List.append_nil _).symm elsewhere_nil
    fun _ served => ?_⟩
  by_cases own : slot = index ∧ sender = connection
  · obtain ⟨rfl, rfl⟩ := own
    refine .inr (.inl ⟨⟨⟨slot, (server.user slot).mGeneration⟩, sender⟩, ?_, rfl, rfl, rfl⟩)
    exact List.mem_append_left _ (List.mem_append_right _ (List.mem_singleton_self _))
  · refine served.of_same (.refl _) (fun written => ?_) (fun task queued _ _ => ?_) id
    · rw [setReceiving_of_ne]
      · exact written
      · exact (not_and_or.mp own).imp Ne.symm Ne.symm
    · rcases List.mem_append.mp queued with write | read
      · exact List.mem_append_left _ (List.mem_append_left _ write)
      · exact List.mem_append_right _ read

theorem Reading.purge (reading : server.Reading index connection packets past recent)
    {clearing : Clearing n} (stage : clearing.stage = .purge)
    (spares : clearing.clientIndex = index → server.Spares clearing connection) :
    ∃ added, (server.purge clearing).Reading index connection packets past
      (recent ++ added) := by
  refine reading.quiet (.refl _) rfl rfl rfl rfl (elsewhere_singleton trivial) id
    (fun task queued own sent => ?_) id
  rcases List.mem_append.mp queued with write | read
  · refine List.mem_append_left _ (List.mem_filter.mpr ⟨write, decide_eq_true fun same => ?_⟩)
    exact (spares (same.symm.trans own)).purge stage task write same sent
  · exact List.mem_append_right _ read

/-- Emptying an empty ring changes nothing for the reader. -/
theorem Reading.clearSlot (reading : server.Reading index connection packets past recent)
    {clearing : Clearing n} (stage : clearing.stage = .clear)
    (state : (server.user clearing.clientIndex).mCurDomainState ≠ .none)
    (spares : clearing.clientIndex = index → server.Spares clearing connection) :
    ∃ added, (server.clearSlot clearing).Reading index connection packets past
      (recent ++ added) := by
  rcases eq_or_ne index clearing.clientIndex with rfl | other
  · have empty := (spares rfl).clear stage state
    have tags : server.byteConnections clearing.clientIndex = [] := by
      rw [← List.length_eq_zero_iff, reading.mailbox.tagged, empty, List.length_nil]
    have bytes : ((server.clearSlot clearing).user clearing.clientIndex).bytes = [] :=
      (server.clearSlot_self clearing).bytes.trans (User.bytes_clear _)
    refine ⟨_, reading.of_bytes (clearSlot_mailboxOk reading.mailbox clearing)
      (bytes.trans empty.symm) ((server.clearSlot_tags_self clearing).trans tags.symm) rfl rfl rfl
      (elsewhere_singleton trivial) fun waiting => absurd ?_ waiting⟩
    rw [empty]
    exact FrameFormat.next?_nil (by decide)
  · exact reading.quiet (server.clearSlot_of_ne other) (server.clearSlot_tags_of_ne other) rfl
      rfl rfl (elsewhere_singleton trivial) id (fun _ queued _ _ => queued) id

theorem Reading.incrementGeneration
    (reading : server.Reading index connection packets past recent)
    {clearing : Clearing n} (stage : clearing.stage = .incrementGeneration)
    (spares : clearing.clientIndex = index → server.Spares clearing connection) :
    ∃ added, (server.incrementGeneration clearing).Reading index connection packets past
      (recent ++ added) := by
  have ring := server.incrementGeneration_ring clearing index
  refine ⟨_, reading.of_bytes (incrementGeneration_mailboxOk reading.mailbox clearing)
    (congrArg RingBuffer.contents ring) rfl rfl rfl (List.append_assoc ..)
    (fun observation member => ?_) fun _ served => ?_⟩
  · rcases List.mem_append.mp member with retired | ended
    · rw [List.mem_singleton.mp retired]
      trivial
    · exact elsewhere_ended clearing observation ended
  · rcases served with written | ⟨task, queued, own, sent, generation⟩ | draining
    · exact .inl written
    · rcases eq_or_ne index clearing.clientIndex with rfl | other
      · exact absurd sent ((spares rfl).retire stage task queued own)
      · refine .inr (.inl ⟨task, queued, own, sent, ?_⟩)
        rw [server.incrementGeneration_of_ne other]
        exact generation
    · exact .inr (.inr draining)

theorem Reading.systemPacket
    (reading : server.Reading index connection packets past recent)
    {packet : Tagged (SystemPacket n)} {rest : List (Tagged (SystemPacket n))}
    (received : { server with mSystemReadBuffer := rest }.Received packet.value.clientIndex
      packet.value.packetId.code 0 [] packet.connection true after) :
    ∃ added, after.Reading index connection packets past (recent ++ added) := by
  obtain ⟨added, taken⟩ : ∃ added, ({ server with mSystemReadBuffer := rest } :
      ChatServer n).Reading index connection packets past (recent ++ added) :=
    reading.quiet (.refl _) rfl rfl rfl (List.append_nil _).symm elsewhere_nil id
      (fun _ queued _ _ => queued) id
  exact ⟨added, received.reading taken⟩

/-- The task which made the drain loop start may have been the one which was waited for. -/
theorem Reading.drainTask
    (reading : server.Reading index connection packets past recent)
    {task : Tagged (PacketTask n)} {rest : List (Tagged (PacketTask n))}
    (phase : server.phase = .packetTasks) (front : server.mReadBuffer = task :: rest) :
    ∃ added, ({ server with
      mReadBuffer := rest
      phase := .draining task.value.clientIndex } : ChatServer n).Reading index connection
        packets past (recent ++ added) := by
  refine ⟨[], reading.of_frame (.refl _) rfl rfl rfl (List.append_nil _).symm elsewhere_nil
    fun _ served => ?_⟩
  rcases eq_or_ne task.value.clientIndex index with own | other
  · exact .inr (.inr (congrArg Phase.draining own))
  · refine served.of_same (.refl _) id (fun queued member own _ => ?_) (fun draining => ?_)
    · rw [front] at member
      rcases List.mem_append.mp member with write | read
      · exact List.mem_append_left _ write
      · rcases List.mem_cons.mp read with rfl | later
        · exact absurd own other
        · exact List.mem_append_right _ later
    · exact nomatch phase.symm.trans draining

/-- A task of another generation is not the one which is waited for. -/
theorem Reading.skipTask
    (reading : server.Reading index connection packets past recent)
    {task : Tagged (PacketTask n)} {rest : List (Tagged (PacketTask n))}
    (phase : server.phase = .packetTasks) (front : server.mReadBuffer = task :: rest)
    (stale : (server.user task.value.clientIndex).mGeneration ≠ task.value.generation) :
    ∃ added, ({ server with mReadBuffer := rest }.observe
      (.skipped task.value.clientIndex task.connection)).Reading index connection packets
        past (recent ++ added) := by
  refine ⟨_, reading.of_frame (.refl _) rfl rfl rfl rfl (elsewhere_singleton trivial)
    fun _ served => ?_⟩
  rcases served with written | ⟨queued, member, own, sent, generation⟩ | draining
  · exact .inl written
  · refine .inr (.inl ⟨queued, ?_, own, sent, generation⟩)
    rw [front] at member
    rcases List.mem_append.mp member with write | read
    · exact List.mem_append_left _ write
    · rcases List.mem_cons.mp read with rfl | later
      · rw [own] at stale
        exact absurd generation.symm stale
      · exact List.mem_append_right _ later
  · exact nomatch phase.symm.trans draining

/-- The drain loop ends for the client only when its ring holds no complete packet. -/
theorem Reading.drained
    (reading : server.Reading index connection packets past recent)
    (wellFormed : ∀ packet ∈ packets, ClientPacket packet)
    (phase : server.phase = .draining slot) (nothing : (server.packet slot).PacketId = 0) :
    ∃ added, ({ server.takePacket slot with phase := .packetTasks } : ChatServer n).Reading
      index connection packets past (recent ++ added) := by
  rcases eq_or_ne slot index with rfl | other
  · rcases next : User.packetFormat.next? (server.user slot).bytes with _ | ⟨packet, rest⟩
    · rw [(takePacket_of_none reading.mailbox next).2]
      exact ⟨[], reading.of_frame (.refl _) rfl rfl rfl (List.append_nil _).symm elsewhere_nil
        fun waiting => absurd next waiting⟩
    · have request := (reading.dispatch wellFormed phase next).1
      exact absurd nothing (findHandler_clientRequest request).1
  · refine reading.quiet (server.takePacket_user_of_ne other.symm ▸ .refl _)
      (server.takePacket_tags_of_ne other.symm) rfl rfl (List.append_nil _).symm elsewhere_nil
      id (fun _ queued _ _ => queued) (fun draining => ?_)
    cases phase.symm.trans draining
    exact absurd rfl other

/-- A packet which the drain loop hands over is the client's next one, or another
client's. -/
theorem Reading.drain (reading : server.Reading index connection packets past recent)
    (wellFormed : ∀ packet ∈ packets, ClientPacket packet)
    (phase : server.phase = .draining slot) (some : (server.packet slot).PacketId ≠ 0)
    (received : (server.dispatch slot).Received slot (server.packet slot).PacketId
      (server.packet slot).DataSize (server.packet slot).pDataPtr (server.sender slot) false
      after) :
    ∃ added, after.Reading index connection packets past (recent ++ added) := by
  rcases eq_or_ne slot index with rfl | other
  · rcases next : User.packetFormat.next? (server.user slot).bytes with _ | ⟨packet, rest⟩
    · have nothing := (takePacket_of_none reading.mailbox next).1
      exact absurd (congrArg PacketInfo.PacketId nothing) some
    · obtain ⟨_, observation, dispatched⟩ := reading.dispatch wellFormed phase next
      exact ⟨[observation], received.reading dispatched⟩
  · obtain ⟨added, dispatched⟩ : ∃ added, (server.dispatch slot).Reading index connection
        packets past (recent ++ added) :=
      reading.quiet (server.takePacket_user_of_ne other.symm ▸ .refl _)
        (server.takePacket_tags_of_ne other.symm) rfl rfl rfl (elsewhere_singleton other) id
        (fun _ queued _ _ => queued) id
    exact ⟨added, received.reading dispatched⟩

theorem Reading.response
    (reading : server.Reading index connection packets past recent)
    {task : Tagged (RedisTask n)} {rest : List (Tagged (RedisTask n))}
    (received : ({ server with mResponseTask := rest }.observe
      (.loginResult task.value.UserIndex task.connection
        (server.isCurrent task.value.UserIndex task.connection))).Received
          task.value.UserIndex task.value.TaskID.code task.value.pData.length
          task.value.pData task.connection false after) :
    ∃ added, after.Reading index connection packets past (recent ++ added) := by
  have taken : ({ server with mResponseTask := rest }.observe
      (.loginResult task.value.UserIndex task.connection
        (server.isCurrent task.value.UserIndex task.connection))).Reading index
          connection packets past (recent ++
            [Observation.loginResult task.value.UserIndex task.connection
              (server.isCurrent task.value.UserIndex task.connection)]) :=
    reading.of_frame (.refl _) rfl rfl rfl rfl (elsewhere_singleton trivial)
      fun _ served => served
  exact ⟨_, received.reading taken⟩

/-- The packets of the client do not disconnect it. -/
theorem Reading.not_forges (reading : server.Reading index connection packets past recent)
    (wellFormed : ∀ packet ∈ packets, ClientPacket packet) : ¬ server.Forges index := by
  intro forges
  rcases next : User.packetFormat.next? (server.user index).bytes with _ | ⟨packet, rest⟩
  · have nothing := (takePacket_of_none reading.mailbox next).1
    exact forges.packet (congrArg PacketInfo.PacketId nothing)
  · have request := (reading.dispatch wellFormed forges.phase next).1
    exact (findHandler_clientRequest request).2 forges.found

end Cases

theorem step_reading {server next : ChatServer n} {event : Event n} {index : Fin n}
    {connection : Nat} {packets : List Bytes} {past recent : List (Observation n)}
    (wellFormed : ∀ packet ∈ packets, ClientPacket packet)
    (reading : server.Reading index connection packets past recent)
    (stays : event ≠ .close index)
    (own : ∀ sender, event = .setPacketData index sender → sender = connection)
    (fits : server.Fits index event)
    (stream : ∀ later, next.trace = past ++ later → writtenTo index later <+: packets.flatten)
    (spares : event = .logic → ∀ clearing, server.clearing = some clearing →
      clearing.clientIndex = index → server.Spares clearing connection)
    (taken : server.step event = some next) :
    ∃ added, next.Reading index connection packets past (recent ++ added) := by
  cases step_cases taken with
  | accept slot free =>
      have other : index ≠ slot := by
        rintro rfl
        exact absurd (reading.isOpen.symm.trans free) nofun
      exact reading.quiet (.refl _) rfl (Function.update_of_ne other ..)
        (Function.update_of_ne other ..) (List.append_nil _).symm elsewhere_nil id
        (fun _ queued _ _ => queued) id
  | onConnect slot =>
      exact reading.quiet (.refl _) rfl rfl rfl (List.append_nil _).symm elsewhere_nil id
        (fun _ queued _ _ => queued) id
  | close slot isOpen =>
      have other : index ≠ slot := by
        rintro rfl
        exact stays rfl
      exact reading.quiet (.refl _) rfl rfl (Function.update_of_ne other ..)
        (List.append_nil _).symm elsewhere_nil id (fun _ queued _ _ => queued) id
  | receive slot data idle nonempty => exact reading.receive data idle
  | setPacketData slot sender data given =>
      rcases eq_or_ne slot index with rfl | other
      · cases own sender rfl
        have room := fits rfl
        rw [show server.inHand slot connection = data by simp [inHand, given]] at room
        have written : writtenTo slot (recent ++ [.written slot connection data
            ((server.user slot).mPacketDataBuffer.write data).1]) =
              writtenTo slot recent ++ data := by
          rw [writtenTo_append]
          simp [writtenTo]
        have later := stream (recent ++ [.written slot connection data
          ((server.user slot).mPacketDataBuffer.write data).1]) (by
            rw [← List.append_assoc, ← reading.history]
            rfl)
        obtain ⟨count, wrote⟩ := reading.setPacketData data room (written ▸ later)
        exact ⟨_, wrote⟩
      · exact reading.setPacketData_of_ne other.symm sender data
  | enqueuePacketData slot sender written => exact reading.enqueuePacketData slot sender
  | purge clearing ongoing stage => exact reading.purge stage (spares rfl clearing ongoing)
  | keepSlot clearing ongoing stage state =>
      exact reading.quiet (server.logic.leaveRoomOnClear_sameMailbox _ index) rfl rfl rfl
        rfl (elsewhere_ended clearing) id (fun _ queued _ _ => queued) id
  | clear clearing ongoing stage state =>
      exact reading.clearSlot stage state (spares rfl clearing ongoing)
  | incrementGeneration clearing ongoing stage =>
      exact reading.incrementGeneration stage (spares rfl clearing ongoing)
  | swap quiet phase =>
      refine reading.quiet (.refl _) rfl rfl rfl (List.append_nil _).symm elsewhere_nil id
        (fun task queued _ _ => ?_) (fun draining => ?_)
      · exact List.mem_append.mpr (List.mem_append.mp queued).symm
      · exact nomatch phase.symm.trans draining
  | nextPhase phase quiet done =>
      refine reading.quiet (.refl _) rfl rfl rfl (List.append_nil _).symm elsewhere_nil id
        (fun _ queued _ _ => queued) (fun draining => ?_)
      cases done with
      | systemPackets before empty => exact nomatch before.symm.trans draining
      | packetTasks before empty => exact nomatch before.symm.trans draining
      | responses before => exact nomatch before.symm.trans draining
  | systemPacket packet rest after quiet phase front received =>
      exact reading.systemPacket received
  | drainTask task rest quiet phase front same => exact reading.drainTask phase front
  | skipTask task rest quiet phase front stale => exact reading.skipTask phase front stale
  | drained slot quiet phase nothing => exact reading.drained wellFormed phase nothing
  | dispatch slot after quiet phase some received =>
      exact reading.drain wellFormed phase some received
  | dropResponse task rest quiet phase front =>
      refine reading.quiet (.refl _) rfl rfl rfl (List.append_nil _).symm elsewhere_nil id
        (fun _ queued _ _ => queued) (fun draining => ?_)
      exact nomatch phase.symm.trans draining
  | response task rest after quiet phase front received => exact reading.response received
  | redisTake task rest front =>
      exact reading.quiet (.refl _) rfl rfl rfl (List.append_nil _).symm elsewhere_nil id
        (fun _ queued _ _ => queued) id
  | redisAnswer worker value task responses busy answered =>
      exact reading.quiet (.refl _) rfl rfl rfl (List.append_nil _).symm elsewhere_nil id
        (fun _ queued _ _ => queued) id

theorem step_delivering {server next : ChatServer n} {event : Event n} {index : Fin n}
    {connection : Nat} {packets : List Bytes} {past recent : List (Observation n)}
    (wellFormed : ∀ packet ∈ packets, ClientPacket packet)
    (delivering : server.Delivering index connection packets past recent)
    (stays : event ≠ .close index)
    (own : ∀ sender, event = .setPacketData index sender → sender = connection)
    (fits : server.Fits index event)
    (stream : ∀ later, next.trace = past ++ later → writtenTo index later <+: packets.flatten)
    (taken : server.step event = some next) :
    ∃ added, next.Delivering index connection packets past (recent ++ added) := by
  have genuine := delivering.toReading.not_forges wellFormed
  obtain ⟨added, reading⟩ := step_reading wellFormed delivering.toReading stays own fits stream
    (fun _ clearing ongoing same => absurd same (delivering.calm.clearing clearing ongoing))
    taken
  exact ⟨added, reading, step_calm delivering.calm stays genuine taken⟩

/-! ## Runs -/

/-- The chunks which the events give to `ReceivePacketData` for the index, in one piece. -/
def received (index : Fin n) (events : List (Event n)) : Bytes :=
  events.flatMap fun
    | .receive slot data => if slot = index then data else []
    | _ => []

/-- No chunk of another connection is in hand. -/
def Alone (server : ChatServer n) (index : Fin n) (connection : Nat) : Prop :=
  ∀ sender data, server.receiving index sender = some (.received data) → sender = connection

theorem received_cons (index : Fin n) (event : Event n) (rest : List (Event n)) :
    received index (event :: rest) = received index [event] ++ received index rest := by
  unfold received
  rw [List.flatMap_cons, List.flatMap_singleton]

/-- What was written and what is in hand has grown by these bytes, and no chunk of another
connection is in hand. -/
structure Takes (server next : ChatServer n) (index : Fin n) (connection : Nat)
    (chunk : Bytes) : Prop where
  alone : next.Alone index connection
  balance : writtenTo index next.trace ++ next.inHand index connection =
    writtenTo index server.trace ++ server.inHand index connection ++ chunk

section Takes

variable {server next : ChatServer n} {index slot : Fin n} {connection sender : Nat}

theorem Alone.takes_nothing (alone : server.Alone index connection)
    {added : List (Observation n)} (receiving : next.receiving index = server.receiving index)
    (trace : next.trace = server.trace ++ added)
    (noWrites : ∀ observation ∈ added, Elsewhere index observation ∨ NoWrite observation) :
    server.Takes next index connection [] := by
  constructor
  · intro sender data
    rw [receiving]
    exact alone sender data
  · unfold inHand
    rw [trace, writtenTo_append, writtenTo_eq_nil noWrites, receiving, List.append_nil,
      List.append_nil]

/-- The call of `ReceivePacketData` for another index. -/
theorem Alone.takes_elsewhere (alone : server.Alone index connection) (other : index ≠ slot)
    (before : ChatServer n) (receiving : Option Receiving)
    (same : before.receiving = server.receiving) {added : List (Observation n)}
    (trace : before.trace = server.trace ++ added)
    (noWrites : ∀ observation ∈ added, Elsewhere index observation ∨ NoWrite observation) :
    server.Takes (before.setReceiving slot sender receiving) index connection [] := by
  refine alone.takes_nothing ?_ trace noWrites
  unfold setReceiving
  rw [same]
  exact Function.update_of_ne other ..

theorem Alone.setReceiving (alone : server.Alone index connection) (before : ChatServer n)
    (same : before.receiving = server.receiving) {receiving : Option Receiving}
    (own : ∀ data, receiving = some (.received data) → sender = connection) :
    (before.setReceiving index sender receiving).Alone index connection := by
  intro other chunk inHand
  rcases eq_or_ne other sender with rfl | different
  · rw [setReceiving_self] at inHand
    exact own chunk inHand
  · rw [setReceiving_of_ne _ _ (.inr different), same] at inHand
    exact alone other chunk inHand

theorem Alone.receive (alone : server.Alone index connection)
    (idle : server.receiving index connection = none) (data : Bytes) :
    server.Takes (server.setReceiving index connection (some (.received data))) index connection
      data := by
  refine ⟨alone.setReceiving server rfl fun _ _ => rfl, ?_⟩
  unfold inHand
  rw [setReceiving_self, idle]
  simp [ChatServer.setReceiving]

theorem Alone.setPacketData (alone : server.Alone index connection) {data : Bytes}
    (given : server.receiving index connection = some (.received data)) :
    server.Takes ((server.setPacketData index connection data).setReceiving index connection
      (some .written)) index connection [] := by
  refine ⟨alone.setReceiving _ rfl (fun _ => nofun), ?_⟩
  have wrote : writtenTo index (server.setPacketData index connection data).trace =
      writtenTo index server.trace ++ data := by
    rw [ChatServer.setPacketData, observe, writtenTo_append]
    simp [writtenTo]
  unfold inHand
  rw [setReceiving_self, given]
  simpa [ChatServer.setReceiving] using wrote

theorem Alone.enqueuePacketData (alone : server.Alone index connection)
    (written : server.receiving index sender = some .written) :
    server.Takes ((server.enqueuePacketData index sender).setReceiving index sender none) index
      connection [] := by
  refine ⟨alone.setReceiving _ rfl (fun _ => nofun), ?_⟩
  have same : inHand ((server.enqueuePacketData index sender).setReceiving index sender none)
      index connection = inHand server index connection := by
    unfold inHand
    rcases eq_or_ne connection sender with rfl | different
    · rw [setReceiving_self, written]
    · rw [setReceiving_of_ne _ _ (.inr different)]
      rfl
  rw [same]
  exact (List.append_nil _).symm

end Takes

/-- The chunk which a step writes was in hand, and the one which it receives is. -/
theorem step_received {server next : ChatServer n} {event : Event n} {index : Fin n}
    {connection : Nat} (current : server.connection index = connection)
    (alone : server.Alone index connection) (taken : server.step event = some next) :
    server.Takes next index connection (received index [event]) := by
  have empty : ∀ observation ∈ ([] : List (Observation n)),
      Elsewhere index observation ∨ NoWrite observation :=
    fun _ member => absurd member List.not_mem_nil
  have quiet {after : ChatServer n} (receiving : after.receiving = server.receiving)
      (trace : after.trace = server.trace) : server.Takes after index connection [] :=
    alone.takes_nothing (congrFun receiving index) (trace.trans (List.append_nil _).symm) empty
  cases event with
  | receive slot data =>
      cases step_cases taken with
      | receive _ _ idle nonempty =>
          rcases eq_or_ne slot index with rfl | other
          · have chunk : received slot [.receive slot data] = data := by simp [received]
            rw [chunk]
            subst current
            exact alone.receive idle data
          · have chunk : received index [.receive slot data] = [] := by simp [received, other]
            rw [chunk]
            exact alone.takes_elsewhere other.symm server _ rfl (List.append_nil _).symm empty
  | setPacketData slot sender =>
      cases step_cases taken with
      | setPacketData _ _ data given =>
          rcases eq_or_ne slot index with rfl | other
          · cases alone sender data given
            exact alone.setPacketData given
          · refine alone.takes_elsewhere other.symm _ _ rfl rfl fun observation member => ?_
            rw [List.mem_singleton.mp member]
            exact .inl other
  | enqueuePacketData slot sender =>
      cases step_cases taken with
      | enqueuePacketData _ _ written =>
          rcases eq_or_ne slot index with rfl | other
          · exact alone.enqueuePacketData written
          · exact alone.takes_elsewhere other.symm _ _ rfl (List.append_nil _).symm empty
  | logic =>
      obtain ⟨_, _, receiving, added, trace, noWrites⟩ := logic_frame taken
      exact alone.takes_nothing (congrFun receiving index) trace
        (fun observation member => .inr (noWrites observation member))
  | accept slot =>
      cases step_cases taken with
      | accept _ free => exact quiet rfl rfl
  | onConnect slot =>
      cases step_cases taken with
      | onConnect => exact quiet rfl rfl
  | close slot =>
      cases step_cases taken with
      | close _ isOpen => exact quiet rfl rfl
  | redisTake =>
      cases step_cases taken with
      | redisTake task rest front => exact quiet rfl rfl
  | redisAnswer worker value =>
      cases step_cases taken with
      | redisAnswer _ _ task responses busy answered => exact quiet rfl rfl

/-- Delivery over a whole run: the induction is on the events which are left, and the
stream is what has been written, what is in hand and what they are going to give. -/
theorem run_delivering {server last : ChatServer n} {index : Fin n} {connection : Nat}
    {packets : List Bytes} {past recent : List (Observation n)} {events : List (Event n)}
    (wellFormed : ∀ packet ∈ packets, ClientPacket packet)
    (delivering : server.Delivering index connection packets past recent)
    (alone : server.Alone index connection) (stays : .close index ∉ events)
    (fits : Throughout step (fun state event => state.Fits index event) server events)
    (stream : writtenTo index recent ++ server.inHand index connection ++
      received index events <+: packets.flatten)
    (completed : run? step server events = some last) :
    ∃ later, last.Delivering index connection packets past later ∧
      writtenTo index later ++ last.inHand index connection =
        writtenTo index recent ++ server.inHand index connection ++ received index events := by
  induction events generalizing server recent with
  | nil =>
      cases completed
      exact ⟨recent, delivering, (List.append_nil _).symm⟩
  | cons event rest ih =>
      obtain ⟨next, taken, remaining⟩ := run?_cons_some completed
      obtain ⟨room, laterFits⟩ := fits next taken
      obtain ⟨nextAlone, given⟩ := step_received delivering.current alone taken
      have balance {later : List (Observation n)} (history : next.trace = past ++ later) :
          writtenTo index later ++ next.inHand index connection =
            writtenTo index recent ++ server.inHand index connection ++
              received index [event] := by
        rw [history, delivering.history, writtenTo_append, writtenTo_append] at given
        simp only [List.append_assoc] at given ⊢
        exact List.append_cancel_left given
      have whole {later : List (Observation n)} (history : next.trace = past ++ later) :
          writtenTo index later ++ next.inHand index connection ++ received index rest =
            writtenTo index recent ++ server.inHand index connection ++
              received index (event :: rest) := by
        rw [balance history, received_cons index event rest, List.append_assoc]
      have own (sender : Nat) (writes : event = .setPacketData index sender) :
          sender = connection := by
        cases writes
        cases step_cases taken with
        | setPacketData _ _ data pending => exact alone sender data pending
      have part (later : List (Observation n)) (history : next.trace = past ++ later) :
          writtenTo index later <+: packets.flatten := by
        rw [← whole history, List.append_assoc] at stream
        exact (List.prefix_append _ _).trans stream
      obtain ⟨added, nextDelivering⟩ := step_delivering wellFormed delivering
        (fun same => stays (same ▸ List.mem_cons_self)) own room part taken
      have nextStream := stream
      rw [← whole nextDelivering.history] at nextStream
      obtain ⟨later, lastDelivering, total⟩ := ih nextDelivering nextAlone
        (fun member => stays (List.mem_cons_of_mem _ member)) laterFits nextStream remaining
      exact ⟨later, lastDelivering, total.trans (whole nextDelivering.history)⟩

/-- A connected client whose ring is empty: nothing of it or of an earlier connection of
its index is under way. -/
structure Ready (server : ChatServer n) (index : Fin n) : Prop where
  isOpen : server.isOpen index = true
  mailbox : server.MailboxOk index
  empty : (server.user index).bytes = []
  idle : ∀ connection, server.receiving index connection = none
  calm : server.Calm index

/-- Reading starts with an empty ring. -/
theorem Reading.start {server : ChatServer n} {index : Fin n}
    (isOpen : server.isOpen index = true) (mailbox : server.MailboxOk index)
    (empty : (server.user index).bytes = []) (packets : List Bytes) :
    server.Reading index (server.connection index) packets server.trace [] where
  history := (List.append_nil _).symm
  mailbox := mailbox
  current := rfl
  isOpen := isOpen
  own := by
    have tags : server.byteConnections index = [] := by
      rw [← List.length_eq_zero_iff, mailbox.tagged, empty, List.length_nil]
    rw [tags]
    exact fun _ member => absurd member List.not_mem_nil
  sources := fun _ _ member => absurd member List.not_mem_nil
  infos := fun _ member => absurd member List.not_mem_nil
  reassembly := by
    rw [empty]
    exact .start packets
  served := by
    rw [empty]
    exact fun waiting => absurd (FrameFormat.next?_nil (by decide)) waiting

/-- Write buffer and current batch hold no task of the index, and no call of
`ReceivePacketData` for it is half done. -/
structure Idle (server : ChatServer n) (index : Fin n) : Prop where
  tasks : ∀ task ∈ server.mWriteBuffer ++ server.mReadBuffer, task.value.clientIndex ≠ index
  drained : server.phase ≠ .draining index
  receiving : server.receiving index (server.connection index) = none

theorem Idle.not_served {server : ChatServer n} {index : Fin n} (idle : server.Idle index) :
    ¬ server.Served index (server.connection index) := by
  rintro (written | ⟨task, queued, own, _, _⟩ | draining)
  · cases idle.receiving.symm.trans written
  · exact idle.tasks task queued own
  · exact idle.drained draining

/--
Whatever the chunks and the schedule, the packets which the drain loop hands over for a
client are the client's packets: a prefix of them at every moment, and all which have been
received completely when nothing of the client is under way.
-/
theorem stream_reassembled {server last : ChatServer n} {index : Fin n}
    {packets : List Bytes} {events : List (Event n)}
    (wellFormed : ∀ packet ∈ packets, ClientPacket packet) (ready : server.Ready index)
    (stays : .close index ∉ events)
    (fits : Throughout step (fun state event => state.Fits index event) server events)
    (stream : received index events <+: packets.flatten)
    (completed : run? step server events = some last) :
    dispatchedTo index (last.trace.drop server.trace.length) <+: packets.map packetInfo ∧
      (last.Idle index → dispatchedTo index (last.trace.drop server.trace.length) =
        (FrameFormat.complete packets (received index events).length).map packetInfo) := by
  have alone : server.Alone index (server.connection index) := fun sender data inHand =>
    nomatch (ready.idle sender).symm.trans inHand
  have inHand : server.inHand index (server.connection index) = [] := by
    unfold ChatServer.inHand
    rw [ready.idle]
  obtain ⟨later, delivering, total⟩ := run_delivering wellFormed
    ⟨.start ready.isOpen ready.mailbox ready.empty packets, ready.calm⟩ alone stays fits
    (by rw [inHand]; exact stream) completed
  have recent : last.trace.drop server.trace.length = later := by
    rw [delivering.history, List.drop_left]
  rw [recent, delivering.dispatchedTo_eq]
  refine ⟨delivering.reassembly.delivered_prefix.map packetInfo, fun idle => ?_⟩
  have current := delivering.current
  have notServed : ¬ last.Served index (server.connection index) := current ▸ idle.not_served
  have nothing : last.inHand index (server.connection index) = [] := by
    unfold ChatServer.inHand
    rw [← current, idle.receiving]
  rw [nothing, inHand, List.append_nil] at total
  rw [delivering.complete wellFormed notServed, total]
  rfl

theorem accept_ready (memory : Fin n → Bytes) (index : Fin n) {server : ChatServer n}
    (accepted : (init memory).step (.accept index) = some server) : server.Ready index := by
  cases step_cases accepted with
  | accept _ free =>
      refine ⟨Function.update_self .., (init_mailboxOk memory index).of_same (.refl _) rfl, rfl,
        fun _ => rfl, ⟨fun _ member => absurd member List.not_mem_nil, nofun⟩⟩

theorem idle_iff (server : ChatServer n) (index : Fin n) : server.Idle index ↔
    (∀ task ∈ server.mWriteBuffer ++ server.mReadBuffer, task.value.clientIndex ≠ index) ∧
      server.phase ≠ .draining index ∧
      server.receiving index (server.connection index) = none :=
  ⟨fun ⟨tasks, drained, receiving⟩ => ⟨tasks, drained, receiving⟩,
    fun ⟨tasks, drained, receiving⟩ => ⟨tasks, drained, receiving⟩⟩

instance (server : ChatServer n) (index : Fin n) : Decidable (server.Idle index) :=
  decidable_of_iff _ (server.idle_iff index).symm

/-- `SYS_PONG`. -/
def pong : Bytes := u16Bytes packetHeaderLength ++ u16Bytes PacketId.sysPong.code ++ [0]

/-- The server after its first accept. -/
def firstClient : ChatServer 1 :=
  { init fun _ => [] with
    connection := Function.update (fun _ => 0) 0 1
    isOpen := Function.update (fun _ => false) 0 true }

/-- Two packets in two chunks, the first one cut inside the header; the drain loop empties
the ring while the second task is not queued yet. -/
def twoPongs : List (Event 1) :=
  [.receive 0 (pong.take 3), .setPacketData 0 1, .enqueuePacketData 0 1, .logic, .logic,
    .receive 0 (pong.drop 3 ++ pong), .setPacketData 0 1] ++ List.replicate 6 .logic ++
    [.enqueuePacketData 0 1] ++ List.replicate 5 .logic

theorem twoPongs_reassembled :
    ∃ last, run? step firstClient twoPongs = some last ∧
      dispatchedTo 0 (last.trace.drop firstClient.trace.length) =
        [packetInfo pong, packetInfo pong] := by
  have wellFormed : ∀ packet ∈ [pong, pong], ClientPacket packet := by
    intro packet member
    have same : packet = pong := by simpa using member
    rw [same]
    exact ⟨by decide, by decide, by decide, by decide⟩
  have ready : firstClient.Ready 0 := accept_ready (fun _ => []) 0 rfl
  have checked : (run? step firstClient twoPongs).map (fun last => decide (last.Idle 0)) =
      some true := by decide +kernel
  obtain ⟨last, completed, idle⟩ := Option.map_eq_some_iff.mp checked
  have reassembled := stream_reassembled wellFormed ready (by decide) (by decide +kernel)
    (by decide) completed
  exact ⟨last, completed, reassembled.2 (of_decide_eq_true idle)⟩

end ChatServer

end IOCPChatServer

import IOCPChatServer.Library.Execution
import IOCPChatServer.PacketManager

/-!
# The threads of the chat server

`ChatServer.h` and the parts of `PacketManager.cpp` and `RedisManager.h` which several
threads share: the I/O threads push system packets and hand received bytes over in two
steps, `SetPacketData` and `EnqueuePacketData`; the logic thread swaps the buffers and
processes them one element after another; the Redis workers take requests and push
responses.  Every step is one critical section or one access to shared data, and an
event chooses the thread which makes it, so a list of events is a schedule.

A connection is the number of the accept on its client index.  The program does not
know it: it tags bytes, tasks and packets so that statements can speak about their
origin, and no step decides anything by it.  `trace` is a history as well.
-/

namespace IOCPChatServer

/-- A queued value and the connection it comes from. -/
structure Tagged (α : Type) where
  value : α
  connection : Nat
  deriving DecidableEq

/-- `struct PacketTask`. -/
structure PacketTask (n : Nat) where
  clientIndex : Fin n
  generation : UInt32
  deriving DecidableEq

/-- The `PacketInfo` which `OnConnect` and `OnClose` push; size and pointer are zero. -/
structure SystemPacket (n : Nat) where
  clientIndex : Fin n
  packetId : PacketId
  deriving DecidableEq

/-- Where the loop of `ProcessPacket` is.  The read buffers hold what is left of the
batch. -/
inductive Phase (n : Nat) where
  | waiting
  | systemPackets
  | packetTasks
  | draining (clientIndex : Fin n)
  | responses
  deriving DecidableEq

/-- The next step of `ClearConnectionInfo`. -/
inductive ClearStage where
  | purge
  | clear
  | incrementGeneration
  deriving DecidableEq, Repr

/-- A call of `ClearConnectionInfo` which has not returned.  `fromSystem` tells a
`SYS_USER_DISCONNECT` which was pushed from one which a client sent. -/
structure Clearing (n : Nat) where
  clientIndex : Fin n
  connection : Nat
  fromSystem : Bool
  stage : ClearStage
  deriving DecidableEq

/-- A call of `ReceivePacketData` which has not returned. -/
inductive Receiving where
  | received (data : Bytes)
  | written
  deriving DecidableEq, Repr

/-- What the history records: bytes which `SetPacketData` was given and how many it
wrote, tasks refused by their generation, tasks, bytes and generations which
`ClearConnectionInfo` removed on account of a connection, packets given to
`ProcessRecvPacket` by the drain loop with the connections of their bytes, and login
results with whether their connection is still the open one of its index. -/
inductive Observation (n : Nat) where
  | written (index : Fin n) (connection : Nat) (data : Bytes) (count : Nat)
  | skipped (index : Fin n) (connection : Nat)
  | purged (index : Fin n) (cause : Nat) (fromSystem : Bool) (connections : List Nat)
  | cleared (index : Fin n) (cause : Nat) (fromSystem : Bool) (connections : List Nat)
  | retired (index : Fin n) (cause : Nat) (fromSystem : Bool)
  | disconnected (index : Fin n) (connection : Nat)
  | dispatched (index : Fin n) (packet : PacketInfo) (connections : List Nat)
  | loginResult (index : Fin n) (connection : Nat) (current : Bool)
  deriving DecidableEq, Repr

/-- The shared state.  `byteConnections` tags the bytes of each reassembly buffer in
order, `receiving` is at most one call of `ReceivePacketData` for each connection,
`workers` are the requests which Redis workers have taken. -/
structure ChatServer (n : Nat) where
  logic : PacketManager n
  phase : Phase n := .waiting
  clearing : Option (Clearing n) := none
  mSystemWriteBuffer : List (Tagged (SystemPacket n)) := []
  mSystemReadBuffer : List (Tagged (SystemPacket n)) := []
  mWriteBuffer : List (Tagged (PacketTask n)) := []
  mReadBuffer : List (Tagged (PacketTask n)) := []
  mRequestTask : List (Tagged (RedisTask n)) := []
  workers : List (Tagged (RedisTask n)) := []
  mResponseTask : List (Tagged (RedisTask n)) := []
  connection : Fin n → Nat := fun _ => 0
  isOpen : Fin n → Bool := fun _ => false
  receiving : Fin n → Nat → Option Receiving := fun _ _ => none
  byteConnections : Fin n → List Nat := fun _ => []
  trace : List (Observation n) := []

namespace ChatServer

variable {n : Nat}

def init (memory : Fin n → Bytes) : ChatServer n where
  logic := PacketManager.init memory

/-- The slot of a client index. -/
def user (server : ChatServer n) (index : Fin n) : User := server.logic.user index

def observe (server : ChatServer n) (observation : Observation n) : ChatServer n :=
  { server with trace := server.trace ++ [observation] }

/-! ## The I/O threads -/

/-- `PushSystemPacket` for the present connection of the index. -/
def pushSystemPacket (server : ChatServer n) (index : Fin n) (packetId : PacketId) :
    ChatServer n :=
  { server with
    mSystemWriteBuffer := server.mSystemWriteBuffer ++
      [⟨⟨index, packetId⟩, server.connection index⟩] }

def setReceiving (server : ChatServer n) (index : Fin n) (connection : Nat)
    (receiving : Option Receiving) : ChatServer n :=
  { server with
    receiving := Function.update server.receiving index
      (Function.update (server.receiving index) connection receiving) }

/-- `SetPacketData` and the tags of the bytes which it wrote. -/
def setPacketData (server : ChatServer n) (index : Fin n) (connection : Nat)
    (data : Bytes) : ChatServer n :=
  let count := ((server.user index).mPacketDataBuffer.write data).1
  { server with
    logic := server.logic.modifyUser index (fun user => user.setPacketData data)
    byteConnections := Function.update server.byteConnections index
      (server.byteConnections index ++ List.replicate count connection) }.observe
    (.written index connection data count)

/-- `EnqueuePacketData`. -/
def enqueuePacketData (server : ChatServer n) (index : Fin n) (connection : Nat) :
    ChatServer n :=
  { server with
    mWriteBuffer := server.mWriteBuffer ++
      [⟨⟨index, (server.user index).mGeneration⟩, connection⟩] }

/-! ## The logic thread -/

/-- `ClearConnectionInfo` returns. -/
def endClearing (server : ChatServer n) (clearing : Clearing n) : ChatServer n :=
  { server with
    clearing := none
    trace := server.trace ++
      if clearing.fromSystem then [.disconnected clearing.clientIndex clearing.connection]
      else [] }

/-- The tasks of the index are erased from `mWriteBuffer`, under `mLock`. -/
def purge (server : ChatServer n) (clearing : Clearing n) : ChatServer n :=
  let purged := server.mWriteBuffer.filter (·.value.clientIndex = clearing.clientIndex)
  { server with
    mWriteBuffer := server.mWriteBuffer.filter (·.value.clientIndex ≠ clearing.clientIndex)
    clearing := some { clearing with stage := .clear } }.observe
    (.purged clearing.clientIndex clearing.connection clearing.fromSystem
      (purged.map Tagged.connection))

/-- `LeaveUser` for a slot in `ROOM`, and the first half of `DeleteUserInfo`. -/
def clearSlot (server : ChatServer n) (clearing : Clearing n) : ChatServer n :=
  let index := clearing.clientIndex
  let left := server.logic.leaveRoomOnClear index
  { server with
    logic := { left with mUserManager := left.mUserManager.eraseAndClear index }
    byteConnections := Function.update server.byteConnections index []
    clearing := some { clearing with stage := .incrementGeneration } }.observe
    (.cleared index clearing.connection clearing.fromSystem (server.byteConnections index))

/-- `DeleteUserInfo` is called unless the slot is in state `NONE` by now. -/
def clear (server : ChatServer n) (clearing : Clearing n) : ChatServer n :=
  let left := server.logic.leaveRoomOnClear clearing.clientIndex
  if (left.user clearing.clientIndex).mCurDomainState = .none then
    { server with logic := left }.endClearing clearing
  else server.clearSlot clearing

/-- The second half of `DeleteUserInfo`. -/
def incrementGeneration (server : ChatServer n) (clearing : Clearing n) : ChatServer n :=
  ({ server with
    logic := { server.logic with
      mUserManager := server.logic.mUserManager.retireGeneration clearing.clientIndex } }.observe
    (.retired clearing.clientIndex clearing.connection clearing.fromSystem)).endClearing clearing

/-- A handler has run to its end: the Redis tasks which it pushed are queued. -/
def handled (server : ChatServer n) (logic : PacketManager n) (connection : Nat) :
    ChatServer n :=
  { server with
    logic := logic
    mRequestTask := server.mRequestTask ++
      (logic.redisTasks.drop server.logic.redisTasks.length).map (⟨·, connection⟩) }

/-- `ProcessRecvPacket`.  `ClearConnectionInfo` is entered and left to the next steps,
the other handlers run to their end. -/
def processRecvPacket (server : ChatServer n) (index : Fin n) (packetId packetSize : Nat)
    (pPacket : Bytes) (connection : Nat) (fromSystem : Bool) : Option (ChatServer n) :=
  if PacketManager.findHandler packetId = some .processUserDisconnect then
    some { server with clearing := some ⟨index, connection, fromSystem, .purge⟩ }
  else
    (server.logic.processRecvPacket index packetId packetSize pPacket).map
      (server.handled · connection)

/-- `ProcessLoginDBResult` stores the result which it sends in the packet, which is the
slot's temporary buffer when a client sent the packet. -/
def storeResult (server after : ChatServer n) (index : Fin n) (packet : PacketInfo) :
    ChatServer n :=
  if PacketManager.findHandler packet.PacketId = some .processLoginDBResult then
    { after with
      logic := after.logic.modifyUser index fun user =>
        { user with
          m_tempPacketBuffer :=
            u16Bytes (server.logic.loginResultCode index packet.pDataPtr) ++
              user.m_tempPacketBuffer.drop 2 } }
  else after

/-- What `GetPacket` returns for the index. -/
def packet (server : ChatServer n) (index : Fin n) : PacketInfo :=
  (server.user index).getPacket.1

/-- The slot after `GetPacket`, and the tags of the bytes which are left. -/
def takePacket (server : ChatServer n) (index : Fin n) : ChatServer n :=
  let after := (server.user index).getPacket.2
  let consumed :=
    (server.user index).mPacketDataBuffer.size - after.mPacketDataBuffer.size
  { server with
    logic := server.logic.modifyUser index (fun _ => after)
    byteConnections := Function.update server.byteConnections index
      ((server.byteConnections index).drop consumed) }

/-- The connections of the bytes which make up the packet, its header at least. -/
def packetConnections (server : ChatServer n) (index : Fin n) : List Nat :=
  (server.byteConnections index).take
    (max packetHeaderLength (server.packet index).DataSize)

/-- A client's packet counts as sent by the connection of its last byte. -/
def sender (server : ChatServer n) (index : Fin n) : Nat :=
  (server.packetConnections index).getLastD 0

/-- The packet with those bytes of the temporary buffer which belong to it. -/
def handedPacket (server : ChatServer n) (index : Fin n) : PacketInfo :=
  { server.packet index with
    pDataPtr := (server.packet index).pDataPtr.take (server.packet index).DataSize }

/-- `GetPacket` has returned a packet, and `ProcessRecvPacket` is about to be called. -/
def dispatch (server : ChatServer n) (index : Fin n) : ChatServer n :=
  (server.takePacket index).observe
    (.dispatched index (server.handedPacket index) (server.packetConnections index))

/-- One `GetPacket` of the drain loop, and `ProcessRecvPacket` for what it returned. -/
def drain (server : ChatServer n) (index : Fin n) : Option (ChatServer n) :=
  let packet := server.packet index
  if packet.PacketId = 0 then
    some { server.takePacket index with phase := .packetTasks }
  else
    ((server.dispatch index).processRecvPacket index packet.PacketId packet.DataSize
      packet.pDataPtr (server.sender index) false).map fun after =>
        (server.dispatch index).storeResult after index packet

/-- `std::swap` of both pairs of buffers. -/
def swap (server : ChatServer n) : ChatServer n :=
  { server with
    mSystemWriteBuffer := server.mSystemReadBuffer
    mSystemReadBuffer := server.mSystemWriteBuffer
    mWriteBuffer := server.mReadBuffer
    mReadBuffer := server.mWriteBuffer
    phase := .systemPackets }

/-- Whether the login result's connection is still the open one of its index. -/
def isCurrent (server : ChatServer n) (index : Fin n) (connection : Nat) : Bool :=
  server.connection index == connection && server.isOpen index

/-- The loop of `ProcessPacket` outside of a call of `ClearConnectionInfo`. -/
def processPacket (server : ChatServer n) : Option (ChatServer n) :=
  match server.phase with
  | .waiting =>
      if server.mSystemWriteBuffer.isEmpty && server.mWriteBuffer.isEmpty &&
          server.mResponseTask.isEmpty then none
      else some server.swap
  | .systemPackets =>
      match server.mSystemReadBuffer with
      | [] => some { server with phase := .packetTasks }
      | packet :: rest =>
          { server with mSystemReadBuffer := rest }.processRecvPacket
            packet.value.clientIndex packet.value.packetId.code 0 [] packet.connection true
  | .packetTasks =>
      match server.mReadBuffer with
      | [] => some { server with phase := .responses }
      | task :: rest =>
          if (server.user task.value.clientIndex).mGeneration = task.value.generation then
            some { server with
              mReadBuffer := rest
              phase := .draining task.value.clientIndex }
          else
            some ({ server with mReadBuffer := rest }.observe
              (.skipped task.value.clientIndex task.connection))
  | .draining index => server.drain index
  | .responses =>
      match server.mResponseTask with
      | [] => some { server with phase := .waiting }
      | task :: rest =>
          if task.value.TaskID = .invalid then
            some { server with
              mResponseTask := rest
              phase := .waiting }
          else ({ server with mResponseTask := rest }.observe
            (.loginResult task.value.UserIndex task.connection
              (server.isCurrent task.value.UserIndex task.connection))).processRecvPacket
            task.value.UserIndex task.value.TaskID.code task.value.pData.length
            task.value.pData task.connection false

/-- One step of the logic thread. -/
def logicStep (server : ChatServer n) : Option (ChatServer n) :=
  match server.clearing with
  | none => server.processPacket
  | some clearing =>
      match clearing.stage with
      | .purge => some (server.purge clearing)
      | .clear => some (server.clear clearing)
      | .incrementGeneration => some (server.incrementGeneration clearing)

/-! ## The Redis workers -/

/-- `TaskProcessThread` on a login request, when `Conn.get` gave `value`. -/
def redisAnswer (task : RedisTask n) (value : Option Bytes) : Option (RedisTask n) := do
  let UserID ← strcpyS (maxUserIDLength + 1) (cString task.pData)
  let UserPW := cString (task.pData.drop (maxUserIDLength + 1))
  let Result := if value = some UserPW then ErrorCode.none else ErrorCode.loginUserInvalidPW
  pure {
    UserIndex := task.UserIndex
    TaskID := .responseLogin
    pData := redisLoginRes Result.code UserID }

/-! ## Schedules -/

/-- A step of some thread.  `accept` is the accept of a new client on a free index,
`close` is `CloseSocket`, `receive` is the entry of `ReceivePacketData`. -/
inductive Event (n : Nat) where
  | accept (index : Fin n)
  | onConnect (index : Fin n)
  | close (index : Fin n)
  | receive (index : Fin n) (data : Bytes)
  | setPacketData (index : Fin n) (connection : Nat)
  | enqueuePacketData (index : Fin n) (connection : Nat)
  | logic
  | redisTake
  | redisAnswer (worker : Nat) (value : Option Bytes)
  deriving DecidableEq, Repr

/-- The step of an event; no successor means that it cannot happen, or that it ends
the process. -/
def step (server : ChatServer n) : Event n → Option (ChatServer n)
  | .accept index =>
      if server.isOpen index then none
      else some { server with
        connection := Function.update server.connection index (server.connection index + 1)
        isOpen := Function.update server.isOpen index true }
  | .onConnect index => some (server.pushSystemPacket index .sysUserConnect)
  | .close index =>
      if server.isOpen index then
        some ({ server with
          isOpen := Function.update server.isOpen index false }.pushSystemPacket index
            .sysUserDisconnect)
      else none
  | .receive index data =>
      match server.receiving index (server.connection index) with
      | some _ => none
      | none =>
          if data.isEmpty || server.connection index == 0 then none
          else some (server.setReceiving index (server.connection index) (some (.received data)))
  | .setPacketData index connection =>
      match server.receiving index connection with
      | some (.received data) =>
          some ((server.setPacketData index connection data).setReceiving index connection
            (some .written))
      | _ => none
  | .enqueuePacketData index connection =>
      match server.receiving index connection with
      | some .written =>
          some ((server.enqueuePacketData index connection).setReceiving index connection none)
      | _ => none
  | .logic => server.logicStep
  | .redisTake =>
      match server.mRequestTask with
      | [] => none
      | task :: rest =>
          some { server with
            mRequestTask := rest
            workers := server.workers ++ [task] }
  | .redisAnswer worker value =>
      match server.workers[worker]? with
      | none => none
      | some task =>
          let done := { server with workers := server.workers.eraseIdx worker }
          if task.value.TaskID = .requestLogin then
            (redisAnswer task.value value).map fun response =>
              { done with
                mResponseTask := server.mResponseTask ++ [⟨response, task.connection⟩] }
          else some done

end ChatServer

end IOCPChatServer

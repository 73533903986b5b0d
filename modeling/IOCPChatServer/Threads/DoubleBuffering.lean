import IOCPChatServer.Library.DoubleBuffer
import IOCPChatServer.Threads.Steps

/-!
# The double buffers of the logic thread

`ProcessPacket` swaps `mSystemWriteBuffer` with `mSystemReadBuffer` and `mWriteBuffer` with
`mReadBuffer` under `mLock`, walks along the two read vectors without it and clears each at
the end of its walk.  `ChatServer` keeps only what is left of a batch; here the vectors and
the iterators are kept whole beside it, with the number of each push, and the server is
shown to see exactly their unprocessed parts.

Any thread may call `PushSystemPacket`, `EnqueuePacketData`, `SetPacketData` and
`PushResponse` at any time and with any arguments.
-/

namespace IOCPChatServer

/-- The server beside its four vectors.  The cause of an erased task is the client index for
which `ClearConnectionInfo` runs. -/
structure DoubleBuffering (n : Nat) where
  server : ChatServer n
  system : DoubleBuffer (Tagged (SystemPacket n)) (Fin n) := {}
  tasks : DoubleBuffer (Tagged (PacketTask n)) (Fin n) := {}

namespace DoubleBuffering

variable {n : Nat}

def init (memory : Fin n → Bytes) : DoubleBuffering n where
  server := ChatServer.init memory

/-- What can happen next; the arguments of the pushes are the caller's. -/
inductive Event (n : Nat) where
  | pushSystemPacket (index : Fin n) (packetId : PacketId)
  | setPacketData (index : Fin n) (connection : Nat) (data : Bytes)
  | enqueuePacketData (index : Fin n) (connection : Nat)
  | pushResponse (task : Tagged (RedisTask n))
  | logic
  deriving DecidableEq

/-- `PushSystemPacket` under `mLock`. -/
def pushSystemPacket (state : DoubleBuffering n) (index : Fin n) (packetId : PacketId) :
    DoubleBuffering n :=
  { state with
    server := state.server.pushSystemPacket index packetId
    system := state.system.push ⟨⟨index, packetId⟩, state.server.connection index⟩ }

/-- `EnqueuePacketData` under `mLock`. -/
def enqueuePacketData (state : DoubleBuffering n) (index : Fin n) (connection : Nat) :
    DoubleBuffering n :=
  { state with
    server := state.server.enqueuePacketData index connection
    tasks := state.tasks.push ⟨⟨index, (state.server.user index).mGeneration⟩, connection⟩ }

/-- What the next step of the logic thread does to the vectors. -/
def advance (state : DoubleBuffering n) (next : ChatServer n) : DoubleBuffering n :=
  match state.server.clearing with
  | some clearing =>
      if clearing.stage = .purge then
        { state with
          server := next
          tasks := state.tasks.purge clearing.clientIndex
            fun task => task.value.clientIndex = clearing.clientIndex }
      else { state with server := next }
  | none =>
      match state.server.phase with
      | .waiting => ⟨next, state.system.swap, state.tasks.swap⟩
      | .systemPackets => { state with server := next, system := state.system.iterate }
      | .packetTasks => { state with server := next, tasks := state.tasks.iterate }
      | _ => { state with server := next }

def step (state : DoubleBuffering n) : Event n → Option (DoubleBuffering n)
  | .pushSystemPacket index packetId => some (state.pushSystemPacket index packetId)
  | .setPacketData index connection data =>
      some { state with server := state.server.setPacketData index connection data }
  | .enqueuePacketData index connection => some (state.enqueuePacketData index connection)
  | .pushResponse task =>
      some { state with
        server := { state.server with mResponseTask := state.server.mResponseTask ++ [task] } }
  | .logic => (state.server.step .logic).map state.advance

/-- The system packet which the event pushes. -/
def Event.systemPacket? : Event n → Option (SystemPacket n)
  | .pushSystemPacket index packetId => some ⟨index, packetId⟩
  | _ => none

/-- The index and the connection for which the event pushes a task. -/
def Event.enqueued? : Event n → Option (Fin n × Nat)
  | .enqueuePacketData index connection => some (index, connection)
  | _ => none

/-! ## The refinement -/

/-- The server's buffers are the unprocessed parts of the vectors. -/
structure Represents (state : DoubleBuffering n) : Prop where
  systemWrite : state.server.mSystemWriteBuffer = state.system.write.map Prod.fst
  systemRead : state.server.mSystemReadBuffer = state.system.unprocessed.map Prod.fst
  write : state.server.mWriteBuffer = state.tasks.write.map Prod.fst
  read : state.server.mReadBuffer = state.tasks.unprocessed.map Prod.fst

/-- Each class of elements goes through one queue.  System packets are never erased, a task
only by `ClearConnectionInfo` for its own client index, and both read vectors are empty, with
their iterators at the start, whenever the logic thread is about to swap. -/
structure RefinesFifo (state : DoubleBuffering n) : Prop where
  represents : state.Represents
  system : state.system.Accounted
  tasks : state.tasks.Accounted
  systemKept : state.system.purged = []
  tasksPurged : ∀ erased ∈ state.tasks.purged, erased.2.1.value.clientIndex = erased.1
  systemIdle : state.server.phase ≠ .systemPackets → state.system.Idle
  tasksIdle : state.server.phase = .waiting ∨ state.server.phase = .responses → state.tasks.Idle

theorem refinesFifo_init (memory : Fin n → Bytes) : (init memory).RefinesFifo where
  represents := ⟨rfl, rfl, rfl, rfl⟩
  system := DoubleBuffer.accounted_empty
  tasks := DoubleBuffer.accounted_empty
  systemKept := rfl
  tasksPurged _ member := absurd member List.not_mem_nil
  systemIdle _ := DoubleBuffer.idle_empty
  tasksIdle _ := DoubleBuffer.idle_empty

/-! ## The vectors under a step of the logic thread -/

section Advance

variable {state : DoubleBuffering n} {next : ChatServer n}

theorem advance_swap (quiet : state.server.clearing = none)
    (phase : state.server.phase = .waiting) :
    state.advance next = ⟨next, state.system.swap, state.tasks.swap⟩ := by
  unfold advance
  rw [quiet, phase]

theorem advance_system (quiet : state.server.clearing = none)
    (phase : state.server.phase = .systemPackets) :
    state.advance next = ⟨next, state.system.iterate, state.tasks⟩ := by
  unfold advance
  rw [quiet, phase]

theorem advance_tasks (quiet : state.server.clearing = none)
    (phase : state.server.phase = .packetTasks) :
    state.advance next = ⟨next, state.system, state.tasks.iterate⟩ := by
  unfold advance
  rw [quiet, phase]

theorem advance_elsewhere (quiet : state.server.clearing = none)
    (phase : (∃ index, state.server.phase = .draining index) ∨
      state.server.phase = .responses) :
    state.advance next = ⟨next, state.system, state.tasks⟩ := by
  unfold advance
  rw [quiet]
  rcases phase with ⟨index, draining⟩ | responses
  · rw [draining]
  · rw [responses]

theorem advance_purge {clearing : Clearing n} (ongoing : state.server.clearing = some clearing)
    (stage : clearing.stage = .purge) :
    state.advance next = ⟨next, state.system, state.tasks.purge clearing.clientIndex
      fun task => task.value.clientIndex = clearing.clientIndex⟩ := by
  unfold advance
  rw [ongoing]
  exact if_pos stage

theorem advance_clearing {clearing : Clearing n}
    (ongoing : state.server.clearing = some clearing) (stage : clearing.stage ≠ .purge) :
    state.advance next = ⟨next, state.system, state.tasks⟩ := by
  unfold advance
  rw [ongoing]
  exact if_neg stage

end Advance

/-! ## The steps -/

section Steps

variable {state : DoubleBuffering n} {next : ChatServer n}

/-- A step which touches neither the buffers nor the phase. -/
theorem RefinesFifo.same (refines : state.RefinesFifo)
    (systemWrite : next.mSystemWriteBuffer = state.server.mSystemWriteBuffer)
    (systemRead : next.mSystemReadBuffer = state.server.mSystemReadBuffer)
    (write : next.mWriteBuffer = state.server.mWriteBuffer)
    (read : next.mReadBuffer = state.server.mReadBuffer)
    (systemIdle : next.phase ≠ .systemPackets → state.system.Idle)
    (tasksIdle : next.phase = .waiting ∨ next.phase = .responses → state.tasks.Idle) :
    (⟨next, state.system, state.tasks⟩ : DoubleBuffering n).RefinesFifo where
  represents := ⟨systemWrite.trans refines.represents.systemWrite,
    systemRead.trans refines.represents.systemRead, write.trans refines.represents.write,
    read.trans refines.represents.read⟩
  system := refines.system
  tasks := refines.tasks
  systemKept := refines.systemKept
  tasksPurged := refines.tasksPurged
  systemIdle := systemIdle
  tasksIdle := tasksIdle

/-- One round of the loop over the system packets. -/
theorem RefinesFifo.system_iterate (refines : state.RefinesFifo)
    (systemWrite : next.mSystemWriteBuffer = state.server.mSystemWriteBuffer)
    (systemRead : next.mSystemReadBuffer = state.system.iterate.unprocessed.map Prod.fst)
    (write : next.mWriteBuffer = state.server.mWriteBuffer)
    (read : next.mReadBuffer = state.server.mReadBuffer)
    (nextPhase : next.phase = .systemPackets ∨
      next.phase = .packetTasks ∧ state.system.iterate.Idle) :
    (⟨next, state.system.iterate, state.tasks⟩ : DoubleBuffering n).RefinesFifo where
  represents := by
    refine ⟨?_, systemRead, write.trans refines.represents.write,
      read.trans refines.represents.read⟩
    rw [(DoubleBuffer.iterate_frame state.system).2]
    exact systemWrite.trans refines.represents.systemWrite
  system := refines.system.iterate
  tasks := refines.tasks
  systemKept := (DoubleBuffer.iterate_frame state.system).1.trans refines.systemKept
  tasksPurged := refines.tasksPurged
  systemIdle other := (nextPhase.resolve_left other).2
  tasksIdle either := by
    rcases nextPhase with same | ⟨tasks, _⟩
    · rcases either with waiting | responses
      · exact nomatch same.symm.trans waiting
      · exact nomatch same.symm.trans responses
    · rcases either with waiting | responses
      · exact nomatch tasks.symm.trans waiting
      · exact nomatch tasks.symm.trans responses

/-- One round of the loop over the tasks. -/
theorem RefinesFifo.tasks_iterate (refines : state.RefinesFifo)
    (phase : state.server.phase = .packetTasks)
    (systemWrite : next.mSystemWriteBuffer = state.server.mSystemWriteBuffer)
    (systemRead : next.mSystemReadBuffer = state.server.mSystemReadBuffer)
    (write : next.mWriteBuffer = state.server.mWriteBuffer)
    (read : next.mReadBuffer = state.tasks.iterate.unprocessed.map Prod.fst)
    (tasksIdle : next.phase = .waiting ∨ next.phase = .responses → state.tasks.iterate.Idle) :
    (⟨next, state.system, state.tasks.iterate⟩ : DoubleBuffering n).RefinesFifo where
  represents := by
    refine ⟨systemWrite.trans refines.represents.systemWrite,
      systemRead.trans refines.represents.systemRead, ?_, read⟩
    rw [(DoubleBuffer.iterate_frame state.tasks).2]
    exact write.trans refines.represents.write
  system := refines.system
  tasks := refines.tasks.iterate
  systemKept := refines.systemKept
  tasksPurged := by
    rw [(DoubleBuffer.iterate_frame state.tasks).1]
    exact refines.tasksPurged
  systemIdle _ := refines.systemIdle fun other => nomatch phase.symm.trans other
  tasksIdle := tasksIdle

/-- The purge of `ClearConnectionInfo`. -/
theorem RefinesFifo.purge (refines : state.RefinesFifo) (clearing : Clearing n) :
    (⟨state.server.purge clearing, state.system,
      state.tasks.purge clearing.clientIndex fun task =>
        task.value.clientIndex = clearing.clientIndex⟩ : DoubleBuffering n).RefinesFifo where
  represents := by
    refine ⟨refines.represents.systemWrite, refines.represents.systemRead, ?_,
      refines.represents.read⟩
    have kept : (state.server.purge clearing).mWriteBuffer = state.server.mWriteBuffer.filter
      (·.value.clientIndex ≠ clearing.clientIndex) := rfl
    rw [kept, refines.represents.write, DoubleBuffer.map_write_purge]
    simp
  system := refines.system
  tasks := DoubleBuffer.Accounted.purge refines.tasks clearing.clientIndex
    fun task => task.value.clientIndex = clearing.clientIndex
  systemKept := refines.systemKept
  tasksPurged erased member := by
    rcases List.mem_append.mp member with before | now
    · exact refines.tasksPurged erased before
    · obtain ⟨entry, hit, rfl⟩ := List.mem_map.mp now
      exact of_decide_eq_true (List.mem_filter.mp hit).2
  systemIdle := refines.systemIdle
  tasksIdle either := ⟨(refines.tasksIdle either).read, (refines.tasksIdle either).position⟩

/-- Both pairs of vectors are swapped; the read vectors were empty. -/
theorem RefinesFifo.swap (refines : state.RefinesFifo) (phase : state.server.phase = .waiting) :
    (⟨state.server.swap, state.system.swap, state.tasks.swap⟩ : DoubleBuffering n).RefinesFifo := by
  have systemIdle := refines.systemIdle fun other => nomatch phase.symm.trans other
  have tasksIdle := refines.tasksIdle (Or.inl phase)
  have read {Element Cause : Type} {buffer : DoubleBuffer Element Cause} (idle : buffer.Idle) :
      buffer.swap.write.map Prod.fst = buffer.unprocessed.map Prod.fst ∧
        buffer.swap.unprocessed.map Prod.fst = buffer.write.map Prod.fst := by
    rw [idle.unprocessed]
    unfold DoubleBuffer.unprocessed DoubleBuffer.swap
    rw [idle.read, idle.position]
    exact ⟨rfl, rfl⟩
  constructor
  case represents =>
    exact ⟨refines.represents.systemRead.trans (read systemIdle).1.symm,
      refines.represents.systemWrite.trans (read systemIdle).2.symm,
      refines.represents.read.trans (read tasksIdle).1.symm,
      refines.represents.write.trans (read tasksIdle).2.symm⟩
  case system => exact refines.system.swap systemIdle
  case tasks => exact refines.tasks.swap tasksIdle
  case systemKept => exact refines.systemKept
  case tasksPurged => exact refines.tasksPurged
  case systemIdle => exact fun other => absurd rfl other
  case tasksIdle => exact fun either => by rcases either with other | other <;> cases other

theorem refinesFifo_logic (refines : state.RefinesFifo)
    (taken : state.server.step .logic = some next) : (state.advance next).RefinesFifo := by
  have systemIdle (other : state.server.phase ≠ .systemPackets) := refines.systemIdle other
  cases ChatServer.step_cases taken with
  | purge clearing ongoing stage =>
      rw [advance_purge ongoing stage]
      exact refines.purge clearing
  | keepSlot clearing ongoing stage idle =>
      rw [advance_clearing ongoing (by rw [stage]; decide)]
      exact refines.same rfl rfl rfl rfl systemIdle refines.tasksIdle
  | clear clearing ongoing stage active =>
      rw [advance_clearing ongoing (by rw [stage]; decide)]
      exact refines.same rfl rfl rfl rfl systemIdle refines.tasksIdle
  | incrementGeneration clearing ongoing stage =>
      rw [advance_clearing ongoing (by rw [stage]; decide)]
      exact refines.same rfl rfl rfl rfl systemIdle refines.tasksIdle
  | swap quiet phase =>
      rw [advance_swap quiet phase]
      exact refines.swap phase
  | nextPhase after quiet done =>
      cases done with
      | systemPackets phase empty =>
          obtain ⟨idle, left⟩ :=
            DoubleBuffer.iterate_done (empty.symm.trans refines.represents.systemRead)
          rw [advance_system quiet phase]
          exact refines.system_iterate rfl (empty.trans left) rfl rfl (Or.inr ⟨rfl, idle⟩)
      | packetTasks phase empty =>
          obtain ⟨idle, left⟩ :=
            DoubleBuffer.iterate_done (empty.symm.trans refines.represents.read)
          rw [advance_tasks quiet phase]
          exact refines.tasks_iterate phase rfl rfl rfl (empty.trans left) fun _ => idle
      | responses phase =>
          rw [advance_elsewhere quiet (Or.inr phase)]
          exact refines.same rfl rfl rfl rfl
            (fun _ => refines.systemIdle fun other => nomatch phase.symm.trans other)
            fun _ => refines.tasksIdle (Or.inr phase)
  | systemPacket packet rest after quiet phase front received =>
      have left := DoubleBuffer.iterate_front (front.symm.trans refines.represents.systemRead)
      rw [advance_system quiet phase]
      exact refines.system_iterate received.systemWrite (received.systemRead.trans left)
        received.write received.read (Or.inl (received.phase.trans phase))
  | drainTask task rest quiet phase front current =>
      have left := DoubleBuffer.iterate_front (front.symm.trans refines.represents.read)
      rw [advance_tasks quiet phase]
      refine refines.tasks_iterate phase rfl rfl rfl left fun either => ?_
      rcases either with other | other <;> cases other
  | skipTask task rest quiet phase front stale =>
      have left := DoubleBuffer.iterate_front (front.symm.trans refines.represents.read)
      rw [advance_tasks quiet phase]
      refine refines.tasks_iterate phase rfl rfl rfl left fun either => ?_
      rcases either with other | other
      · exact nomatch phase.symm.trans other
      · exact nomatch phase.symm.trans other
  | drained index quiet phase nothing =>
      rw [advance_elsewhere quiet (Or.inl ⟨index, phase⟩)]
      refine refines.same rfl rfl rfl rfl
        (fun _ => refines.systemIdle fun other => nomatch phase.symm.trans other) fun either => ?_
      rcases either with other | other <;> cases other
  | dispatch index after quiet phase some received =>
      have same := received.phase.trans phase
      rw [advance_elsewhere quiet (Or.inl ⟨index, phase⟩)]
      refine refines.same received.systemWrite received.systemRead received.write received.read
        (fun _ => refines.systemIdle fun other => nomatch phase.symm.trans other) fun either => ?_
      rcases either with other | other
      · exact nomatch same.symm.trans other
      · exact nomatch same.symm.trans other
  | dropResponse task rest quiet phase front =>
      rw [advance_elsewhere quiet (Or.inr phase)]
      exact refines.same rfl rfl rfl rfl
        (fun _ => refines.systemIdle fun other => nomatch phase.symm.trans other)
        fun _ => refines.tasksIdle (Or.inr phase)
  | response task rest after quiet phase front received =>
      rw [advance_elsewhere quiet (Or.inr phase)]
      exact refines.same received.systemWrite received.systemRead received.write received.read
        (fun _ => refines.systemIdle fun other => nomatch phase.symm.trans other)
        fun _ => refines.tasksIdle (Or.inr phase)

theorem RefinesFifo.pushSystemPacket (refines : state.RefinesFifo) (index : Fin n)
    (packetId : PacketId) : (state.pushSystemPacket index packetId).RefinesFifo where
  represents := by
    refine ⟨?_, refines.represents.systemRead, refines.represents.write,
      refines.represents.read⟩
    have added : (state.pushSystemPacket index packetId).server.mSystemWriteBuffer =
      state.server.mSystemWriteBuffer ++ [⟨⟨index, packetId⟩, state.server.connection index⟩] := rfl
    rw [added, refines.represents.systemWrite]
    exact (DoubleBuffer.map_write_push state.system _).symm
  system := refines.system.push _
  tasks := refines.tasks
  systemKept := refines.systemKept
  tasksPurged := refines.tasksPurged
  systemIdle other := ⟨(refines.systemIdle other).read, (refines.systemIdle other).position⟩
  tasksIdle := refines.tasksIdle

theorem RefinesFifo.enqueuePacketData (refines : state.RefinesFifo) (index : Fin n)
    (connection : Nat) : (state.enqueuePacketData index connection).RefinesFifo where
  represents := by
    refine ⟨refines.represents.systemWrite, refines.represents.systemRead, ?_,
      refines.represents.read⟩
    have added : (state.enqueuePacketData index connection).server.mWriteBuffer =
      state.server.mWriteBuffer ++
        [⟨⟨index, (state.server.user index).mGeneration⟩, connection⟩] := rfl
    rw [added, refines.represents.write]
    exact (DoubleBuffer.map_write_push state.tasks _).symm
  system := refines.system
  tasks := refines.tasks.push _
  systemKept := refines.systemKept
  tasksPurged := refines.tasksPurged
  systemIdle := refines.systemIdle
  tasksIdle either := ⟨(refines.tasksIdle either).read, (refines.tasksIdle either).position⟩

theorem refinesFifo_step {next : DoubleBuffering n} {event : Event n}
    (refines : state.RefinesFifo) (taken : state.step event = some next) : next.RefinesFifo := by
  cases event with
  | pushSystemPacket index packetId =>
      cases taken
      exact refines.pushSystemPacket index packetId
  | setPacketData index connection data =>
      cases taken
      exact refines.same rfl rfl rfl rfl refines.systemIdle refines.tasksIdle
  | enqueuePacketData index connection =>
      cases taken
      exact refines.enqueuePacketData index connection
  | pushResponse task =>
      cases taken
      exact refines.same rfl rfl rfl rfl refines.systemIdle refines.tasksIdle
  | logic =>
      obtain ⟨server, ran, rfl⟩ := Option.map_eq_some_iff.mp taken
      exact refinesFifo_logic refines ran

end Steps

/-! ## What a step adds to the histories -/

/-- The system packet which the next round of the first loop takes. -/
def systemPacket? (server : ChatServer n) : Option (Tagged (SystemPacket n)) :=
  match server.clearing, server.phase with
  | none, .systemPackets => server.mSystemReadBuffer.head?
  | _, _ => none

/-- The task which the next round of the second loop takes. -/
def packetTask? (server : ChatServer n) : Option (Tagged (PacketTask n)) :=
  match server.clearing, server.phase with
  | none, .packetTasks => server.mReadBuffer.head?
  | _, _ => none

/-- The tasks which the next step of `ClearConnectionInfo` erases, with its client index. -/
def erasedTasks (server : ChatServer n) : List (Fin n × Tagged (PacketTask n)) :=
  match server.clearing with
  | some clearing =>
      if clearing.stage = .purge then
        (server.mWriteBuffer.filter (·.value.clientIndex = clearing.clientIndex)).map
          (Prod.mk clearing.clientIndex)
      else []
  | none => []

/-- A push adds what it pushes, with the generation which the slot has.  A step of the logic
thread adds the system packet with which it calls `ProcessRecvPacket`, the task whose slot it
drains unless the generation is another, and the tasks which `ClearConnectionInfo` erases. -/
structure Records (state : DoubleBuffering n) (event : Event n) (next : DoubleBuffering n) :
    Prop where
  systemPushed : next.system.pushed = state.system.pushed ++
    (event.systemPacket?.map fun packet =>
      ⟨packet, state.server.connection packet.clientIndex⟩).toList
  tasksPushed : next.tasks.pushed = state.tasks.pushed ++
    (event.enqueued?.map fun (index, connection) =>
      ⟨⟨index, (state.server.user index).mGeneration⟩, connection⟩).toList
  systemProcessed : next.system.processed.map Prod.fst = state.system.processed.map Prod.fst ++
    if event = .logic then (systemPacket? state.server).toList else []
  tasksProcessed : next.tasks.processed.map Prod.fst = state.tasks.processed.map Prod.fst ++
    if event = .logic then (packetTask? state.server).toList else []
  tasksPurged : next.tasks.purged.map (fun erased => (erased.1, erased.2.1)) =
    state.tasks.purged.map (fun erased => (erased.1, erased.2.1)) ++
      if event = .logic then erasedTasks state.server else []
  received : event = .logic → ∀ packet, systemPacket? state.server = some packet →
    { state.server with
      mSystemReadBuffer := state.server.mSystemReadBuffer.tail }.processRecvPacket
        packet.value.clientIndex packet.value.packetId.code 0 [] packet.connection true =
          some next.server
  drained : event = .logic → ∀ task, packetTask? state.server = some task →
    next.server.mReadBuffer = state.server.mReadBuffer.tail ∧
      next.server.phase =
        if (state.server.user task.value.clientIndex).mGeneration = task.value.generation then
          .draining task.value.clientIndex
        else .packetTasks

section Records

variable {state next : DoubleBuffering n} {server : ChatServer n}

/-- A step of the logic thread which takes and erases nothing. -/
theorem records_elsewhere
    (system : next.system.pushed = state.system.pushed ∧
      next.system.processed = state.system.processed)
    (tasks : next.tasks.pushed = state.tasks.pushed ∧
      next.tasks.processed = state.tasks.processed ∧ next.tasks.purged = state.tasks.purged)
    (noPacket : systemPacket? state.server = none) (noTask : packetTask? state.server = none)
    (nothing : erasedTasks state.server = []) : state.Records .logic next where
  systemPushed := system.1.trans (List.append_nil _).symm
  tasksPushed := tasks.1.trans (List.append_nil _).symm
  systemProcessed := by
    rw [if_pos rfl, noPacket, Option.toList_none, List.append_nil, system.2]
  tasksProcessed := by
    rw [if_pos rfl, noTask, Option.toList_none, List.append_nil, tasks.2.1]
  tasksPurged := by rw [if_pos rfl, nothing, List.append_nil, tasks.2.2]
  received _ _ some := nomatch noPacket.symm.trans some
  drained _ _ some := nomatch noTask.symm.trans some

theorem RefinesFifo.records_purge (refines : state.RefinesFifo) {clearing : Clearing n}
    (ongoing : state.server.clearing = some clearing) (stage : clearing.stage = .purge) :
    state.Records .logic ⟨server, state.system, state.tasks.purge clearing.clientIndex
      fun task => task.value.clientIndex = clearing.clientIndex⟩ where
  systemPushed := (List.append_nil _).symm
  tasksPushed := (List.append_nil _).symm
  systemProcessed := by simp [systemPacket?, ongoing]
  tasksProcessed := by
    simp only [packetTask?, ongoing, Option.toList_none, ite_self, List.append_nil]
    rfl
  tasksPurged := by
    rw [DoubleBuffer.map_purged_purge, if_pos rfl, erasedTasks, ongoing]
    dsimp only
    rw [if_pos stage, refines.represents.write]
  received _ _ some := by simp [systemPacket?, ongoing] at some
  drained _ _ some := by simp [packetTask?, ongoing] at some

theorem RefinesFifo.records_system (refines : state.RefinesFifo)
    (quiet : state.server.clearing = none) (phase : state.server.phase = .systemPackets)
    (taken : state.server.step .logic = some server) :
    state.Records .logic ⟨server, state.system.iterate, state.tasks⟩ where
  systemPushed := by
    rw [DoubleBuffer.pushed_iterate]
    exact (List.append_nil _).symm
  tasksPushed := (List.append_nil _).symm
  systemProcessed := by
    rw [DoubleBuffer.map_processed_iterate, if_pos rfl, ← refines.represents.systemRead]
    simp [systemPacket?, quiet, phase]
  tasksProcessed := by simp [packetTask?, quiet, phase]
  tasksPurged := by simp [erasedTasks, quiet]
  received _ packet some := by
    simp only [systemPacket?, quiet, phase] at some
    obtain ⟨rest, front⟩ := List.head?_eq_some_iff.mp some
    rw [front, List.tail_cons]
    simpa only [ChatServer.step, ChatServer.logicStep, ChatServer.processPacket, quiet, phase,
      front] using taken
  drained _ _ some := by simp [packetTask?, quiet, phase] at some

theorem RefinesFifo.records_tasks (refines : state.RefinesFifo)
    (quiet : state.server.clearing = none) (phase : state.server.phase = .packetTasks)
    (taken : state.server.step .logic = some server) :
    state.Records .logic ⟨server, state.system, state.tasks.iterate⟩ where
  systemPushed := (List.append_nil _).symm
  tasksPushed := by
    rw [DoubleBuffer.pushed_iterate]
    exact (List.append_nil _).symm
  systemProcessed := by simp [systemPacket?, quiet, phase]
  tasksProcessed := by
    rw [DoubleBuffer.map_processed_iterate, if_pos rfl, ← refines.represents.read]
    simp [packetTask?, quiet, phase]
  tasksPurged := by
    rw [(DoubleBuffer.iterate_frame state.tasks).1]
    simp [erasedTasks, quiet]
  received _ _ some := by simp [systemPacket?, quiet, phase] at some
  drained _ task some := by
    simp only [packetTask?, quiet, phase] at some
    obtain ⟨rest, front⟩ := List.head?_eq_some_iff.mp some
    simp only [ChatServer.step, ChatServer.logicStep, ChatServer.processPacket, quiet, phase,
      front] at taken
    rw [front, List.tail_cons]
    split at taken
    · rename_i current
      cases taken
      exact ⟨rfl, (if_pos current).symm⟩
    · rename_i stale
      cases taken
      exact ⟨rfl, (if_neg stale).symm⟩

theorem RefinesFifo.records_logic (refines : state.RefinesFifo)
    (taken : state.server.step .logic = some server) :
    state.Records .logic (state.advance server) := by
  cases ongoing : state.server.clearing with
  | some clearing =>
      by_cases stage : clearing.stage = .purge
      · rw [advance_purge ongoing stage]
        exact refines.records_purge ongoing stage
      · rw [advance_clearing ongoing stage]
        refine records_elsewhere ⟨rfl, rfl⟩ ⟨rfl, rfl, rfl⟩ ?_ ?_ ?_
        · rw [systemPacket?, ongoing]
        · rw [packetTask?, ongoing]
        · rw [erasedTasks, ongoing]
          exact if_neg stage
  | none =>
      have nothing : erasedTasks state.server = [] := by rw [erasedTasks, ongoing]
      cases phase : state.server.phase with
      | waiting =>
          rw [advance_swap ongoing phase]
          refine records_elsewhere ⟨rfl, rfl⟩ ⟨rfl, rfl, rfl⟩ ?_ ?_ nothing
          · rw [systemPacket?, ongoing, phase]
          · rw [packetTask?, ongoing, phase]
      | systemPackets =>
          rw [advance_system ongoing phase]
          exact refines.records_system ongoing phase taken
      | packetTasks =>
          rw [advance_tasks ongoing phase]
          exact refines.records_tasks ongoing phase taken
      | draining index =>
          rw [advance_elsewhere ongoing (Or.inl ⟨index, phase⟩)]
          refine records_elsewhere ⟨rfl, rfl⟩ ⟨rfl, rfl, rfl⟩ ?_ ?_ nothing
          · rw [systemPacket?, ongoing, phase]
          · rw [packetTask?, ongoing, phase]
      | responses =>
          rw [advance_elsewhere ongoing (Or.inr phase)]
          refine records_elsewhere ⟨rfl, rfl⟩ ⟨rfl, rfl, rfl⟩ ?_ ?_ nothing
          · rw [systemPacket?, ongoing, phase]
          · rw [packetTask?, ongoing, phase]

/-- A step of another thread. -/
theorem records_push {event : Event n} (other : event ≠ .logic)
    (systemPushed : next.system.pushed = state.system.pushed ++
      (event.systemPacket?.map fun packet =>
        ⟨packet, state.server.connection packet.clientIndex⟩).toList)
    (tasksPushed : next.tasks.pushed = state.tasks.pushed ++
      (event.enqueued?.map fun (index, connection) =>
        ⟨⟨index, (state.server.user index).mGeneration⟩, connection⟩).toList)
    (system : next.system.processed = state.system.processed)
    (tasks : next.tasks.processed = state.tasks.processed ∧
      next.tasks.purged = state.tasks.purged) : state.Records event next where
  systemPushed := systemPushed
  tasksPushed := tasksPushed
  systemProcessed := by rw [if_neg other, List.append_nil, system]
  tasksProcessed := by rw [if_neg other, List.append_nil, tasks.1]
  tasksPurged := by rw [if_neg other, List.append_nil, tasks.2]
  received logic := absurd logic other
  drained logic := absurd logic other

/-- Every step adds to the histories what it does. -/
theorem RefinesFifo.records {event : Event n} (refines : state.RefinesFifo)
    (taken : state.step event = some next) : state.Records event next := by
  have none {Element : Type} (pushed : List Element) : pushed = pushed ++ [] :=
    (List.append_nil pushed).symm
  cases event with
  | pushSystemPacket index packetId =>
      cases taken
      exact records_push (by simp) rfl (none _) rfl ⟨rfl, rfl⟩
  | setPacketData index connection data =>
      cases taken
      exact records_push (by simp) (none _) (none _) rfl ⟨rfl, rfl⟩
  | enqueuePacketData index connection =>
      cases taken
      exact records_push (by simp) (none _) rfl rfl ⟨rfl, rfl⟩
  | pushResponse task =>
      cases taken
      exact records_push (by simp) (none _) (none _) rfl ⟨rfl, rfl⟩
  | logic =>
      obtain ⟨server, ran, rfl⟩ := Option.map_eq_some_iff.mp taken
      exact refines.records_logic ran

end Records

/-! ## Runs -/

/-- The double buffers, in terms of single elements: where each pushed element is, in which
order elements are processed, and that a swap finds both read vectors empty. -/
structure FifoPerClass (state : DoubleBuffering n) : Prop where
  represents : state.Represents
  system : ∀ number < state.system.pushed.length,
    (state.system.write.map Prod.snd).count number +
      (state.system.unprocessed.map Prod.snd).count number +
      (state.system.processed.map Prod.snd).count number = 1
  tasks : ∀ number < state.tasks.pushed.length,
    (state.tasks.write.map Prod.snd).count number +
      (state.tasks.unprocessed.map Prod.snd).count number +
      (state.tasks.processed.map Prod.snd).count number +
      (state.tasks.purged.map fun erased => erased.2.2).count number = 1
  systemPushed : ∀ entry ∈ state.system.line, state.system.pushed[entry.2]? = some entry.1
  tasksPushed : ∀ entry ∈ state.tasks.line ++ state.tasks.purged.map Prod.snd,
    state.tasks.pushed[entry.2]? = some entry.1
  ownPurge : ∀ erased ∈ state.tasks.purged, erased.2.1.value.clientIndex = erased.1
  systemOrdered : (state.system.line.map Prod.snd).Pairwise (· < ·)
  tasksOrdered : (state.tasks.line.map Prod.snd).Pairwise (· < ·)
  swapped : state.server.phase = .waiting → state.system.read = [] ∧ state.tasks.read = []

theorem RefinesFifo.fifoPerClass {state : DoubleBuffering n} (refines : state.RefinesFifo) :
    state.FifoPerClass where
  represents := refines.represents
  system number pushed := by
    have once := refines.system.exactly_once pushed
    rw [refines.systemKept] at once
    simp only [List.map_nil, List.count_nil] at once
    omega
  tasks number pushed := by
    have once := refines.tasks.exactly_once pushed
    omega
  systemPushed entry := refines.system.mem_line
  tasksPushed entry member := refines.tasks.pushed_of_mem member
  ownPurge := refines.tasksPurged
  systemOrdered := refines.system.ordered
  tasksOrdered := refines.tasks.ordered
  swapped waiting := ⟨(refines.systemIdle fun other => nomatch waiting.symm.trans other).read,
    (refines.tasksIdle (Or.inl waiting)).read⟩

/-- What was pushed in a run is what its events push, in their order. -/
structure PushedBy (state : DoubleBuffering n) (events : List (Event n)) : Prop where
  system : state.system.pushed.map Tagged.value = events.filterMap Event.systemPacket?
  tasks : state.tasks.pushed.map (fun task => (task.value.clientIndex, task.connection)) =
    events.filterMap Event.enqueued?

theorem pushedBy_of_run? {memory : Fin n → Bytes} {events : List (Event n)}
    {last : DoubleBuffering n}
    (completed : Execution.run? step (init memory) events = some last) :
    last.PushedBy events := by
  have preserved (state : DoubleBuffering n) (event : Event n) (next : DoubleBuffering n)
      (refines : state.RefinesFifo) (taken : state.step event = some next) : next.RefinesFifo :=
    refinesFifo_step refines taken
  constructor
  case system =>
    have grows (state : DoubleBuffering n) (event : Event n) (next : DoubleBuffering n)
        (refines : state.RefinesFifo) (taken : state.step event = some next) :
        next.system.pushed.map Tagged.value =
          state.system.pushed.map Tagged.value ++ event.systemPacket?.toList := by
      rw [(refines.records taken).systemPushed, List.map_append]
      cases event.systemPacket? with
      | none => rfl
      | some packet => rfl
    exact Execution.history_of_run? preserved grows (refinesFifo_init memory) completed
  case tasks =>
    have grows (state : DoubleBuffering n) (event : Event n) (next : DoubleBuffering n)
        (refines : state.RefinesFifo) (taken : state.step event = some next) :
        next.tasks.pushed.map (fun task => (task.value.clientIndex, task.connection)) =
          state.tasks.pushed.map (fun task => (task.value.clientIndex, task.connection)) ++
            event.enqueued?.toList := by
      rw [(refines.records taken).tasksPushed, List.map_append]
      cases event.enqueued? with
      | none => rfl
      | some task => rfl
    exact Execution.history_of_run? preserved grows (refinesFifo_init memory) completed

/--
In every state of every run each pushed system packet is in the write vector, in the
unprocessed rest of the read vector or processed, and only one of these; each pushed task is
in one of these or was erased by `ClearConnectionInfo` for its own index; both classes are
processed in the order of the pushes, and the vectors which are swapped with the write
vectors are empty.  What the histories call pushed, processed and erased is what the steps of
the run push, hand to `ProcessRecvPacket` or drain, and erase.
-/
theorem always_fifoPerClass (memory : Fin n → Bytes) (events : List (Event n)) :
    Execution.Always step FifoPerClass (init memory) events ∧
      Execution.Throughout step
        (fun state event => ∀ next, state.step event = some next → state.Records event next)
        (init memory) events ∧
      ∀ last, Execution.run? step (init memory) events = some last → last.PushedBy events := by
  have preserved (state : DoubleBuffering n) (event : Event n) (next : DoubleBuffering n)
      (refines : state.RefinesFifo) (taken : state.step event = some next) : next.RefinesFifo :=
    refinesFifo_step refines taken
  have initially := refinesFifo_init memory
  have always := Execution.always_of_invariant preserved initially events
  have throughout := Execution.throughout_of_invariant preserved
    (fun state event refines next (taken : state.step event = some next) =>
      refines.records taken) initially events
  exact ⟨always.mono fun _ refines => refines.fifoPerClass, throughout,
    fun last completed => pushedBy_of_run? completed⟩

/-- A client connects and sends; while its batch is processed another one sends and leaves.
The task in the write vector is erased, that in the read vector is processed. -/
def leaveWhileProcessing : List (Event 2) :=
  [.pushSystemPacket 0 .sysUserConnect, .enqueuePacketData 0 1, .logic,
    .enqueuePacketData 1 1, .pushSystemPacket 1 .sysUserDisconnect,
    .logic, .logic, .logic, .logic, .logic, .logic,
    .logic, .enqueuePacketData 1 1, .enqueuePacketData 0 1, .logic, .logic, .logic,
    .logic, .logic]

theorem always_fifoPerClass_leaveWhileProcessing :
    (Execution.run? step (init fun _ => []) leaveWhileProcessing).map (fun last =>
        (last.system.processed, last.tasks.processed.map fun entry =>
          (entry.1.value.clientIndex, entry.2))) =
      some ([(⟨⟨0, .sysUserConnect⟩, 0⟩, 0), (⟨⟨1, .sysUserDisconnect⟩, 0⟩, 1)],
        [(0, 0), (1, 1)]) ∧
    (Execution.run? step (init fun _ => []) leaveWhileProcessing).map (fun last =>
        (last.tasks.purged.map fun erased => (erased.1, erased.2.2),
          last.server.mWriteBuffer.map fun task => task.value.clientIndex)) =
      some ([(1, 2)], [0]) ∧
    ∀ last, Execution.run? step (init fun _ => []) leaveWhileProcessing = some last →
      last.FifoPerClass ∧ last.PushedBy leaveWhileProcessing := by
  obtain ⟨always, _, pushed⟩ := always_fifoPerClass (fun _ => []) leaveWhileProcessing
  refine ⟨by decide +kernel, by decide +kernel, fun last completed => ?_⟩
  exact ⟨always.last completed, pushed last completed⟩

end DoubleBuffering

end IOCPChatServer

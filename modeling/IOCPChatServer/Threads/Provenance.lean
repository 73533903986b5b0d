import IOCPChatServer.Threads.Mailboxes

/-!
# Where tasks, bytes and disconnects come from

Every task, every byte in a ring and every byte of a dispatched packet belongs to a
connection for which `SetPacketData` was called on the index; every disconnect which is
queued or being processed belongs to an earlier connection of the index, or to the present
one once it is closed.
-/

namespace IOCPChatServer

namespace ChatServer

open Execution

variable {n : Nat}

/-- The connections for which `SetPacketData` was called on the index, one for each call. -/
def writers (index : Fin n) (trace : List (Observation n)) : List Nat :=
  trace.filterMap fun
    | .written slot connection _ _ => if slot = index then some connection else none
    | _ => none

theorem mem_writers {index : Fin n} {connection : Nat} {trace : List (Observation n)} :
    connection ∈ writers index trace ↔
      ∃ data count, .written index connection data count ∈ trace := by
  constructor
  · intro member
    obtain ⟨observation, observed, writes⟩ := List.mem_filterMap.mp member
    cases observation with
    | written slot sender data count =>
        dsimp only at writes
        split at writes
        · rename_i same
          cases same
          cases writes
          exact ⟨data, count, observed⟩
        · cases writes
    | _ => cases writes
  · rintro ⟨data, count, observed⟩
    exact List.mem_filterMap.mpr ⟨_, observed, if_pos rfl⟩

theorem writers_append (index : Fin n) (first second : List (Observation n)) :
    writers index (first ++ second) = writers index first ++ writers index second :=
  List.filterMap_append ..

/-! ## What a step observes -/

/-- The circumstances in which an observation is made. -/
def Observes (server : ChatServer n) (event : Event n) : Observation n → Prop
  | .written index connection data count =>
      event = .setPacketData index connection ∧
        server.receiving index connection = some (.received data) ∧
        count = ((server.user index).mPacketDataBuffer.write data).1
  | .skipped index connection => ∃ task ∈ server.mReadBuffer,
      task.value.clientIndex = index ∧ task.connection = connection ∧
        task.value.generation ≠ (server.user index).mGeneration
  | .purged index cause fromSystem connections =>
      server.clearing = some ⟨index, cause, fromSystem, .purge⟩ ∧
        ∀ connection ∈ connections, ∃ task ∈ server.mWriteBuffer,
          task.value.clientIndex = index ∧ task.connection = connection
  | .cleared index cause fromSystem connections =>
      event = .logic ∧ server.clearing = some ⟨index, cause, fromSystem, .clear⟩ ∧
        (server.user index).mCurDomainState ≠ .none ∧
          connections = server.byteConnections index
  | .dispatched index _ connections => connections = server.packetConnections index
  | _ => True

/-- The history after a step, and why it was extended. -/
def Extends (server : ChatServer n) (event : Event n) (next : ChatServer n) : Prop :=
  ∃ added, next.trace = server.trace ++ added ∧
    ∀ observation ∈ added, server.Observes event observation

theorem extends_nil {server next : ChatServer n} {event : Event n}
    (trace : next.trace = server.trace) : server.Extends event next :=
  ⟨[], trace.trans (List.append_nil _).symm, fun _ member => absurd member List.not_mem_nil⟩

theorem extends_one {server next : ChatServer n} {event : Event n}
    {observation : Observation n} (trace : next.trace = server.trace ++ [observation])
    (observes : server.Observes event observation) : server.Extends event next :=
  ⟨[observation], trace, fun _ member => List.mem_singleton.mp member ▸ observes⟩

theorem Extends.endClearing {server next : ChatServer n} {event : Event n}
    (extended : server.Extends event next) (clearing : Clearing n) :
    server.Extends event (next.endClearing clearing) := by
  obtain ⟨added, trace, observes⟩ := extended
  unfold ChatServer.endClearing
  rw [trace]
  refine ⟨_, List.append_assoc .., fun observation member => ?_⟩
  rcases List.mem_append.mp member with old | new
  · exact observes observation old
  · rw [ended_eq new]
    trivial

theorem Received.extends {server before after : ChatServer n} {event : Event n}
    {index : Fin n} {packetId packetSize : Nat} {pPacket : Bytes} {connection : Nat}
    {fromSystem : Bool}
    (received : before.Received index packetId packetSize pPacket connection fromSystem after)
    (extended : server.Extends event before) : server.Extends event after := by
  obtain ⟨added, trace, observes⟩ := extended
  exact ⟨added, received.trace_eq.trans trace, observes⟩

theorem step_extends {server next : ChatServer n} {event : Event n}
    (taken : server.step event = some next) : server.Extends event next := by
  cases step_cases taken with
  | setPacketData index connection data given => exact extends_one rfl ⟨rfl, given, rfl⟩
  | purge clearing ongoing stage =>
      refine extends_one rfl ⟨?_, fun connection member => ?_⟩
      · rw [ongoing, ← stage]
      · obtain ⟨task, purged, same⟩ := List.mem_map.mp member
        obtain ⟨queued, own⟩ := List.mem_filter.mp purged
        exact ⟨task, queued, of_decide_eq_true own, same⟩
  | keepSlot clearing ongoing stage state =>
      refine Extends.endClearing ?_ clearing
      exact extends_nil rfl
  | clear clearing ongoing stage state =>
      refine extends_one rfl ⟨rfl, ?_, state, rfl⟩
      rw [ongoing, ← stage]
  | incrementGeneration clearing ongoing stage =>
      refine Extends.endClearing ?_ clearing
      exact extends_one rfl trivial
  | systemPacket packet rest after quiet phase front received =>
      exact received.extends (extends_nil rfl)
  | skipTask task rest quiet phase front stale =>
      have queued : task ∈ server.mReadBuffer := front ▸ List.mem_cons_self
      exact extends_one rfl ⟨task, queued, rfl, rfl, stale.symm⟩
  | dispatch index after quiet phase some received => exact received.extends (extends_one rfl rfl)
  | response task rest after quiet phase front received =>
      exact received.extends (extends_one rfl trivial)
  | _ => exact extends_nil rfl

/-! ## Disconnects under way -/

/-- The disconnect of the connection is queued or being processed. -/
def Pending (server : ChatServer n) (index : Fin n) (connection : Nat) : Prop :=
  ⟨⟨index, .sysUserDisconnect⟩, connection⟩ ∈
      server.mSystemWriteBuffer ++ server.mSystemReadBuffer ∨
    ∃ stage, server.clearing = some ⟨index, connection, true, stage⟩

/-- The next packet of the slot is a disconnect which the drain loop hands over. -/
structure Forges (server : ChatServer n) (index : Fin n) : Prop where
  phase : server.phase = .draining index
  packet : (server.packet index).PacketId ≠ 0
  found : PacketManager.findHandler (server.packet index).PacketId =
    some .processUserDisconnect

/-- Where a call of `ClearConnectionInfo` comes from which has not returned. -/
inductive ClearingCase (server : ChatServer n) (event : Event n) (clearing : Clearing n) :
    Prop where
  | ongoing (same : server.clearing = some clearing)
  | purged (before : server.clearing = some { clearing with stage := .purge })
      (stage : clearing.stage = .clear)
  | cleared (event : event = .logic)
      (before : server.clearing = some { clearing with stage := .clear })
      (state : (server.user clearing.clientIndex).mCurDomainState ≠ .none)
      (stage : clearing.stage = .incrementGeneration)
  | queued (fromSystem : clearing.fromSystem = true) (stage : clearing.stage = .purge)
      (front : ⟨⟨clearing.clientIndex, .sysUserDisconnect⟩, clearing.connection⟩ ∈
        server.mSystemReadBuffer)
  | forged (event : event = .logic) (fromSystem : clearing.fromSystem = false)
      (stage : clearing.stage = .purge) (forges : server.Forges clearing.clientIndex)
      (sender : clearing.connection = server.sender clearing.clientIndex)

theorem step_clearing {server next : ChatServer n} {event : Event n} {clearing : Clearing n}
    (taken : server.step event = some next) (processing : next.clearing = some clearing) :
    server.ClearingCase event clearing := by
  cases step_cases taken with
  | purge current ongoing stage =>
      cases processing
      refine .purged ?_ rfl
      rw [ongoing, ← stage]
  | clear current ongoing stage state =>
      cases processing
      refine .cleared rfl ?_ state rfl
      rw [ongoing, ← stage]
  | keepSlot current ongoing stage state => cases processing
  | incrementGeneration current ongoing stage => cases processing
  | systemPacket packet rest after quiet phase front received =>
      cases received with
      | clears found =>
          cases processing
          refine .queued rfl rfl ?_
          rw [front, ← findHandler_sysUserDisconnect found]
          exact List.mem_cons_self
      | handled other logic tasks forwarded same => exact .ongoing processing
  | dispatch slot after quiet phase some received =>
      cases received with
      | clears found =>
          cases processing
          exact .forged rfl rfl rfl ⟨phase, some, found⟩ rfl
      | handled other logic tasks forwarded same => exact .ongoing processing
  | response task rest after quiet phase front received =>
      cases received with
      | clears found => exact absurd found (findHandler_redis task.value.TaskID)
      | handled other logic tasks forwarded same => exact .ongoing processing
  | _ => exact .ongoing processing

/-- A system packet is pushed for the present connection of its index. -/
theorem step_systemPackets {server next : ChatServer n} {event : Event n}
    (taken : server.step event = some next) {packet : Tagged (SystemPacket n)}
    (member : packet ∈ next.mSystemWriteBuffer ++ next.mSystemReadBuffer) :
    packet ∈ server.mSystemWriteBuffer ++ server.mSystemReadBuffer ∨
      packet.connection = server.connection packet.value.clientIndex ∧
        (event = .close packet.value.clientIndex ∨ packet.value.packetId = .sysUserConnect) := by
  have pushed (slot : Fin n) (packetId : PacketId)
      (member : packet ∈ (server.pushSystemPacket slot packetId).mSystemWriteBuffer ++
        server.mSystemReadBuffer) :
      packet ∈ server.mSystemWriteBuffer ++ server.mSystemReadBuffer ∨
        packet = ⟨⟨slot, packetId⟩, server.connection slot⟩ := by
    rcases List.mem_append.mp member with written | read
    · rcases List.mem_append.mp written with old | new
      · exact .inl (List.mem_append_left _ old)
      · exact .inr (List.mem_singleton.mp new)
    · exact .inl (List.mem_append_right _ read)
  cases step_cases taken with
  | onConnect slot =>
      rcases pushed slot _ member with old | rfl
      · exact .inl old
      · exact .inr ⟨rfl, .inr rfl⟩
  | close slot isOpen =>
      rcases pushed slot _ member with old | rfl
      · exact .inl old
      · exact .inr ⟨rfl, .inl rfl⟩
  | swap quiet phase => exact .inl (List.mem_append.mpr (List.mem_append.mp member).symm)
  | systemPacket current rest after quiet phase front received =>
      rw [received.systemWrite, received.systemRead] at member
      rw [front]
      exact .inl (List.mem_append.mpr ((List.mem_append.mp member).imp_right
        (List.mem_cons_of_mem _)))
  | dispatch slot after quiet phase some received =>
      rw [received.systemWrite, received.systemRead] at member
      exact .inl member
  | response task rest after quiet phase front received =>
      rw [received.systemWrite, received.systemRead] at member
      exact .inl member
  | _ => exact .inl member

/-- A disconnect begins with the close of its connection. -/
theorem step_pending {server next : ChatServer n} {event : Event n} {index : Fin n}
    {connection : Nat} (taken : server.step event = some next)
    (pending : next.Pending index connection) :
    server.Pending index connection ∨
      event = .close index ∧ connection = server.connection index := by
  rcases pending with waiting | ⟨stage, processing⟩
  · rcases step_systemPackets taken waiting with old | ⟨present, close | connect⟩
    · exact .inl (.inl old)
    · exact .inr ⟨close, present⟩
    · cases connect
  · refine .inl ?_
    cases step_clearing taken processing with
    | ongoing same => exact .inr ⟨stage, same⟩
    | purged before _ => exact .inr ⟨.purge, before⟩
    | cleared _ before _ _ => exact .inr ⟨.clear, before⟩
    | queued _ _ front => exact .inl (List.mem_append_right _ front)
    | forged _ fromSystem _ _ _ => cases fromSystem

/-! ## Tasks, bytes and calls of ReceivePacketData -/

/-- `EnqueuePacketData` queues the task for the connection which has written. -/
structure Enqueues (server : ChatServer n) (event : Event n) (task : Tagged (PacketTask n)) :
    Prop where
  event : event = .enqueuePacketData task.value.clientIndex task.connection
  written : server.receiving task.value.clientIndex task.connection = some .written
  generation : task.value.generation = (server.user task.value.clientIndex).mGeneration

/-- What a step can do to the buffers of the tasks and to the batch of system packets. -/
inductive BuffersCase (server next : ChatServer n) (event : Event n) : Prop where
  | kept (write : next.mWriteBuffer ⊆ server.mWriteBuffer)
      (read : next.mReadBuffer ⊆ server.mReadBuffer)
      (system : next.mSystemReadBuffer ⊆ server.mSystemReadBuffer)
  | swapped (phase : server.phase = .waiting) (same : next = server.swap)
  | enqueued (task : Tagged (PacketTask n)) (enqueues : server.Enqueues event task)
      (write : next.mWriteBuffer = server.mWriteBuffer ++ [task])
      (read : next.mReadBuffer = server.mReadBuffer)
      (system : next.mSystemReadBuffer = server.mSystemReadBuffer)

theorem step_buffers {server next : ChatServer n} {event : Event n}
    (taken : server.step event = some next) : server.BuffersCase next event := by
  have same {tasks : List (Tagged (PacketTask n))} : tasks ⊆ tasks := List.Subset.refl _
  cases step_cases taken with
  | enqueuePacketData index connection written =>
      exact .enqueued _ ⟨rfl, written, rfl⟩ rfl rfl rfl
  | purge clearing ongoing stage =>
      exact .kept (List.filter_subset_self _) same (List.Subset.refl _)
  | swap quiet phase => exact .swapped phase rfl
  | systemPacket packet rest after quiet phase front received =>
      refine .kept (received.write ▸ same) (received.read ▸ same) ?_
      rw [received.systemRead, front]
      exact List.subset_cons_self ..
  | drainTask task rest quiet phase front current =>
      refine .kept same ?_ (List.Subset.refl _)
      rw [front]
      exact List.subset_cons_self ..
  | skipTask task rest quiet phase front stale =>
      refine .kept same ?_ (List.Subset.refl _)
      rw [front]
      exact List.subset_cons_self ..
  | dispatch slot after quiet phase some received =>
      exact .kept (received.write ▸ same) (received.read ▸ same)
        (received.systemRead ▸ List.Subset.refl _)
  | response task rest after quiet phase front received =>
      exact .kept (received.write ▸ same) (received.read ▸ same)
        (received.systemRead ▸ List.Subset.refl _)
  | _ => exact .kept same same (List.Subset.refl _)

/-- A task is queued by `EnqueuePacketData`. -/
theorem step_tasks {server next : ChatServer n} {event : Event n}
    (taken : server.step event = some next) {task : Tagged (PacketTask n)}
    (member : task ∈ next.mWriteBuffer ++ next.mReadBuffer) :
    task ∈ server.mWriteBuffer ++ server.mReadBuffer ∨ server.Enqueues event task := by
  rw [List.mem_append] at member ⊢
  cases step_buffers taken with
  | kept write read _ =>
      exact .inl (member.imp (fun member => write member) (fun member => read member))
  | swapped phase same =>
      subst same
      exact .inl member.symm
  | enqueued queued enqueues write read _ =>
      rw [write, read, List.mem_append, List.mem_singleton] at member
      rcases member with (old | rfl) | old
      · exact .inl (.inl old)
      · exact .inr enqueues
      · exact .inl (.inr old)

/-- Outside of the loop over the batch of tasks no task is left of it. -/
def BatchDone (server : ChatServer n) : Prop :=
  server.phase = .waiting ∨ server.phase = .responses → server.mReadBuffer = []

theorem step_batchDone {server next : ChatServer n} {event : Event n} (done : server.BatchDone)
    (taken : server.step event = some next) : next.BatchDone := by
  have busy {after : ChatServer n} {phase : Phase n} (same : after.phase = phase)
      (waiting : phase ≠ .waiting) (responses : phase ≠ .responses) : after.BatchDone := by
    rintro (idle | idle)
    · exact absurd (same.symm.trans idle) waiting
    · exact absurd (same.symm.trans idle) responses
  cases step_cases taken with
  | swap quiet phase => exact busy rfl nofun nofun
  | nextPhase phase quiet finished =>
      cases finished with
      | systemPackets before empty => exact busy rfl nofun nofun
      | packetTasks before empty => exact fun _ => empty
      | responses before => exact fun _ => done (.inr before)
  | systemPacket packet rest after quiet phase front received =>
      exact busy (received.phase.trans phase) nofun nofun
  | drainTask task rest quiet phase front same => exact busy rfl nofun nofun
  | skipTask task rest quiet phase front stale => exact busy phase nofun nofun
  | drained slot quiet phase nothing => exact busy rfl nofun nofun
  | dispatch slot after quiet phase some received =>
      exact busy (received.phase.trans phase) nofun nofun
  | dropResponse task rest quiet phase front => exact fun _ => done (.inr phase)
  | response task rest after quiet phase front received =>
      intro _
      rw [received.read]
      exact done (.inr phase)
  | _ => exact done

/-- A byte is in the ring of its connection's index because `SetPacketData` wrote it. -/
theorem step_tags {server next : ChatServer n} {event : Event n} {index : Fin n}
    {held : Nat} (taken : server.step event = some next)
    (member : held ∈ next.byteConnections index) :
    held ∈ server.byteConnections index ∨ event = .setPacketData index held := by
  have took (slot : Fin n) (member : held ∈ (server.takePacket slot).byteConnections index) :
      held ∈ server.byteConnections index := by
    rcases eq_or_ne index slot with rfl | other
    · unfold takePacket at member
      dsimp only at member
      rw [Function.update_self] at member
      exact List.mem_of_mem_drop member
    · exact server.takePacket_tags_of_ne other ▸ member
  cases step_cases taken with
  | setPacketData slot connection data given =>
      rcases eq_or_ne index slot with rfl | other
      · have tags := server.byteConnections_setPacketData_self index connection data
        rcases List.mem_append.mp (tags ▸ member) with old | new
        · exact .inl old
        · cases List.eq_of_mem_replicate new
          exact .inr rfl
      · have tags := server.byteConnections_setPacketData_of_ne connection data other
        exact .inl (tags ▸ member)
  | clear clearing ongoing stage state =>
      rcases eq_or_ne index clearing.clientIndex with rfl | other
      · rw [clearSlot_tags_self] at member
        exact absurd member List.not_mem_nil
      · exact .inl (server.clearSlot_tags_of_ne other ▸ member)
  | systemPacket packet rest after quiet phase front received =>
      exact .inl ((received.mailbox index).2 ▸ member)
  | drained slot quiet phase nothing => exact .inl (took slot member)
  | dispatch slot after quiet phase some received =>
      exact .inl (took slot ((received.mailbox index).2 ▸ member))
  | response task rest after quiet phase front received =>
      exact .inl ((received.mailbox index).2 ▸ member)
  | _ => exact .inl member

/-- `ReceivePacketData` is entered for the present connection of the index. -/
theorem step_receiving {server next : ChatServer n} {event : Event n} {index : Fin n}
    {connection : Nat} {receiving : Receiving} (taken : server.step event = some next)
    (called : next.receiving index connection = some receiving) :
    server.receiving index connection = some receiving ∨
      event = .setPacketData index connection ∨
        (∃ data, receiving = .received data) ∧ connection = server.connection index := by
  have updated (slot : Fin n) (sender : Nat) (value : Option Receiving)
      (called : (server.setReceiving slot sender value).receiving index connection =
        some receiving) :
      server.receiving index connection = some receiving ∨
        index = slot ∧ connection = sender ∧ value = some receiving := by
    by_cases same : index ≠ slot ∨ connection ≠ sender
    · rw [setReceiving_of_ne _ _ same] at called
      exact .inl called
    · obtain ⟨rfl, rfl⟩ := not_or.mp same |>.imp not_not.mp not_not.mp
      rw [setReceiving_self] at called
      exact .inr ⟨rfl, rfl, called⟩
  cases event with
  | receive slot data =>
      cases step_cases taken with
      | receive _ _ idle nonempty =>
          rcases updated _ _ _ called with old | ⟨rfl, rfl, chunk⟩
          · exact .inl old
          · exact .inr (.inr ⟨⟨data, (Option.some.inj chunk).symm⟩, rfl⟩)
  | setPacketData slot sender =>
      cases step_cases taken with
      | setPacketData _ _ data given =>
          rcases updated _ _ _ called with old | ⟨rfl, rfl, _⟩
          · exact .inl old
          · exact .inr (.inl rfl)
  | enqueuePacketData slot sender =>
      cases step_cases taken with
      | enqueuePacketData _ _ written =>
          rcases updated _ _ _ called with old | ⟨_, _, none⟩
          · exact .inl old
          · cases none
  | logic => exact .inl ((logic_frame taken).receiving ▸ called)
  | accept slot =>
      cases step_cases taken with
      | accept _ free => exact .inl called
  | onConnect slot =>
      cases step_cases taken with
      | onConnect => exact .inl called
  | close slot =>
      cases step_cases taken with
      | close _ isOpen => exact .inl called
  | redisTake =>
      cases step_cases taken with
      | redisTake task rest front => exact .inl called
  | redisAnswer worker value =>
      cases step_cases taken with
      | redisAnswer _ _ task responses busy answered => exact .inl called

/-! ## Connections -/

/-- What a step can do to the connection of an index. -/
inductive ConnectionCase (server next : ChatServer n) (event : Event n) (index : Fin n) :
    Prop where
  | same (connection : next.connection index = server.connection index)
      (isOpen : next.isOpen index = server.isOpen index)
  | closed (close : event = .close index)
      (connection : next.connection index = server.connection index)
      (isOpen : next.isOpen index = false)
  | accepted (free : server.isOpen index = false)
      (connection : next.connection index = server.connection index + 1)

theorem step_connection {server next : ChatServer n} {event : Event n}
    (taken : server.step event = some next) (index : Fin n) :
    server.ConnectionCase next event index := by
  cases event with
  | accept slot =>
      cases step_cases taken with
      | accept _ free =>
          rcases eq_or_ne index slot with rfl | other
          · exact .accepted free (Function.update_self ..)
          · exact .same (Function.update_of_ne other ..) (Function.update_of_ne other ..)
  | close slot =>
      cases step_cases taken with
      | close _ isOpen =>
          rcases eq_or_ne index slot with rfl | other
          · exact .closed rfl rfl (Function.update_self ..)
          · exact .same rfl (Function.update_of_ne other ..)
  | logic =>
      have frame := logic_frame taken
      exact .same (congrFun frame.connection index) (congrFun frame.isOpen index)
  | onConnect slot =>
      cases step_cases taken with
      | onConnect => exact .same rfl rfl
  | receive slot data =>
      cases step_cases taken with
      | receive _ _ idle nonempty => exact .same rfl rfl
  | setPacketData slot sender =>
      cases step_cases taken with
      | setPacketData _ _ data given => exact .same rfl rfl
  | enqueuePacketData slot sender =>
      cases step_cases taken with
      | enqueuePacketData _ _ written => exact .same rfl rfl
  | redisTake =>
      cases step_cases taken with
      | redisTake task rest front => exact .same rfl rfl
  | redisAnswer worker value =>
      cases step_cases taken with
      | redisAnswer _ _ task responses busy answered => exact .same rfl rfl

theorem ConnectionCase.le {server next : ChatServer n} {event : Event n} {index : Fin n}
    (changed : server.ConnectionCase next event index) :
    server.connection index ≤ next.connection index := by
  cases changed with
  | same connection isOpen => exact Nat.le_of_eq connection.symm
  | closed close connection isOpen => exact Nat.le_of_eq connection.symm
  | accepted free connection => exact connection ▸ Nat.le_succ _

/-- The connection has been closed: it is an earlier one of its index, or the present one
of an index which is not open. -/
structure Left (server : ChatServer n) (index : Fin n) (connection : Nat) : Prop where
  le : connection ≤ server.connection index
  closed : connection = server.connection index → server.isOpen index = false

theorem Left.step {server next : ChatServer n} {event : Event n} {index : Fin n}
    {connection : Nat} (left : server.Left index connection)
    (taken : server.step event = some next) : next.Left index connection := by
  have changed := step_connection taken index
  refine ⟨Nat.le_trans left.le changed.le, fun present => ?_⟩
  cases changed with
  | same same isOpen =>
      rw [isOpen]
      exact left.closed (present.trans same)
  | closed close same isOpen => exact isOpen
  | accepted free more =>
      have le := left.le
      omega

/-! ## Provenance -/

structure Provenance (server : ChatServer n) : Prop where
  mailboxes : ∀ index, server.MailboxOk index
  opened : ∀ index, server.isOpen index = true → 0 < server.connection index
  received : ∀ index connection, server.receiving index connection ≠ none →
    connection ≤ server.connection index
  wrote : ∀ index, ∀ connection ∈ writers index server.trace,
    connection ≤ server.connection index
  written : ∀ index connection, server.receiving index connection = some .written →
    connection ∈ writers index server.trace
  tasks : ∀ task ∈ server.mWriteBuffer ++ server.mReadBuffer,
    task.connection ∈ writers task.value.clientIndex server.trace
  tags : ∀ index, ∀ held ∈ server.byteConnections index, held ∈ writers index server.trace
  dispatched : ∀ index packet connections,
    .dispatched index packet connections ∈ server.trace →
      ∀ held ∈ connections, held ∈ writers index server.trace
  pending : ∀ index connection, server.Pending index connection → server.Left index connection
  forged : ∀ clearing, server.clearing = some clearing → clearing.fromSystem = false →
    clearing.connection = 0 ∨
      clearing.connection ∈ writers clearing.clientIndex server.trace

theorem init_provenance (memory : Fin n → Bytes) : (init memory).Provenance where
  mailboxes := init_mailboxOk memory
  opened := nofun
  received := fun _ _ called => absurd rfl called
  wrote := fun _ _ member => absurd member List.not_mem_nil
  written := nofun
  tasks := fun _ member => absurd member List.not_mem_nil
  tags := fun _ _ member => absurd member List.not_mem_nil
  dispatched := fun _ _ _ member => absurd member List.not_mem_nil
  pending := by
    rintro index connection (waiting | ⟨stage, processing⟩)
    · exact absurd waiting List.not_mem_nil
    · cases processing
  forged := nofun

/-- The bytes of a packet which is taken. -/
theorem Provenance.packet {server : ChatServer n} (provenance : server.Provenance)
    {index : Fin n} {held : Nat} (member : held ∈ server.packetConnections index) :
    held ∈ writers index server.trace :=
  provenance.tags index held (List.mem_of_mem_take member)

theorem Provenance.sender {server : ChatServer n} (provenance : server.Provenance)
    (index : Fin n) :
    server.sender index = 0 ∨ server.sender index ∈ writers index server.trace := by
  unfold ChatServer.sender
  rcases List.eq_nil_or_concat (server.packetConnections index) with nothing | ⟨front, last, split⟩
  · rw [nothing]
    exact .inl rfl
  · have member : last ∈ server.packetConnections index := by
      rw [split, List.concat_eq_append]
      exact List.mem_append_right _ (List.mem_singleton_self _)
    rw [split, List.concat_eq_append, List.getLastD_concat]
    exact .inr (provenance.packet member)

/-- A packet which the drain loop hands over has bytes. -/
theorem sender_mem {server : ChatServer n} {index : Fin n} (ok : server.MailboxOk index)
    (packet : (server.packet index).PacketId ≠ 0) :
    server.sender index ∈ server.byteConnections index := by
  rcases next : User.packetFormat.next? (server.user index).bytes with _ | ⟨taken, rest⟩
  · exact absurd (congrArg PacketInfo.PacketId (takePacket_of_none ok next).1) packet
  · have enough := packet_le_tags ok next
    have size : (server.packet index).DataSize = taken.length :=
      congrArg PacketInfo.DataSize (takePacket_of_some ok next).info
    have length : 0 < (server.packetConnections index).length := by
      unfold packetConnections
      rw [size, List.length_take_of_le enough]
      exact Nat.lt_of_lt_of_le (by decide) (Nat.le_max_left packetHeaderLength _)
    unfold sender
    rw [List.getLastD_eq_getLast?, List.getLast?_eq_some_getLast (List.ne_nil_of_length_pos length)]
    exact List.mem_of_mem_take (List.getLast_mem _)

theorem provenance_step {server next : ChatServer n} {event : Event n}
    (provenance : server.Provenance) (taken : server.step event = some next) :
    next.Provenance := by
  obtain ⟨added, trace, observes⟩ := step_extends taken
  have more {index : Fin n} {connection : Nat} (member : connection ∈ writers index server.trace) :
      connection ∈ writers index next.trace := by
    rw [trace, writers_append]
    exact List.mem_append_left _ member
  have writes {index : Fin n} {connection : Nat}
      (event : event = .setPacketData index connection) :
      connection ∈ writers index next.trace := by
    subst event
    cases step_cases taken with
    | setPacketData _ _ data given =>
        exact mem_writers.mpr ⟨_, _, List.mem_append_right _ (List.mem_singleton_self _)⟩
  have le (index : Fin n) : server.connection index ≤ next.connection index :=
    (step_connection taken index).le
  constructor
  case mailboxes => exact fun index => step_mailboxOk taken (provenance.mailboxes index)
  case opened =>
    intro index isOpen
    have changed := step_connection taken index
    cases changed with
    | same connection same => exact connection ▸ provenance.opened index (same ▸ isOpen)
    | closed close connection closed => exact absurd (isOpen.symm.trans closed) nofun
    | accepted free connection => exact connection ▸ Nat.succ_pos _
  case received =>
    intro index connection called
    obtain ⟨receiving, called⟩ := Option.ne_none_iff_exists'.mp called
    rcases step_receiving taken called with old | writes | ⟨_, present⟩
    · exact Nat.le_trans (provenance.received index connection (by rw [old]; nofun)) (le index)
    · subst writes
      cases step_cases taken with
      | setPacketData _ _ data given =>
          exact provenance.received index connection (by rw [given]; nofun)
    · exact present ▸ le index
  case wrote =>
    intro index connection member
    rw [trace, writers_append] at member
    rcases List.mem_append.mp member with old | new
    · exact Nat.le_trans (provenance.wrote index connection old) (le index)
    · obtain ⟨data, count, observed⟩ := mem_writers.mp new
      obtain ⟨_, given, _⟩ := observes _ observed
      exact Nat.le_trans (provenance.received index connection (by rw [given]; nofun)) (le index)
  case written =>
    intro index connection called
    rcases step_receiving taken called with old | event | ⟨⟨data, chunk⟩, _⟩
    · exact more (provenance.written index connection old)
    · exact writes event
    · cases chunk
  case tasks =>
    intro task member
    rcases step_tasks taken member with old | enqueues
    · exact more (provenance.tasks task old)
    · exact more (provenance.written _ _ enqueues.written)
  case tags =>
    intro index held member
    rcases step_tags taken member with old | event
    · exact more (provenance.tags index held old)
    · exact writes event
  case dispatched =>
    intro index packet connections member held part
    rw [trace] at member
    rcases List.mem_append.mp member with old | new
    · exact more (provenance.dispatched index packet connections old held part)
    · have taken : connections = server.packetConnections index := observes _ new
      exact more (provenance.packet (taken ▸ part))
  case pending =>
    intro index connection pending
    rcases step_pending taken pending with old | ⟨rfl, rfl⟩
    · exact (provenance.pending index connection old).step taken
    · cases step_cases taken with
      | close _ isOpen => exact ⟨Nat.le_refl _, fun _ => Function.update_self ..⟩
  case forged =>
    intro clearing processing forged
    cases step_clearing taken processing with
    | ongoing same => exact (provenance.forged _ same forged).imp_right more
    | purged before _ => exact (provenance.forged _ before forged).imp_right more
    | cleared _ before _ _ => exact (provenance.forged _ before forged).imp_right more
    | queued fromSystem _ _ => cases fromSystem.symm.trans forged
    | forged _ _ _ _ sender =>
        rw [sender]
        exact (provenance.sender clearing.clientIndex).imp_right more

end ChatServer

end IOCPChatServer

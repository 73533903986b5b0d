import IOCPChatServer.Threads.Delivery

/-!
# A reused index and the disconnect before it

The free list may hand an index out again before the logic thread has processed the
disconnect of its last connection.  `ClearConnectionInfo` names the slot by its index and
not by its generation: it purges all tasks of the index, empties the ring and retires the
generation, whoever has written meanwhile.  Nothing of a later connection is lost in the
runs in which none of its tasks and bytes is where these three steps reach.
-/

namespace IOCPChatServer

namespace ChatServer

open Execution

variable {n : Nat}

/-! ## What becomes of a connection's data -/

/-- The chunks which `SetPacketData` was given for the connection, in one piece. -/
def writtenBy (index : Fin n) (connection : Nat) (trace : List (Observation n)) : Bytes :=
  trace.flatMap fun
    | .written slot sender data _ => if slot = index ∧ sender = connection then data else []
    | _ => []

/-- The packets of the connection which the drain loop gave to `ProcessRecvPacket`. -/
def dispatchedFrom (index : Fin n) (connection : Nat) (trace : List (Observation n)) :
    List PacketInfo :=
  trace.filterMap fun
    | .dispatched slot packet connections =>
        if slot = index ∧ connections =
            List.replicate (max packetHeaderLength packet.DataSize) connection then some packet
        else none
    | _ => none

/-- Since the connection first wrote, the generation was retired for it or a later one. -/
def RetiredFor (index : Fin n) (connection : Nat) (trace : List (Observation n)) : Prop :=
  ∃ before cause fromSystem after,
    trace = before ++ .retired index cause fromSystem :: after ∧
      connection ∈ writers index before ∧ connection ≤ cause

/-- What a disconnect removes is of its own connection or of earlier ones, and no task is
skipped on account of an earlier connection. -/
def Undisturbed (earlier : List (Observation n)) : Observation n → Prop
  | .purged _ cause fromSystem connections =>
      fromSystem = true → ∀ connection ∈ connections, connection ≤ cause
  | .cleared _ cause fromSystem connections =>
      fromSystem = true → ∀ connection ∈ connections, connection ≤ cause
  | .skipped index connection => RetiredFor index connection earlier
  | _ => True

/-- The present connection of the index is open and sends these packets, and its chunks
were written in full. -/
structure Streams (server : ChatServer n) (index : Fin n) (packets : List Bytes) : Prop where
  wellFormed : ∀ packet ∈ packets, ClientPacket packet
  isOpen : server.isOpen index = true
  whole : ∀ data count,
    .written index (server.connection index) data count ∈ server.trace → count = data.length
  stream : writtenBy index (server.connection index) server.trace <+: packets.flatten

/-- The data of a connection survives the disconnects of the connections before it. -/
structure DataSurvives (server : ChatServer n) : Prop where
  kept : Admits Undisturbed server.trace
  current : ∀ task ∈ server.mWriteBuffer ++ server.mReadBuffer,
    task.value.generation = (server.user task.value.clientIndex).mGeneration ∨
      RetiredFor task.value.clientIndex task.connection server.trace
  complete : ∀ index packets, server.Streams index packets → server.Idle index →
    dispatchedFrom index (server.connection index) server.trace =
      (FrameFormat.complete packets
        (writtenBy index (server.connection index) server.trace).length).map packetInfo

/-- The tasks of the index are of the connection or of earlier ones. -/
def UpTo (tasks : List (Tagged (PacketTask n))) (index : Fin n) (connection : Nat) : Prop :=
  ∀ task ∈ tasks, task.value.clientIndex = index → task.connection ≤ connection

instance (tasks : List (Tagged (PacketTask n))) (index : Fin n) (connection : Nat) :
    Decidable (UpTo tasks index connection) :=
  inferInstanceAs (Decidable (∀ task ∈ tasks, task.value.clientIndex = index →
    task.connection ≤ connection))

/-- A chunk is written when the ring holds no bytes of another connection and no later
connection has written.  A task is queued when the batch holds no disconnect of an earlier
connection, and no call of `ClearConnectionInfo` for one is about to purge or to retire the
generation.  `DeleteUserInfo` empties the ring when neither bytes nor tasks of a later
connection are there. -/
def KeepsConnectionsApart (server : ChatServer n) : Event n → Prop
  | .setPacketData index connection =>
      (∀ held ∈ server.byteConnections index, held = connection) ∧
      (∀ writer ∈ writers index server.trace, writer ≤ connection)
  | .enqueuePacketData index connection =>
      (∀ packet ∈ server.mSystemReadBuffer, packet.value = ⟨index, .sysUserDisconnect⟩ →
        connection ≤ packet.connection) ∧
      (∀ clearing ∈ server.clearing.toList, clearing.clientIndex = index →
        clearing.stage ≠ .clear → connection ≤ clearing.connection)
  | .logic => ∀ clearing ∈ server.clearing.toList, clearing.stage = .clear →
      (server.user clearing.clientIndex).mCurDomainState ≠ .none →
        (∀ held ∈ server.byteConnections clearing.clientIndex, held ≤ clearing.connection) ∧
        UpTo (server.mWriteBuffer ++ server.mReadBuffer) clearing.clientIndex
          clearing.connection
  | _ => True

instance (server : ChatServer n) :
    (event : Event n) → Decidable (server.KeepsConnectionsApart event)
  | .setPacketData .. => by unfold KeepsConnectionsApart; infer_instance
  | .enqueuePacketData .. => by unfold KeepsConnectionsApart; infer_instance
  | .logic => by unfold KeepsConnectionsApart; infer_instance
  | .accept _ | .onConnect _ | .close _ | .receive .. | .redisTake | .redisAnswer .. =>
      isTrue trivial

/-! ## What `ClearConnectionInfo` finds -/

theorem RetiredFor.mono {index : Fin n} {connection : Nat} {earlier later : List (Observation n)}
    (retired : RetiredFor index connection earlier) (longer : earlier <+: later) :
    RetiredFor index connection later := by
  obtain ⟨before, cause, fromSystem, after, rfl, wrote, le⟩ := retired
  obtain ⟨rest, rfl⟩ := longer
  exact ⟨before, cause, fromSystem, after ++ rest, List.append_assoc .., wrote, le⟩

section UpTo

variable {server next : ChatServer n} {event : Event n} {index : Fin n} {connection : Nat}

theorem UpTo.writeBuffer (upTo : UpTo server.mWriteBuffer index connection)
    (done : server.BatchDone) (taken : server.step event = some next)
    (queued : ∀ sender, event = .enqueuePacketData index sender → sender ≤ connection) :
    UpTo next.mWriteBuffer index connection := by
  intro task member own
  cases step_buffers taken with
  | kept write _ _ => exact upTo task (write member) own
  | swapped phase same =>
      subst same
      have batch : task ∈ server.mReadBuffer := member
      rw [done (.inl phase)] at batch
      exact absurd batch List.not_mem_nil
  | enqueued _ enqueues write _ _ =>
      rw [write] at member
      rcases List.mem_append.mp member with old | new
      · exact upTo task old own
      · cases List.mem_singleton.mp new
        exact queued _ (own ▸ enqueues.event)

theorem UpTo.tasks (upTo : UpTo (server.mWriteBuffer ++ server.mReadBuffer) index connection)
    (taken : server.step event = some next)
    (queued : ∀ sender, event = .enqueuePacketData index sender → sender ≤ connection) :
    UpTo (next.mWriteBuffer ++ next.mReadBuffer) index connection := by
  intro task member own
  rcases step_tasks taken member with old | enqueues
  · exact upTo task old own
  · exact queued _ (own ▸ enqueues.event)

end UpTo

/-- No disconnect is behind a connection whose tasks or bytes it would remove. -/
structure NoneBehind (server : ChatServer n) : Prop where
  batchDone : server.BatchDone
  ordered : ∀ index, ∀ held ∈ server.byteConnections index,
    ∀ writer ∈ writers index server.trace, writer ≤ held
  batch : ∀ index cause, ⟨⟨index, .sysUserDisconnect⟩, cause⟩ ∈ server.mSystemReadBuffer →
    UpTo server.mWriteBuffer index cause
  purge : ∀ clearing, server.clearing = some clearing → clearing.stage = .purge →
    UpTo server.mWriteBuffer clearing.clientIndex clearing.connection
  retire : ∀ clearing, server.clearing = some clearing →
    clearing.stage = .incrementGeneration →
      UpTo (server.mWriteBuffer ++ server.mReadBuffer) clearing.clientIndex clearing.connection
  current : ∀ task ∈ server.mWriteBuffer ++ server.mReadBuffer,
    task.value.generation = (server.user task.value.clientIndex).mGeneration ∨
      RetiredFor task.value.clientIndex task.connection server.trace
  kept : Admits Undisturbed server.trace

theorem noneBehind_init (memory : Fin n → Bytes) : (init memory).NoneBehind where
  batchDone := fun _ => rfl
  ordered := fun _ _ member => absurd member List.not_mem_nil
  batch := fun _ _ member => absurd member List.not_mem_nil
  purge := nofun
  retire := nofun
  current := fun _ member => absurd member List.not_mem_nil
  kept := admits_nil

section Step

variable {server next : ChatServer n} {event : Event n}

/-- A chunk was written before or is written by the step. -/
theorem writers_step (taken : server.step event = some next) {index : Fin n}
    {connection : Nat} (member : connection ∈ writers index next.trace) :
    connection ∈ writers index server.trace ∨
      event = .setPacketData index connection ∧ server.receiving index connection ≠ none := by
  obtain ⟨added, trace, observes⟩ := step_extends taken
  rw [trace, writers_append] at member
  rcases List.mem_append.mp member with old | new
  · exact .inl old
  · obtain ⟨data, count, observed⟩ := mem_writers.mp new
    obtain ⟨writes, given, _⟩ := observes _ observed
    exact .inr ⟨writes, by rw [given]; nofun⟩

theorem NoneBehind.step_ordered (behind : server.NoneBehind)
    (condition : server.KeepsConnectionsApart event) (taken : server.step event = some next)
    {index : Fin n} {held writer : Nat} (member : held ∈ next.byteConnections index)
    (wrote : writer ∈ writers index next.trace) : writer ≤ held := by
  rcases step_tags taken member with old | writes
  · rcases writers_step taken wrote with before | ⟨rfl, _⟩
    · exact behind.ordered index held old writer before
    · exact Nat.le_of_eq (condition.1 held old).symm
  · subst writes
    rcases writers_step taken wrote with before | ⟨same, _⟩
    · exact condition.2 writer before
    · cases same
      exact Nat.le_refl _

theorem NoneBehind.step_batch (behind : server.NoneBehind)
    (condition : server.KeepsConnectionsApart event) (taken : server.step event = some next)
    {index : Fin n} {cause : Nat}
    (member : ⟨⟨index, .sysUserDisconnect⟩, cause⟩ ∈ next.mSystemReadBuffer) :
    UpTo next.mWriteBuffer index cause := by
  have waiting (old : ⟨⟨index, .sysUserDisconnect⟩, cause⟩ ∈ server.mSystemReadBuffer) :
      UpTo next.mWriteBuffer index cause := by
    refine (behind.batch index cause old).writeBuffer behind.batchDone taken ?_
    rintro sender rfl
    exact condition.1 _ old rfl
  cases step_buffers taken with
  | kept _ _ system => exact waiting (system member)
  | swapped phase same =>
      subst same
      intro task queued
      have batch : task ∈ server.mReadBuffer := queued
      rw [behind.batchDone (.inl phase)] at batch
      exact absurd batch List.not_mem_nil
  | enqueued _ _ _ _ system => exact waiting (system ▸ member)

theorem NoneBehind.step_purge (behind : server.NoneBehind) (provenance : server.Provenance)
    (condition : server.KeepsConnectionsApart event) (taken : server.step event = some next)
    {clearing : Clearing n} (processing : next.clearing = some clearing)
    (stage : clearing.stage = .purge) :
    UpTo next.mWriteBuffer clearing.clientIndex clearing.connection := by
  cases step_clearing taken processing with
  | ongoing same =>
      refine (behind.purge clearing same stage).writeBuffer behind.batchDone taken ?_
      rintro sender rfl
      exact condition.2 clearing (Option.mem_toList.mpr same) rfl (by rw [stage]; nofun)
  | purged _ late => cases late.symm.trans stage
  | cleared _ _ _ late => cases late.symm.trans stage
  | queued _ _ front =>
      refine (behind.batch _ _ front).writeBuffer behind.batchDone taken ?_
      rintro sender rfl
      exact condition.1 _ front rfl
  | forged logic _ _ forges sender =>
      have held := sender_mem (provenance.mailboxes clearing.clientIndex) forges.packet
      rw [← sender] at held
      have tasks : UpTo server.mWriteBuffer clearing.clientIndex clearing.connection := by
        intro task member own
        have wrote := provenance.tasks task (List.mem_append_left _ member)
        exact behind.ordered _ _ held _ (own ▸ wrote)
      refine tasks.writeBuffer behind.batchDone taken ?_
      rintro other rfl
      cases logic

theorem NoneBehind.step_retire (behind : server.NoneBehind)
    (condition : server.KeepsConnectionsApart event) (taken : server.step event = some next)
    {clearing : Clearing n} (processing : next.clearing = some clearing)
    (stage : clearing.stage = .incrementGeneration) :
    UpTo (next.mWriteBuffer ++ next.mReadBuffer) clearing.clientIndex clearing.connection := by
  cases step_clearing taken processing with
  | ongoing same =>
      refine (behind.retire clearing same stage).tasks taken ?_
      rintro sender rfl
      exact condition.2 clearing (Option.mem_toList.mpr same) rfl (by rw [stage]; nofun)
  | purged _ late => cases late.symm.trans stage
  | cleared logic before state _ =>
      subst logic
      have tasks := (condition _ (Option.mem_toList.mpr before) rfl state).2
      exact tasks.tasks taken nofun
  | queued _ early _ => cases early.symm.trans stage
  | forged _ _ early _ _ => cases early.symm.trans stage

theorem NoneBehind.step_current (behind : server.NoneBehind) (provenance : server.Provenance)
    (taken : server.step event = some next) {task : Tagged (PacketTask n)}
    (member : task ∈ next.mWriteBuffer ++ next.mReadBuffer) :
    task.value.generation = (next.user task.value.clientIndex).mGeneration ∨
      RetiredFor task.value.clientIndex task.connection next.trace := by
  rcases step_tasks taken member with old | ⟨enqueues, _, generation⟩
  · rcases step_generation taken task.value.clientIndex with
      same | ⟨clearing, ongoing, own, stage, rfl⟩
    · obtain ⟨added, trace, _⟩ := step_extends taken
      rw [same, trace]
      exact (behind.current task old).imp_right fun retired =>
        retired.mono (List.prefix_append ..)
    · right
      rw [← own]
      refine ⟨server.trace, clearing.connection, clearing.fromSystem, _,
        List.append_assoc .., own ▸ provenance.tasks task old, ?_⟩
      exact behind.retire clearing ongoing stage task old own.symm
  · subst enqueues
    cases step_cases taken with
    | enqueuePacketData _ _ written => exact .inl generation

theorem NoneBehind.step_kept (behind : server.NoneBehind)
    (condition : server.KeepsConnectionsApart event) (taken : server.step event = some next) :
    Admits Undisturbed next.trace := by
  obtain ⟨added, trace, observes⟩ := step_extends taken
  rw [trace]
  refine behind.kept.append fun observation member earlier longer => ?_
  have observed := observes observation member
  cases observation with
  | purged index cause fromSystem connections =>
      rintro - connection purged
      obtain ⟨processing, tasks⟩ := observed
      obtain ⟨task, queued, own, rfl⟩ := tasks connection purged
      exact behind.purge _ processing rfl task queued own
  | cleared index cause fromSystem connections =>
      rintro - connection cleared
      obtain ⟨rfl, processing, state, rfl⟩ := observed
      exact (condition _ (Option.mem_toList.mpr processing) rfl state).1 connection cleared
  | skipped index connection =>
      obtain ⟨task, queued, rfl, rfl, stale⟩ := observed
      have current := behind.current task (List.mem_append_right _ queued)
      exact (current.resolve_left stale).mono longer
  | _ => trivial

theorem noneBehind_step (provenance : server.Provenance) (behind : server.NoneBehind)
    (condition : server.KeepsConnectionsApart event) (taken : server.step event = some next) :
    next.NoneBehind where
  batchDone := step_batchDone behind.batchDone taken
  ordered := fun _ _ member _ wrote => behind.step_ordered condition taken member wrote
  batch := fun _ _ member => behind.step_batch condition taken member
  purge := fun _ processing stage =>
    behind.step_purge provenance condition taken processing stage
  retire := fun _ processing stage => behind.step_retire condition taken processing stage
  current := fun _ member => behind.step_current provenance taken member
  kept := behind.step_kept condition taken

end Step

/-! ## The stream of the present connection -/

theorem writtenBy_append (index : Fin n) (connection : Nat)
    (first second : List (Observation n)) :
    writtenBy index connection (first ++ second) =
      writtenBy index connection first ++ writtenBy index connection second :=
  List.flatMap_append ..

theorem dispatchedFrom_append (index : Fin n) (connection : Nat)
    (first second : List (Observation n)) :
    dispatchedFrom index connection (first ++ second) =
      dispatchedFrom index connection first ++ dispatchedFrom index connection second :=
  List.filterMap_append ..

theorem writtenBy_eq_nil {index : Fin n} {connection : Nat} {trace : List (Observation n)}
    (silent : connection ∉ writers index trace) : writtenBy index connection trace = [] := by
  refine List.flatMap_eq_nil_iff.mpr fun observation member => ?_
  cases observation with
  | written slot sender data count =>
      refine if_neg ?_
      rintro ⟨rfl, rfl⟩
      exact silent (mem_writers.mpr ⟨data, count, member⟩)
  | _ => rfl

theorem writtenTo_eq_writtenBy {index : Fin n} {connection : Nat}
    {trace : List (Observation n)} (alone : ∀ sender ∈ writers index trace, sender = connection) :
    writtenTo index trace = writtenBy index connection trace := by
  refine List.flatMap_congr fun observation member => ?_
  cases observation with
  | written slot sender data count =>
      dsimp only
      by_cases own : slot = index
      · subst own
        have same := alone sender (mem_writers.mpr ⟨data, count, member⟩)
        rw [if_pos rfl, if_pos ⟨rfl, same⟩]
      · rw [if_neg own, if_neg (fun both => own both.1)]
  | _ => rfl

theorem dispatchedFrom_eq_nil {index : Fin n} {connection : Nat}
    {trace : List (Observation n)}
    (silent : ∀ packet connections, .dispatched index packet connections ∈ trace →
      connection ∉ connections) : dispatchedFrom index connection trace = [] := by
  refine List.filterMap_eq_nil_iff.mpr fun observation member => ?_
  cases observation with
  | dispatched slot packet connections =>
      refine if_neg ?_
      rintro ⟨rfl, same⟩
      refine silent packet connections member ?_
      rw [same]
      refine List.mem_replicate.mpr ⟨?_, rfl⟩
      exact Nat.ne_of_gt (Nat.lt_of_lt_of_le (by decide) (Nat.le_max_left ..))
  | _ => rfl

theorem dispatchedFrom_eq_dispatchedTo {index : Fin n} {connection : Nat}
    {trace : List (Observation n)}
    (sources : ∀ packet connections, .dispatched index packet connections ∈ trace →
      connections = List.replicate (max packetHeaderLength packet.DataSize) connection) :
    dispatchedFrom index connection trace = dispatchedTo index trace := by
  refine List.filterMap_congr fun observation member => ?_
  cases observation with
  | dispatched slot packet connections =>
      dsimp only
      by_cases own : slot = index
      · subst own
        rw [if_pos rfl, if_pos ⟨rfl, sources packet connections member⟩]
      · rw [if_neg own, if_neg (fun both => own both.1)]
  | _ => rfl

/-- The reading of the present connection's packets since its first write. -/
structure Flow (server : ChatServer n) (index : Fin n) (packets : List Bytes)
    (past recent : List (Observation n)) : Prop where
  reading : server.Reading index (server.connection index) packets past recent
  silent : server.connection index ∉ writers index past
  undelivered : dispatchedFrom index (server.connection index) past = []
  alone : ∀ sender ∈ writers index recent, sender = server.connection index
  earlier : ∀ clearing, server.clearing = some clearing → clearing.clientIndex = index →
    clearing.fromSystem = false → clearing.connection < server.connection index

theorem Flow.writtenBy_eq {server : ChatServer n} {index : Fin n} {packets : List Bytes}
    {past recent : List (Observation n)} (flow : server.Flow index packets past recent) :
    writtenBy index (server.connection index) server.trace = writtenTo index recent := by
  rw [flow.reading.history, writtenBy_append, writtenBy_eq_nil flow.silent, List.nil_append,
    writtenTo_eq_writtenBy flow.alone]

theorem Flow.complete {server : ChatServer n} {index : Fin n} {packets : List Bytes}
    {past recent : List (Observation n)} (flow : server.Flow index packets past recent)
    (wellFormed : ∀ packet ∈ packets, ClientPacket packet) (idle : server.Idle index) :
    dispatchedFrom index (server.connection index) server.trace =
      (FrameFormat.complete packets
        (writtenBy index (server.connection index) server.trace).length).map packetInfo := by
  rw [flow.writtenBy_eq, ← flow.reading.complete wellFormed idle.not_served,
    ← flow.reading.dispatchedTo_eq, flow.reading.history, dispatchedFrom_append,
    flow.undelivered, List.nil_append]
  exact dispatchedFrom_eq_dispatchedTo flow.reading.sources

theorem complete_zero {packets : List Bytes}
    (wellFormed : ∀ packet ∈ packets, ClientPacket packet) :
    FrameFormat.complete packets 0 = [] := by
  cases packets with
  | nil => rfl
  | cons packet rest =>
      have header := (wellFormed packet List.mem_cons_self).header
      refine if_neg (Nat.not_le.mpr (Nat.lt_of_lt_of_le ?_ header))
      decide

/-- A connection which has not written yet. -/
theorem Provenance.complete {server : ChatServer n} (provenance : server.Provenance)
    {index : Fin n} {packets : List Bytes}
    (wellFormed : ∀ packet ∈ packets, ClientPacket packet)
    (silent : server.connection index ∉ writers index server.trace) :
    dispatchedFrom index (server.connection index) server.trace =
      (FrameFormat.complete packets
        (writtenBy index (server.connection index) server.trace).length).map packetInfo := by
  rw [writtenBy_eq_nil silent, List.length_nil, complete_zero wellFormed, List.map_nil]
  exact dispatchedFrom_eq_nil fun packet connections member held =>
    silent (provenance.dispatched index packet connections member _ held)

/-- The first chunk of a connection finds an empty ring. -/
theorem flow_start {server : ChatServer n} (provenance : server.Provenance) {index : Fin n}
    (isOpen : server.isOpen index = true)
    (silent : server.connection index ∉ writers index server.trace)
    (condition : server.KeepsConnectionsApart (.setPacketData index (server.connection index)))
    (packets : List Bytes) : server.Flow index packets server.trace [] := by
  have ok := provenance.mailboxes index
  have tags : server.byteConnections index = [] := by
    refine List.eq_nil_iff_forall_not_mem.mpr fun tag member => ?_
    exact silent (condition.1 tag member ▸ provenance.tags index tag member)
  have empty : (server.user index).bytes = [] := by
    rw [← List.length_eq_zero_iff, ← ok.tagged, tags, List.length_nil]
  refine ⟨.start isOpen ok empty packets, silent, ?_, ?_, ?_⟩
  · exact dispatchedFrom_eq_nil fun packet connections member held =>
      silent (provenance.dispatched index packet connections member _ held)
  · exact fun _ member => absurd member List.not_mem_nil
  · rintro clearing ongoing rfl forged
    rcases provenance.forged clearing ongoing forged with none | wrote
    · rw [none]
      exact provenance.opened _ isOpen
    · refine Nat.lt_of_le_of_ne (provenance.wrote _ _ wrote) fun same => silent ?_
      rwa [← same]

/-- A call of `ClearConnectionInfo` for the index is on account of an earlier connection. -/
theorem Flow.cause_lt {server : ChatServer n} (provenance : server.Provenance) {index : Fin n}
    {packets : List Bytes} {past recent : List (Observation n)}
    (flow : server.Flow index packets past recent) {clearing : Clearing n}
    (ongoing : server.clearing = some clearing) (own : clearing.clientIndex = index) :
    clearing.connection < server.connection index := by
  cases system : clearing.fromSystem with
  | false => exact flow.earlier clearing ongoing own system
  | true =>
      obtain ⟨slot, cause, fromSystem, stage⟩ := clearing
      cases own
      cases system
      have left := provenance.pending slot cause (.inr ⟨stage, ongoing⟩)
      refine Nat.lt_of_le_of_ne left.le fun same => ?_
      exact absurd (flow.reading.isOpen.symm.trans (left.closed same)) nofun

theorem Flow.spares {server : ChatServer n} (provenance : server.Provenance)
    (behind : server.NoneBehind) {index : Fin n} {packets : List Bytes}
    {past recent : List (Observation n)} (flow : server.Flow index packets past recent)
    (condition : server.KeepsConnectionsApart .logic) {clearing : Clearing n}
    (ongoing : server.clearing = some clearing) (own : clearing.clientIndex = index) :
    server.Spares clearing (server.connection index) := by
  have earlier := flow.cause_lt provenance ongoing own
  constructor
  · intro stage task queued same
    have le := behind.purge clearing ongoing stage task queued same
    exact Nat.ne_of_lt (Nat.lt_of_le_of_lt le earlier)
  · intro stage state
    have held := (condition clearing (Option.mem_toList.mpr ongoing) stage state).1
    subst own
    have tags : server.byteConnections clearing.clientIndex = [] := by
      refine List.eq_nil_iff_forall_not_mem.mpr fun tag member => ?_
      have le := held tag member
      rw [flow.reading.own tag member] at le
      exact absurd earlier (Nat.not_lt.mpr le)
    rw [← List.length_eq_zero_iff, ← flow.reading.mailbox.tagged, tags, List.length_nil]
  · intro stage task queued same
    have le := behind.retire clearing ongoing stage task queued same
    exact Nat.ne_of_lt (Nat.lt_of_le_of_lt le earlier)

theorem Streams.before {server next : ChatServer n} {index : Fin n} {packets : List Bytes}
    {added : List (Observation n)} (streams : next.Streams index packets)
    (trace : next.trace = server.trace ++ added)
    (connection : next.connection index = server.connection index)
    (isOpen : next.isOpen index = server.isOpen index) : server.Streams index packets where
  wellFormed := streams.wellFormed
  isOpen := isOpen ▸ streams.isOpen
  whole data count member := streams.whole data count (by
    rw [connection, trace]
    exact List.mem_append_left _ member)
  stream := by
    have stream := streams.stream
    rw [connection, trace, writtenBy_append] at stream
    exact (List.prefix_append ..).trans stream

/-- A chunk which is written in full had room. -/
theorem fits_of_whole {server next : ChatServer n} {event : Event n} {index : Fin n}
    (provenance : server.Provenance) (taken : server.step event = some next)
    (own : ∀ sender, event = .setPacketData index sender → sender = server.connection index)
    (whole : ∀ data count,
      .written index (server.connection index) data count ∈ next.trace → count = data.length) :
    server.Fits index event := by
  cases event with
  | setPacketData slot sender =>
      rintro rfl
      cases own sender rfl
      cases step_cases taken with
      | setPacketData _ _ data given =>
          have count := whole data _ (List.mem_append_right _ (List.mem_singleton_self _))
          have valid := (provenance.mailboxes slot).valid
          have size : (server.user slot).bytes.length =
              (server.user slot).mPacketDataBuffer.size := RingBuffer.length_contents _
          have bound := valid.size_le
          rw [RingBuffer.write_count valid] at count
          rw [show server.inHand slot (server.connection slot) = data by simp [inHand, given], size]
          omega
  | _ => trivial

/-- What was written since the flow began is what the present connection has written. -/
theorem Flow.stream {server next : ChatServer n} {index : Fin n} {packets : List Bytes}
    {past recent later : List (Observation n)}
    (flow : server.Flow index packets past recent)
    (connection : next.connection index = server.connection index)
    (alone : ∀ sender ∈ writers index later, sender = server.connection index)
    (streams : next.Streams index packets) (history : next.trace = past ++ later) :
    writtenTo index later <+: packets.flatten := by
  have all := streams.stream
  rw [connection, history, writtenBy_append, writtenBy_eq_nil flow.silent, List.nil_append] at all
  rwa [writtenTo_eq_writtenBy alone]

/-- No disconnect which a client sent begins for the index. -/
theorem Flow.step_earlier {server next : ChatServer n} {event : Event n} {index : Fin n}
    {packets : List Bytes} {past recent : List (Observation n)}
    (flow : server.Flow index packets past recent) (genuine : ¬ server.Forges index)
    (taken : server.step event = some next) {clearing : Clearing n}
    (processing : next.clearing = some clearing) (own : clearing.clientIndex = index)
    (forged : clearing.fromSystem = false) : clearing.connection < server.connection index := by
  cases step_clearing taken processing with
  | ongoing before => exact flow.earlier clearing before own forged
  | purged before _ => exact flow.earlier { clearing with stage := .purge } before own forged
  | cleared _ before _ _ =>
      exact flow.earlier { clearing with stage := .clear } before own forged
  | queued system _ _ => cases system.symm.trans forged
  | forged _ _ _ forges _ => exact absurd (own ▸ forges) genuine

theorem flow_step {server next : ChatServer n} {event : Event n} {index : Fin n}
    {packets : List Bytes} {past recent : List (Observation n)}
    (provenance : server.Provenance) (behind : server.NoneBehind)
    (condition : server.KeepsConnectionsApart event)
    (flow : server.Flow index packets past recent)
    (own : ∀ sender, event = .setPacketData index sender → sender = server.connection index)
    (connection : next.connection index = server.connection index)
    (isOpen : next.isOpen index = server.isOpen index) (streams : next.Streams index packets)
    (taken : server.step event = some next) :
    ∃ later, next.Flow index packets past later := by
  obtain ⟨added, trace, observes⟩ := step_extends taken
  have history : next.trace = past ++ (recent ++ added) := by
    rw [trace, flow.reading.history, List.append_assoc]
  have alone (sender : Nat) (member : sender ∈ writers index (recent ++ added)) :
      sender = server.connection index := by
    rw [writers_append] at member
    rcases List.mem_append.mp member with old | new
    · exact flow.alone sender old
    · obtain ⟨data, count, observed⟩ := mem_writers.mp new
      exact own sender (observes _ observed).1
  have stays : event ≠ .close index := by
    rintro rfl
    cases step_cases taken with
    | close _ wasOpen =>
        have closed := Function.update_self index false server.isOpen
        exact absurd (streams.isOpen.symm.trans closed) nofun
  have whole := streams.whole
  rw [connection] at whole
  have stream (later : List (Observation n)) (split : next.trace = past ++ later) :
      writtenTo index later <+: packets.flatten := by
    have same : later = recent ++ added := List.append_cancel_left (split.symm.trans history)
    exact flow.stream connection (same ▸ alone) streams split
  have spares (logic : event = .logic) (clearing : Clearing n)
      (ongoing : server.clearing = some clearing) (same : clearing.clientIndex = index) :
      server.Spares clearing (server.connection index) := by
    subst logic
    exact flow.spares provenance behind condition ongoing same
  have genuine := flow.reading.not_forges streams.wellFormed
  obtain ⟨extra, reading⟩ := step_reading streams.wellFormed flow.reading stays own
    (fits_of_whole provenance taken own whole) stream spares taken
  have same : recent ++ extra = recent ++ added :=
    List.append_cancel_left (reading.history.symm.trans history)
  rw [← connection] at reading alone
  refine ⟨recent ++ extra, reading, ?_, ?_, ?_, ?_⟩
  · rw [connection]
    exact flow.silent
  · rw [connection]
    exact flow.undelivered
  · rw [same]
    exact alone
  · intro clearing processing own forged
    rw [connection]
    exact flow.step_earlier genuine taken processing own forged

/-- What holds in the runs which keep the connections of an index apart. -/
structure Surviving (server : ChatServer n) : Prop where
  provenance : server.Provenance
  behind : server.NoneBehind
  flow : ∀ index packets, server.Streams index packets →
    server.connection index ∈ writers index server.trace →
      ∃ past recent, server.Flow index packets past recent

theorem surviving_init (memory : Fin n → Bytes) : (init memory).Surviving where
  provenance := init_provenance memory
  behind := noneBehind_init memory
  flow := fun _ _ _ member => absurd member List.not_mem_nil

theorem surviving_step {server next : ChatServer n} {event : Event n}
    (surviving : server.Surviving) (condition : server.KeepsConnectionsApart event)
    (taken : server.step event = some next) : next.Surviving where
  provenance := provenance_step surviving.provenance taken
  behind := noneBehind_step surviving.provenance surviving.behind condition taken
  flow := by
    intro index packets streams wrote
    obtain ⟨added, trace, observes⟩ := step_extends taken
    have provenance := surviving.provenance
    have behind := surviving.behind
    cases step_connection taken index with
    | closed close connection isOpen => exact absurd (streams.isOpen.symm.trans isOpen) nofun
    | accepted free connection =>
        rw [connection] at wrote
        rcases writers_step taken wrote with old | ⟨_, called⟩
        · exact absurd (provenance.wrote index _ old) (Nat.not_succ_le_self _)
        · exact absurd (provenance.received index _ called) (Nat.not_succ_le_self _)
    | same connection isOpen =>
        rw [connection] at wrote
        have before := streams.before trace connection isOpen
        by_cases silent : server.connection index ∈ writers index server.trace
        · obtain ⟨past, recent, flow⟩ := surviving.flow index packets before silent
          have own (sender : Nat) (writes : event = .setPacketData index sender) :
              sender = server.connection index := by
            subst writes
            refine Nat.le_antisymm ?_ (condition.2 _ silent)
            cases step_cases taken with
            | setPacketData _ _ data given =>
                exact provenance.received index sender (by rw [given]; nofun)
          obtain ⟨later, flow⟩ := flow_step provenance behind condition flow own connection
            isOpen streams taken
          exact ⟨past, later, flow⟩
        · obtain ⟨rfl, _⟩ := (writers_step taken wrote).resolve_left silent
          have flow := flow_start provenance before.isOpen silent condition packets
          have own (sender : Nat) (writes : Event.setPacketData index (server.connection index) =
              .setPacketData index sender) : sender = server.connection index := by
            cases writes
            rfl
          obtain ⟨later, flow⟩ := flow_step provenance behind condition flow own connection
            isOpen streams taken
          exact ⟨server.trace, later, flow⟩

theorem Surviving.dataSurvives {server : ChatServer n} (surviving : server.Surviving) :
    server.DataSurvives := by
  refine ⟨surviving.behind.kept, surviving.behind.current, fun index packets streams idle => ?_⟩
  by_cases wrote : server.connection index ∈ writers index server.trace
  · obtain ⟨past, recent, flow⟩ := surviving.flow index packets streams wrote
    exact flow.complete streams.wellFormed idle
  · exact surviving.provenance.complete streams.wellFormed wrote

/--
For every schedule whose steps keep the connections of an index apart, the data of every
connection survives the disconnects of the connections before it.
-/
theorem dataSurvives_of_keepsConnectionsApart (memory : Fin n → Bytes) {events : List (Event n)}
    (conditions : Throughout step KeepsConnectionsApart (init memory) events) :
    Always step DataSurvives (init memory) events := by
  have surviving : Always step Surviving (init memory) events :=
    always_of_throughout
      (fun _ _ _ surviving condition taken => surviving_step surviving condition taken)
      (surviving_init memory) conditions
  exact surviving.mono fun _ surviving => surviving.dataSurvives

/-- The second connection writes and enqueues while the disconnect of the first one is
queued; one batch takes both, and the packet is dispatched after the disconnect. -/
def sharedBatch : List (Event 1) :=
  [.accept 0, .close 0, .accept 0, .receive 0 pong, .setPacketData 0 2,
    .enqueuePacketData 0 2] ++ List.replicate 9 .logic

theorem sharedBatch_dataSurvives :
    Always step DataSurvives (init fun _ => []) sharedBatch :=
  dataSurvives_of_keepsConnectionsApart (fun _ => []) (by decide +kernel)

/-- The second connection writes and enqueues when the batch with the disconnect of the
first one has been taken. -/
def hastyReconnect : List (Event 1) :=
  [.accept 0, .close 0, .accept 0, .logic, .receive 0 pong, .setPacketData 0 2,
    .enqueuePacketData 0 2, .logic, .logic]

/-- Its task is purged with the disconnect of the first connection. -/
theorem hastyReconnect_not_dataSurvives :
    ¬ Always step DataSurvives (init fun _ => []) hastyReconnect := by
  intro always
  have seen : (run? step (init fun _ => []) hastyReconnect).map
      ChatServer.trace = some [.written 0 2 pong 5, .purged 0 1 true [2]] := by decide +kernel
  obtain ⟨last, survives, observed⟩ := always.observed seen
  have kept := survives.kept [_] _ [] observed
  exact absurd (kept rfl 2 (List.mem_singleton_self _)) (by decide)

end ChatServer

end IOCPChatServer

import IOCPChatServer.ChatServer
import IOCPChatServer.Logic.PacketFrame

/-!
# The steps of the threads

The inversion of `ChatServer.step`: every way in which a step of some thread can
happen, with its guards and the state which it leaves.  The invariants of the server
are case analyses over `StepCase` and never unfold `step`.
-/

namespace IOCPChatServer

namespace PacketManager

variable {n : Nat}

theorem user_modifyUser_self (manager : PacketManager n) (index : Fin n)
    (change : User → User) :
    (manager.modifyUser index change).user index = change (manager.user index) :=
  Function.update_self ..

theorem user_modifyUser_of_ne (manager : PacketManager n) {index slot : Fin n}
    (change : User → User) (different : slot ≠ index) :
    (manager.modifyUser index change).user slot = manager.user slot :=
  Function.update_of_ne different ..

/-- A change of a slot which keeps its mailbox keeps all mailboxes. -/
theorem modifyUser_sameMailbox (manager : PacketManager n) (index : Fin n)
    (change : User → User) (same : ∀ user, SameMailbox user (change user)) (slot : Fin n) :
    SameMailbox (manager.user slot) ((manager.modifyUser index change).user slot) := by
  rcases eq_or_ne slot index with rfl | different
  · rw [user_modifyUser_self]
    exact same _
  · rw [user_modifyUser_of_ne _ _ different]
    exact .refl _

theorem leaveRoomOnClear_sameMailbox (manager : PacketManager n) (index slot : Fin n) :
    SameMailbox (manager.user slot) ((manager.leaveRoomOnClear index).user slot) := by
  unfold leaveRoomOnClear leaveUser RoomManager.leaveUser
  split
  · cases manager.mRoomManager.getRoomByNumber (manager.user index).roomIndex with
    | none => exact .refl _
    | some room =>
        exact manager.modifyUser_sameMailbox index (·.setDomainState .login)
          (fun _ => ⟨rfl, rfl⟩) slot
  · exact .refl _

end PacketManager

namespace ChatServer

variable {n : Nat}

/-! ## ProcessRecvPacket -/

/-- What a call of `ProcessRecvPacket` leaves: either `ClearConnectionInfo` begins, or a
handler ran to its end, which kept the mailboxes of all slots. -/
inductive Received (server : ChatServer n) (index : Fin n) (packetId packetSize : Nat)
    (pPacket : Bytes) (connection : Nat) (fromSystem : Bool) : ChatServer n → Prop where
  | clears (found : PacketManager.findHandler packetId = some .processUserDisconnect) :
      Received server index packetId packetSize pPacket connection fromSystem
        { server with clearing := some ⟨index, connection, fromSystem, .purge⟩ }
  | handled (other : PacketManager.findHandler packetId ≠ some .processUserDisconnect)
      (logic : PacketManager n) (tasks : List (RedisTask n))
      (forwarded : server.logic.Forwarded index packetId packetSize pPacket tasks)
      (same : ∀ slot, SameMailbox (server.user slot) (logic.user slot)) :
      Received server index packetId packetSize pPacket connection fromSystem
        { server with
          logic := logic
          mRequestTask := server.mRequestTask ++ tasks.map (⟨·, connection⟩) }

theorem processRecvPacket_received {server after : ChatServer n} {index : Fin n}
    {packetId packetSize : Nat} {pPacket : Bytes} {connection : Nat} {fromSystem : Bool}
    (completed : server.processRecvPacket index packetId packetSize pPacket connection
      fromSystem = some after) :
    server.Received index packetId packetSize pPacket connection fromSystem after := by
  unfold processRecvPacket at completed
  split at completed
  · rename_i found
    cases completed
    exact .clears found
  · rename_i other
    obtain ⟨logic, ran, rfl⟩ := Option.map_eq_some_iff.mp completed
    obtain ⟨tasks, forwarded, pushed⟩ := PacketManager.processRecvPacket_redisTasks ran other
    have queued : logic.redisTasks.drop server.logic.redisTasks.length = tasks := by
      rw [pushed, List.drop_left]
    have left : server.handled logic connection =
        { server with
          logic := logic
          mRequestTask := server.mRequestTask ++ tasks.map (⟨·, connection⟩) } := by
      unfold handled
      rw [queued]
    rw [left]
    exact .handled other logic tasks forwarded
      (PacketManager.processRecvPacket_sameMailbox ran other)

/-- Storing the login result in the packet is part of the handler. -/
theorem Received.storeResult {server after : ChatServer n} {index : Fin n}
    {packet : PacketInfo} {connection : Nat} {fromSystem : Bool}
    (received : server.Received index packet.PacketId packet.DataSize packet.pDataPtr
      connection fromSystem after) :
    server.Received index packet.PacketId packet.DataSize packet.pDataPtr connection
      fromSystem (server.storeResult after index packet) := by
  unfold ChatServer.storeResult
  split
  · rename_i result
    cases received with
    | clears found => exact nomatch result.symm.trans found
    | handled other logic tasks forwarded same =>
        refine .handled other _ tasks forwarded (fun slot => ?_)
        have stored := logic.modifyUser_sameMailbox index
          (fun user => { user with
            m_tempPacketBuffer :=
              u16Bytes (server.logic.loginResultCode index packet.pDataPtr) ++
                user.m_tempPacketBuffer.drop 2 }) (fun _ => ⟨rfl, rfl⟩) slot
        exact ⟨stored.mPacketDataBuffer.trans (same slot).mPacketDataBuffer,
          stored.mGeneration.trans (same slot).mGeneration⟩
  · exact received

/-! ## The inversion of a step -/

/-- A worker's answer to a task, none when the task is no login request, is for the same
index and connection. -/
def Answers (task : Tagged (RedisTask n)) (responses : List (Tagged (RedisTask n))) : Prop :=
  ∀ response ∈ responses, response.connection = task.connection ∧
    response.value.UserIndex = task.value.UserIndex

/-- The phases between which the logic thread moves when a part of its loop is done. -/
inductive PhaseDone (server : ChatServer n) : Phase n → Prop where
  | systemPackets (phase : server.phase = .systemPackets) (empty : server.mSystemReadBuffer = []) :
      PhaseDone server .packetTasks
  | packetTasks (phase : server.phase = .packetTasks) (empty : server.mReadBuffer = []) :
      PhaseDone server .responses
  | responses (phase : server.phase = .responses) : PhaseDone server .waiting

/-- The ways in which a step can happen. -/
inductive StepCase (server : ChatServer n) : Event n → ChatServer n → Prop where
  | accept (index : Fin n) (free : server.isOpen index = false) :
      StepCase server (.accept index)
        { server with
          connection := Function.update server.connection index (server.connection index + 1)
          isOpen := Function.update server.isOpen index true }
  | onConnect (index : Fin n) :
      StepCase server (.onConnect index) (server.pushSystemPacket index .sysUserConnect)
  | close (index : Fin n) (isOpen : server.isOpen index = true) :
      StepCase server (.close index)
        ({ server with
          isOpen := Function.update server.isOpen index false }.pushSystemPacket index
            .sysUserDisconnect)
  | receive (index : Fin n) (data : Bytes)
      (idle : server.receiving index (server.connection index) = none) (nonempty : data ≠ []) :
      StepCase server (.receive index data)
        (server.setReceiving index (server.connection index) (some (.received data)))
  | setPacketData (index : Fin n) (connection : Nat) (data : Bytes)
      (given : server.receiving index connection = some (.received data)) :
      StepCase server (.setPacketData index connection)
        ((server.setPacketData index connection data).setReceiving index connection
          (some .written))
  | enqueuePacketData (index : Fin n) (connection : Nat)
      (written : server.receiving index connection = some .written) :
      StepCase server (.enqueuePacketData index connection)
        ((server.enqueuePacketData index connection).setReceiving index connection none)
  | purge (clearing : Clearing n) (ongoing : server.clearing = some clearing)
      (stage : clearing.stage = .purge) : StepCase server .logic (server.purge clearing)
  | keepSlot (clearing : Clearing n) (ongoing : server.clearing = some clearing)
      (stage : clearing.stage = .clear)
      (state : (server.user clearing.clientIndex).mCurDomainState = .none) :
      StepCase server .logic
        ({ server with
          logic := server.logic.leaveRoomOnClear clearing.clientIndex }.endClearing clearing)
  | clear (clearing : Clearing n) (ongoing : server.clearing = some clearing)
      (stage : clearing.stage = .clear)
      (state : (server.user clearing.clientIndex).mCurDomainState ≠ .none) :
      StepCase server .logic (server.clearSlot clearing)
  | incrementGeneration (clearing : Clearing n) (ongoing : server.clearing = some clearing)
      (stage : clearing.stage = .incrementGeneration) :
      StepCase server .logic (server.incrementGeneration clearing)
  | swap (quiet : server.clearing = none) (phase : server.phase = .waiting) :
      StepCase server .logic server.swap
  | nextPhase (phase : Phase n) (quiet : server.clearing = none) (done : server.PhaseDone phase) :
      StepCase server .logic { server with phase := phase }
  | systemPacket (packet : Tagged (SystemPacket n)) (rest : List (Tagged (SystemPacket n)))
      (after : ChatServer n) (quiet : server.clearing = none)
      (phase : server.phase = .systemPackets)
      (front : server.mSystemReadBuffer = packet :: rest)
      (received : { server with mSystemReadBuffer := rest }.Received packet.value.clientIndex
        packet.value.packetId.code 0 [] packet.connection true after) :
      StepCase server .logic after
  | drainTask (task : Tagged (PacketTask n)) (rest : List (Tagged (PacketTask n)))
      (quiet : server.clearing = none) (phase : server.phase = .packetTasks)
      (front : server.mReadBuffer = task :: rest)
      (same : (server.user task.value.clientIndex).mGeneration = task.value.generation) :
      StepCase server .logic
        { server with
          mReadBuffer := rest
          phase := .draining task.value.clientIndex }
  | skipTask (task : Tagged (PacketTask n)) (rest : List (Tagged (PacketTask n)))
      (quiet : server.clearing = none) (phase : server.phase = .packetTasks)
      (front : server.mReadBuffer = task :: rest)
      (stale : (server.user task.value.clientIndex).mGeneration ≠ task.value.generation) :
      StepCase server .logic
        ({ server with mReadBuffer := rest }.observe
          (.skipped task.value.clientIndex task.connection))
  | drained (index : Fin n) (quiet : server.clearing = none)
      (phase : server.phase = .draining index) (nothing : (server.packet index).PacketId = 0) :
      StepCase server .logic { server.takePacket index with phase := .packetTasks }
  | dispatch (index : Fin n) (after : ChatServer n) (quiet : server.clearing = none)
      (phase : server.phase = .draining index) (some : (server.packet index).PacketId ≠ 0)
      (received : (server.dispatch index).Received index (server.packet index).PacketId
        (server.packet index).DataSize (server.packet index).pDataPtr (server.sender index)
        false after) :
      StepCase server .logic after
  | dropResponse (task : Tagged (RedisTask n)) (rest : List (Tagged (RedisTask n)))
      (quiet : server.clearing = none) (phase : server.phase = .responses)
      (front : server.mResponseTask = task :: rest) :
      StepCase server .logic
        { server with
          mResponseTask := rest
          phase := .waiting }
  | response (task : Tagged (RedisTask n)) (rest : List (Tagged (RedisTask n)))
      (after : ChatServer n) (quiet : server.clearing = none)
      (phase : server.phase = .responses) (front : server.mResponseTask = task :: rest)
      (received : ({ server with mResponseTask := rest }.observe
        (.loginResult task.value.UserIndex task.connection
          (server.isCurrent task.value.UserIndex task.connection))).Received
            task.value.UserIndex task.value.TaskID.code task.value.pData.length
            task.value.pData task.connection false after) :
      StepCase server .logic after
  | redisTake (task : Tagged (RedisTask n)) (rest : List (Tagged (RedisTask n)))
      (front : server.mRequestTask = task :: rest) :
      StepCase server .redisTake
        { server with
          mRequestTask := rest
          workers := server.workers ++ [task] }
  | redisAnswer (worker : Nat) (value : Option Bytes) (task : Tagged (RedisTask n))
      (responses : List (Tagged (RedisTask n))) (busy : server.workers[worker]? = some task)
      (answered : Answers task responses) :
      StepCase server (.redisAnswer worker value)
        { server with
          workers := server.workers.eraseIdx worker
          mResponseTask := server.mResponseTask ++ responses }

/-- Whether `DeleteUserInfo` runs is decided by the state which the slot had before
`LeaveUser`. -/
theorem leaveRoomOnClear_state (manager : PacketManager n) (index : Fin n) :
    ((manager.leaveRoomOnClear index).user index).mCurDomainState = .none ↔
      (manager.user index).mCurDomainState = .none := by
  obtain ⟨user, users, _, _, _, state, _⟩ := manager.leaveRoomOnClear_spec index
  have slot : (manager.leaveRoomOnClear index).user index = user := by
    simp [PacketManager.user, users]
  rw [slot]
  exact state

theorem clear_cases {server : ChatServer n} {clearing : Clearing n}
    (ongoing : server.clearing = some clearing) (stage : clearing.stage = .clear) :
    server.StepCase .logic (server.clear clearing) := by
  have state := leaveRoomOnClear_state server.logic clearing.clientIndex
  unfold ChatServer.clear
  dsimp only
  split
  · rename_i none
    exact .keepSlot clearing ongoing stage (state.mp none)
  · rename_i active
    exact .clear clearing ongoing stage (fun none => active (state.mpr none))

theorem drain_cases {server next : ChatServer n} {index : Fin n}
    (quiet : server.clearing = none) (phase : server.phase = .draining index)
    (taken : server.drain index = some next) : server.StepCase .logic next := by
  unfold drain at taken
  dsimp only at taken
  split at taken
  · rename_i nothing
    cases taken
    exact .drained index quiet phase nothing
  · rename_i packet
    obtain ⟨after, received, rfl⟩ := Option.map_eq_some_iff.mp taken
    exact .dispatch index _ quiet phase packet
      (processRecvPacket_received received).storeResult

theorem processPacket_cases {server next : ChatServer n} (quiet : server.clearing = none)
    (taken : server.processPacket = some next) : server.StepCase .logic next := by
  unfold processPacket at taken
  split at taken
  · rename_i phase
    split at taken
    · cases taken
    · cases taken
      exact .swap quiet phase
  · rename_i phase
    split at taken
    · rename_i front
      cases taken
      exact .nextPhase _ quiet (.systemPackets phase front)
    · rename_i packet rest front
      exact .systemPacket packet rest _ quiet phase front (processRecvPacket_received taken)
  · rename_i phase
    split at taken
    · rename_i front
      cases taken
      exact .nextPhase _ quiet (.packetTasks phase front)
    · rename_i task rest front
      split at taken
      · rename_i same
        cases taken
        exact .drainTask task rest quiet phase front same
      · rename_i stale
        cases taken
        exact .skipTask task rest quiet phase front stale
  · rename_i index phase
    exact drain_cases quiet phase taken
  · rename_i phase
    split at taken
    · cases taken
      exact .nextPhase _ quiet (.responses phase)
    · rename_i task rest front
      split at taken
      · cases taken
        exact .dropResponse task rest quiet phase front
      · exact .response task rest _ quiet phase front (processRecvPacket_received taken)

theorem logicStep_cases {server next : ChatServer n}
    (taken : server.logicStep = some next) : server.StepCase .logic next := by
  unfold logicStep at taken
  cases ongoing : server.clearing with
  | none =>
      simp only [ongoing] at taken
      exact processPacket_cases ongoing taken
  | some clearing =>
      simp only [ongoing] at taken
      cases stage : clearing.stage with
      | purge =>
          simp only [stage] at taken
          cases taken
          exact .purge clearing ongoing stage
      | clear =>
          simp only [stage] at taken
          cases taken
          exact clear_cases ongoing stage
      | incrementGeneration =>
          simp only [stage] at taken
          cases taken
          exact .incrementGeneration clearing ongoing stage

theorem redisAnswer_userIndex {task response : RedisTask n} {value : Option Bytes}
    (answered : redisAnswer task value = some response) :
    response.UserIndex = task.UserIndex := by
  obtain ⟨userID, _, answer⟩ := Option.bind_eq_some_iff.mp answered
  cases answer
  rfl

theorem redisAnswer_cases {server next : ChatServer n} {worker : Nat} {value : Option Bytes}
    (taken : server.step (.redisAnswer worker value) = some next) :
    server.StepCase (.redisAnswer worker value) next := by
  simp only [step] at taken
  cases busy : server.workers[worker]? with
  | none =>
      simp only [busy] at taken
      cases taken
  | some task =>
      simp only [busy] at taken
      split at taken
      · obtain ⟨response, answered, rfl⟩ := Option.map_eq_some_iff.mp taken
        refine .redisAnswer worker value task [⟨response, task.connection⟩] busy ?_
        intro queued member
        rw [List.mem_singleton.mp member]
        exact ⟨rfl, redisAnswer_userIndex answered⟩
      · cases taken
        have step := StepCase.redisAnswer worker value task [] busy
          (fun _ member => absurd member List.not_mem_nil)
        rw [List.append_nil] at step
        exact step

/-- The inversion of one step of the server. -/
theorem step_cases {server next : ChatServer n} {event : Event n}
    (taken : server.step event = some next) : server.StepCase event next := by
  cases event with
  | accept index =>
      simp only [step] at taken
      split at taken
      · cases taken
      · rename_i free
        cases taken
        exact .accept index (Bool.eq_false_iff.mpr free)
  | onConnect index =>
      cases taken
      exact .onConnect index
  | close index =>
      simp only [step] at taken
      split at taken
      · rename_i isOpen
        cases taken
        exact .close index isOpen
      · cases taken
  | receive index data =>
      simp only [step] at taken
      split at taken
      · cases taken
      · rename_i idle
        split at taken
        · cases taken
        · rename_i some
          cases taken
          refine .receive index data idle (fun empty => some ?_)
          rw [empty]
          rfl
  | setPacketData index connection =>
      simp only [step] at taken
      split at taken
      · rename_i data given
        cases taken
        exact .setPacketData index connection data given
      · cases taken
  | enqueuePacketData index connection =>
      simp only [step] at taken
      split at taken
      · rename_i written
        cases taken
        exact .enqueuePacketData index connection written
      · cases taken
  | logic => exact logicStep_cases taken
  | redisTake =>
      simp only [step] at taken
      split at taken
      · cases taken
      · rename_i task rest front
        cases taken
        exact .redisTake task rest front
  | redisAnswer worker value => exact redisAnswer_cases taken

/-! ## Small facts about the steps -/

theorem findHandler_sysUserDisconnect {packetId : PacketId}
    (found : PacketManager.findHandler packetId.code = some .processUserDisconnect) :
    packetId = .sysUserDisconnect := by
  cases packetId <;> first | rfl | exact absurd found (by decide)

theorem findHandler_redis (taskID : RedisTaskID) :
    PacketManager.findHandler taskID.code ≠ some .processUserDisconnect := by
  cases taskID <;> decide

/-- What is observed when `ClearConnectionInfo` returns. -/
theorem ended_eq {clearing : Clearing n} {observation : Observation n}
    (member : observation ∈ (if clearing.fromSystem then
      [Observation.disconnected clearing.clientIndex clearing.connection] else [])) :
    observation = .disconnected clearing.clientIndex clearing.connection := by
  split at member
  · exact List.mem_singleton.mp member
  · exact absurd member List.not_mem_nil

theorem Received.trace_eq {server after : ChatServer n} {index : Fin n}
    {packetId packetSize : Nat} {pPacket : Bytes} {connection : Nat} {fromSystem : Bool}
    (received : server.Received index packetId packetSize pPacket connection fromSystem after) :
    after.trace = server.trace := by
  cases received with
  | clears found => rfl
  | handled other logic tasks forwarded same => rfl

section Received

variable {server after : ChatServer n} {index : Fin n} {packetId packetSize : Nat}
  {pPacket : Bytes} {connection : Nat} {fromSystem : Bool}

theorem Received.systemWrite
    (received : server.Received index packetId packetSize pPacket connection fromSystem after) :
    after.mSystemWriteBuffer = server.mSystemWriteBuffer := by
  cases received <;> rfl

theorem Received.systemRead
    (received : server.Received index packetId packetSize pPacket connection fromSystem after) :
    after.mSystemReadBuffer = server.mSystemReadBuffer := by
  cases received <;> rfl

theorem Received.write
    (received : server.Received index packetId packetSize pPacket connection fromSystem after) :
    after.mWriteBuffer = server.mWriteBuffer := by
  cases received <;> rfl

theorem Received.read
    (received : server.Received index packetId packetSize pPacket connection fromSystem after) :
    after.mReadBuffer = server.mReadBuffer := by
  cases received <;> rfl

theorem Received.phase
    (received : server.Received index packetId packetSize pPacket connection fromSystem after) :
    after.phase = server.phase := by
  cases received <;> rfl

end Received

theorem setReceiving_self (server : ChatServer n) (index : Fin n) (connection : Nat)
    (receiving : Option Receiving) :
    (server.setReceiving index connection receiving).receiving index connection = receiving := by
  simp [setReceiving]

theorem setReceiving_of_ne (server : ChatServer n) {index slot : Fin n}
    {connection sender : Nat} (receiving : Option Receiving)
    (different : index ≠ slot ∨ connection ≠ sender) :
    (server.setReceiving slot sender receiving).receiving index connection =
      server.receiving index connection := by
  unfold setReceiving
  dsimp only
  rcases eq_or_ne index slot with rfl | other
  · rw [Function.update_self,
      Function.update_of_ne (different.resolve_left fun other => other rfl)]
  · rw [Function.update_of_ne other]

/-! ## What the logic thread leaves alone -/

/-- The observation is no write of an I/O thread. -/
def NoWrite : Observation n → Prop
  | .written .. => False
  | _ => True

/-- The connections and the calls of `ReceivePacketData` belong to the I/O threads. -/
structure LogicFrame (server next : ChatServer n) : Prop where
  connection : next.connection = server.connection
  isOpen : next.isOpen = server.isOpen
  receiving : next.receiving = server.receiving
  trace : ∃ added, next.trace = server.trace ++ added ∧ ∀ observation ∈ added, NoWrite observation

theorem noWrite_singleton {observation : Observation n} (noWrite : NoWrite observation) :
    ∀ other ∈ [observation], NoWrite other :=
  fun _ member => List.mem_singleton.mp member ▸ noWrite

theorem LogicFrame.endClearing {server next : ChatServer n} (frame : LogicFrame server next)
    (clearing : Clearing n) : LogicFrame server (next.endClearing clearing) := by
  obtain ⟨added, trace, noWrites⟩ := frame.trace
  refine ⟨frame.connection, frame.isOpen, frame.receiving, _,
    (congrArg (· ++ _) trace).trans (List.append_assoc ..), ?_⟩
  intro other member
  rcases List.mem_append.mp member with old | new
  · exact noWrites other old
  · rw [ended_eq new]
    trivial

theorem Received.logicFrame {server middle after : ChatServer n} {index : Fin n}
    {packetId packetSize : Nat} {pPacket : Bytes} {connection : Nat} {fromSystem : Bool}
    (received : middle.Received index packetId packetSize pPacket connection fromSystem after)
    (frame : LogicFrame server middle) : LogicFrame server after := by
  cases received with
  | clears found => exact ⟨frame.connection, frame.isOpen, frame.receiving, frame.trace⟩
  | handled other logic tasks forwarded same =>
      exact ⟨frame.connection, frame.isOpen, frame.receiving, frame.trace⟩

theorem logic_frame {server next : ChatServer n} (taken : server.step .logic = some next) :
    LogicFrame server next := by
  have same {after : ChatServer n} (connection : after.connection = server.connection)
      (isOpen : after.isOpen = server.isOpen) (receiving : after.receiving = server.receiving)
      (trace : after.trace = server.trace) : LogicFrame server after :=
    ⟨connection, isOpen, receiving, [], trace.trans (List.append_nil _).symm,
      fun _ member => absurd member List.not_mem_nil⟩
  cases step_cases taken with
  | purge clearing ongoing stage => exact ⟨rfl, rfl, rfl, _, rfl, noWrite_singleton trivial⟩
  | keepSlot clearing ongoing stage state =>
      have left : LogicFrame server { server with
          logic := server.logic.leaveRoomOnClear clearing.clientIndex } := same rfl rfl rfl rfl
      exact left.endClearing clearing
  | clear clearing ongoing stage state =>
      exact ⟨rfl, rfl, rfl, _, rfl, noWrite_singleton trivial⟩
  | incrementGeneration clearing ongoing stage =>
      have retired : LogicFrame server ({ server with
          logic := { server.logic with
            mUserManager := server.logic.mUserManager.retireGeneration
              clearing.clientIndex } }.observe
          (.retired clearing.clientIndex clearing.connection clearing.fromSystem)) :=
        ⟨rfl, rfl, rfl, _, rfl, noWrite_singleton trivial⟩
      exact retired.endClearing clearing
  | swap quiet phase => exact same rfl rfl rfl rfl
  | nextPhase phase quiet done => exact same rfl rfl rfl rfl
  | systemPacket packet rest after quiet phase front received =>
      exact received.logicFrame (same rfl rfl rfl rfl)
  | drainTask task rest quiet phase front current => exact same rfl rfl rfl rfl
  | skipTask task rest quiet phase front stale =>
      exact ⟨rfl, rfl, rfl, _, rfl, noWrite_singleton trivial⟩
  | drained index quiet phase nothing => exact same rfl rfl rfl rfl
  | dispatch index after quiet phase some received =>
      exact received.logicFrame ⟨rfl, rfl, rfl, _, rfl, noWrite_singleton trivial⟩
  | dropResponse task rest quiet phase front => exact same rfl rfl rfl rfl
  | response task rest after quiet phase front received =>
      exact received.logicFrame ⟨rfl, rfl, rfl, _, rfl, noWrite_singleton trivial⟩

end ChatServer

end IOCPChatServer

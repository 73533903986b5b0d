import IOCPChatServer.Threads.Mailboxes

/-!
# Who may call the handlers of the server

One table of handlers serves the packets of the clients, the entries of
`PushSystemPacket` and the results of Redis.  The drain loop looks no identifier up
before it calls `ProcessRecvPacket`, so what keeps a client away from the handlers of the
server is what its bytes say.
-/

namespace IOCPChatServer

namespace PacketManager

/-- The handlers which are registered for the network and the database layer. -/
def PacketHandler.isReserved : PacketHandler → Bool
  | .processUserConnect => true
  | .processUserDisconnect => true
  | .processLoginDBResult => true
  | _ => false

/-- `ProcessRecvPacket` calls a reserved handler for this identifier. -/
def CallsReserved (packetId : Nat) : Prop :=
  ∃ handler, findHandler packetId = some handler ∧ handler.isReserved = true

/-- The identifiers of the entries which the server pushes. -/
def serverPacketIds : List Nat :=
  [PacketId.sysUserConnect.code, PacketId.sysUserDisconnect.code,
    RedisTaskID.responseLogin.code]

theorem callsReserved_iff (packetId : Nat) :
    CallsReserved packetId ↔ packetId ∈ serverPacketIds := by
  constructor
  · rintro ⟨handler, found, reserved⟩
    obtain ⟨before, after, split, _⟩ := List.lookup_eq_some_iff.mp found
    have entry : (packetId, handler) ∈ mPacketHandlers :=
      split ▸ List.mem_append_right _ List.mem_cons_self
    have all : ∀ entry ∈ mPacketHandlers, entry.2.isReserved = true →
        entry.1 ∈ serverPacketIds := by decide
    exact all _ entry reserved
  · intro member
    unfold serverPacketIds at member
    simp only [List.mem_cons, List.not_mem_nil, or_false] at member
    rcases member with rfl | rfl | rfl
    · exact ⟨.processUserConnect, rfl, rfl⟩
    · exact ⟨.processUserDisconnect, rfl, rfl⟩
    · exact ⟨.processLoginDBResult, rfl, rfl⟩

end PacketManager

namespace ChatServer

variable {n : Nat}

/-- The handlers of the server ran for no packet of a client: neither for one which the
drain loop gave to `ProcessRecvPacket`, nor for the disconnect which is being processed. -/
structure ServesOwnEntries (server : ChatServer n) : Prop where
  dispatched : ∀ index packet connections,
    .dispatched index packet connections ∈ server.trace →
      ¬ PacketManager.CallsReserved packet.PacketId
  clearing : ∀ clearing, server.clearing = some clearing → clearing.fromSystem = true

/-- The bytes at the front of the ring which is being drained are no complete packet with
an identifier of the server. -/
def DrainsClientPackets (server : ChatServer n) (event : Event n) : Prop :=
  event = .logic → server.clearing = none → ∀ index, server.phase = .draining index →
    User.packetFormat.next? (server.user index).bytes ≠ none →
      u16 (server.user index).bytes 2 ∉ PacketManager.serverPacketIds

theorem init_servesOwnEntries (memory : Fin n → Bytes) : (init memory).ServesOwnEntries where
  dispatched := fun _ _ _ member => absurd member List.not_mem_nil
  clearing := nofun

/-- The observation is no packet which the drain loop took. -/
def NoDispatch (observation : Observation n) : Prop :=
  ∀ index packet connections, observation ≠ .dispatched index packet connections

theorem ServesOwnEntries.of_trace {before after : ChatServer n}
    (serves : before.ServesOwnEntries) {added : List (Observation n)}
    (trace : after.trace = before.trace ++ added)
    (silent : ∀ observation ∈ added, NoDispatch observation)
    (clearing : ∀ clearing, after.clearing = some clearing → clearing.fromSystem = true) :
    after.ServesOwnEntries where
  dispatched := by
    intro index packet connections member
    rw [trace, List.mem_append] at member
    rcases member with old | new
    · exact serves.dispatched index packet connections old
    · exact absurd rfl (silent _ new index packet connections)
  clearing := clearing

theorem noDispatch_singleton {observation : Observation n} (silent : NoDispatch observation) :
    ∀ other ∈ [observation], NoDispatch other :=
  fun _ member => List.mem_singleton.mp member ▸ silent

/-- A step outside of the drain loop. -/
theorem ServesOwnEntries.of_same {before after : ChatServer n}
    (serves : before.ServesOwnEntries) (trace : after.trace = before.trace)
    (clearing : after.clearing = before.clearing) : after.ServesOwnEntries :=
  serves.of_trace (trace.trans (List.append_nil _).symm)
    (fun _ member => absurd member List.not_mem_nil) (clearing ▸ serves.clearing)

/-- `ClearConnectionInfo` returns. -/
theorem ServesOwnEntries.endClearing {server : ChatServer n} (serves : server.ServesOwnEntries)
    (clearing : Clearing n) : (server.endClearing clearing).ServesOwnEntries := by
  refine serves.of_trace rfl (fun observation member => ?_) nofun
  rw [ended_eq member]
  exact fun _ _ _ => nofun

/-- An entry which is not of a client's packet, or one whose identifier is not 12. -/
theorem Received.servesOwnEntries {server after : ChatServer n} {index : Fin n}
    {packetId packetSize : Nat} {pPacket : Bytes} {connection : Nat} {fromSystem : Bool}
    (received : server.Received index packetId packetSize pPacket connection fromSystem after)
    (serves : server.ServesOwnEntries)
    (own : PacketManager.findHandler packetId = some .processUserDisconnect →
      fromSystem = true) : after.ServesOwnEntries := by
  cases received with
  | clears found =>
      refine ⟨serves.dispatched, fun clearing started => ?_⟩
      cases started
      exact own found
  | handled other logic tasks forwarded same => exact ⟨serves.dispatched, serves.clearing⟩

/-- The identifier of the packet which the drain loop takes is in the header at the front
of the ring. -/
theorem packetId_eq {server : ChatServer n} {index : Fin n} (ok : server.MailboxOk index) :
    (server.packet index).PacketId =
      if User.packetFormat.next? (server.user index).bytes = none then 0
      else u16 (server.user index).bytes 2 := by
  rcases next : User.packetFormat.next? (server.user index).bytes with _ | ⟨packet, rest⟩
  · rw [(takePacket_of_none ok next).1]
    rfl
  · have info := (takePacket_of_some ok next).info
    obtain ⟨header, _⟩ := FrameFormat.next?_some next
    have front : u16 ((server.user index).bytes.take packetHeaderLength) 2 =
        u16 (server.user index).bytes 2 := by
      generalize (server.user index).bytes = queued at header
      match queued, header with
      | a :: b :: c :: d :: e :: rest, _ => rfl
    rw [if_neg nofun, ← front]
    exact congrArg PacketInfo.PacketId info

/-- The drain loop hands a packet over. -/
theorem dispatch_servesOwnEntries_iff {server after : ChatServer n} {index : Fin n}
    (ok : server.MailboxOk index) (serves : server.ServesOwnEntries)
    (quiet : server.clearing = none) (phase : server.phase = .draining index)
    (some : (server.packet index).PacketId ≠ 0)
    (received : (server.dispatch index).Received index (server.packet index).PacketId
      (server.packet index).DataSize (server.packet index).pDataPtr (server.sender index) false
      after) :
    after.ServesOwnEntries ↔ server.DrainsClientPackets .logic := by
  have id := packetId_eq ok
  have complete : User.packetFormat.next? (server.user index).bytes ≠ none := by
    intro nothing
    rw [if_pos nothing] at id
    exact some id
  rw [if_neg complete] at id
  have history := received.trace_eq
  constructor
  · intro good _ _ other draining _
    cases phase.symm.trans draining
    rw [← id, ← PacketManager.callsReserved_iff]
    refine good.dispatched index (server.handedPacket index)
      (server.packetConnections index) ?_
    rw [history]
    exact List.mem_append_right _ (List.mem_singleton_self _)
  · intro drains
    have allowed : ¬ PacketManager.CallsReserved (server.packet index).PacketId := by
      rw [PacketManager.callsReserved_iff, id]
      exact drains rfl quiet index phase complete
    have dispatched : (server.dispatch index).ServesOwnEntries := by
      refine ⟨fun slot packet connections member => ?_, serves.clearing⟩
      rcases List.mem_append.mp member with old | new
      · exact serves.dispatched slot packet connections old
      · cases List.mem_singleton.mp new
        exact allowed
    exact received.servesOwnEntries dispatched fun found =>
      absurd ⟨_, found, rfl⟩ allowed

/-- From a good state a step ends in a good state just when it does not drain a packet
with an identifier of the server. -/
theorem servesOwnEntries_step_iff {server next : ChatServer n} {event : Event n}
    (ok : ∀ slot, server.MailboxOk slot) (serves : server.ServesOwnEntries)
    (taken : server.step event = some next) :
    next.ServesOwnEntries ↔ server.DrainsClientPackets event := by
  have free (good : next.ServesOwnEntries) (other : event ≠ .logic) :
      next.ServesOwnEntries ↔ server.DrainsClientPackets event :=
    ⟨fun _ logic => absurd logic other, fun _ => good⟩
  have clears {clearing : Clearing n} (good : next.ServesOwnEntries)
      (ongoing : server.clearing = some clearing) :
      next.ServesOwnEntries ↔ server.DrainsClientPackets event :=
    ⟨fun _ _ quiet => (nomatch quiet.symm.trans ongoing), fun _ => good⟩
  have elsewhere {phase : Phase n} (good : next.ServesOwnEntries) (is : server.phase = phase)
      (other : ∀ index, phase ≠ .draining index) :
      next.ServesOwnEntries ↔ server.DrainsClientPackets event :=
    ⟨fun _ _ _ index draining => absurd (is.symm.trans draining) (other index), fun _ => good⟩
  cases step_cases taken with
  | accept index closed => exact free (serves.of_same rfl rfl) nofun
  | onConnect index => exact free (serves.of_same rfl rfl) nofun
  | close index isOpen => exact free (serves.of_same rfl rfl) nofun
  | receive index data idle nonempty => exact free (serves.of_same rfl rfl) nofun
  | setPacketData index connection data given =>
      refine free (serves.of_trace rfl (noDispatch_singleton ?_) serves.clearing) nofun
      exact fun _ _ _ => nofun
  | enqueuePacketData index connection written => exact free (serves.of_same rfl rfl) nofun
  | purge clearing ongoing stage =>
      refine clears (serves.of_trace rfl (noDispatch_singleton fun _ _ _ => nofun) ?_) ongoing
      intro after started
      cases started
      exact serves.clearing clearing ongoing
  | keepSlot clearing ongoing stage state =>
      have left : ({ server with
          logic := server.logic.leaveRoomOnClear clearing.clientIndex } :
            ChatServer n).ServesOwnEntries := serves.of_same rfl rfl
      exact clears (left.endClearing clearing) ongoing
  | clear clearing ongoing stage state =>
      refine clears (serves.of_trace rfl (noDispatch_singleton fun _ _ _ => nofun) ?_) ongoing
      intro after started
      cases started
      exact serves.clearing clearing ongoing
  | incrementGeneration clearing ongoing stage =>
      have retired : ({ server with
          logic := { server.logic with
            mUserManager := server.logic.mUserManager.retireGeneration
              clearing.clientIndex } }.observe (.retired clearing.clientIndex
                clearing.connection clearing.fromSystem)).ServesOwnEntries :=
        serves.of_trace rfl (noDispatch_singleton fun _ _ _ => nofun) serves.clearing
      exact clears (retired.endClearing clearing) ongoing
  | swap quiet phase => exact elsewhere (serves.of_same rfl rfl) phase fun _ => nofun
  | nextPhase phase quiet done =>
      cases done with
      | systemPackets phase empty =>
          exact elsewhere (serves.of_same rfl rfl) phase fun _ => nofun
      | packetTasks phase empty =>
          exact elsewhere (serves.of_same rfl rfl) phase fun _ => nofun
      | responses phase => exact elsewhere (serves.of_same rfl rfl) phase fun _ => nofun
  | systemPacket packet rest after quiet phase front received =>
      have popped : ({ server with mSystemReadBuffer := rest } :
          ChatServer n).ServesOwnEntries := serves.of_same rfl rfl
      exact elsewhere (received.servesOwnEntries popped fun _ => rfl) phase fun _ => nofun
  | drainTask task rest quiet phase front same =>
      exact elsewhere (serves.of_same rfl rfl) phase fun _ => nofun
  | skipTask task rest quiet phase front stale =>
      refine elsewhere ?_ phase fun _ => nofun
      exact serves.of_trace rfl (noDispatch_singleton fun _ _ _ => nofun) serves.clearing
  | drained index quiet phase nothing =>
      refine ⟨fun _ _ _ other draining complete => ?_, fun _ => serves.of_same rfl rfl⟩
      cases phase.symm.trans draining
      have id := packetId_eq (ok index)
      rw [nothing, if_neg complete] at id
      rw [← id]
      decide
  | dispatch index after quiet phase some received =>
      exact dispatch_servesOwnEntries_iff (ok index) serves quiet phase some received
  | dropResponse task rest quiet phase front =>
      exact elsewhere (serves.of_same rfl rfl) phase fun _ => nofun
  | response task rest after quiet phase front received =>
      refine elsewhere (received.servesOwnEntries ?_ fun found => ?_) phase fun _ => nofun
      · exact serves.of_trace rfl (noDispatch_singleton fun _ _ _ => nofun) serves.clearing
      · exact absurd found (findHandler_redis _)
  | redisTake task rest front => exact free (serves.of_same rfl rfl) nofun
  | redisAnswer worker value task responses busy answered =>
      exact free (serves.of_same rfl rfl) nofun

/--
For every schedule, the handlers of the server serve its own entries only, precisely when
no ring is drained whose front is a complete packet with the identifier 11, 12 or 1002.
-/
theorem servesOwnEntries_iff_drainsClientPackets (memory : Fin n → Bytes)
    (events : List (Event n)) :
    Execution.Always step ServesOwnEntries (init memory) events ↔
      Execution.Throughout step DrainsClientPackets (init memory) events := by
  have preserved : ∀ (server : ChatServer n) event next, (∀ slot, server.MailboxOk slot) →
      server.step event = some next → ∀ slot, next.MailboxOk slot :=
    fun _ _ _ ok taken slot => step_mailboxOk taken (ok slot)
  exact Execution.always_iff_throughout preserved
    (fun _ _ _ ok serves taken => servesOwnEntries_step_iff ok serves taken)
    (init_mailboxOk memory) (init_servesOwnEntries memory) events

/-- A client sends a packet of five bytes with the identifier of `SYS_USER_DISCONNECT`. -/
def forgedDisconnect : List (Event 1) :=
  [.accept 0, .receive 0 [5, 0, 12, 0, 0], .setPacketData 0 1, .enqueuePacketData 0 1,
    .logic, .logic, .logic, .logic]

theorem forgedDisconnect_not_servesOwnEntries :
    ¬ Execution.Always step ServesOwnEntries (init fun _ => []) forgedDisconnect := by
  intro always
  have seen : (Execution.run? step (init fun _ => []) forgedDisconnect).map
      (fun last => last.clearing) = some (some ⟨0, 1, false, .purge⟩) := by decide +kernel
  obtain ⟨last, serves, observed⟩ := always.observed seen
  exact absurd (serves.clearing _ observed) (by decide)

end ChatServer

end IOCPChatServer

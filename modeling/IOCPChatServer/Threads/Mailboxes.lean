import IOCPChatServer.Threads.Steps

/-!
# The reassembly buffers under the threads

What each step does to the mailbox of a slot, which is its reassembly buffer, its
generation and the tags of the bytes.  The tags are those of the bytes which the ring
holds, one for each byte, in every state which a run reaches.
-/

namespace IOCPChatServer

theorem SameMailbox.bytes {before after : User} (same : SameMailbox before after) :
    after.bytes = before.bytes := congrArg RingBuffer.contents same.mPacketDataBuffer

namespace ChatServer

variable {n : Nat}

/-- The ring of the slot is in order, and every byte in it has its tag. -/
structure MailboxOk (server : ChatServer n) (index : Fin n) : Prop where
  valid : (server.user index).mPacketDataBuffer.Valid
  tagged : (server.byteConnections index).length = (server.user index).bytes.length

theorem MailboxOk.of_same {before after : ChatServer n} {index : Fin n}
    (ok : before.MailboxOk index) (same : SameMailbox (before.user index) (after.user index))
    (tags : after.byteConnections index = before.byteConnections index) :
    after.MailboxOk index := by
  refine ⟨?_, ?_⟩
  · rw [same.mPacketDataBuffer]
    exact ok.valid
  · rw [tags, same.bytes]
    exact ok.tagged

theorem init_mailboxOk (memory : Fin n → Bytes) (index : Fin n) :
    (init memory).MailboxOk index := by
  have positive : 0 < maxPacketDataBufferSize := by decide
  exact ⟨⟨positive, positive, fun _ => rfl⟩, rfl⟩

/-! ## Writing -/

theorem user_setPacketData_self (server : ChatServer n) (index : Fin n) (connection : Nat)
    (data : Bytes) :
    (server.setPacketData index connection data).user index =
      (server.user index).setPacketData data :=
  server.logic.user_modifyUser_self index _

theorem user_setPacketData_of_ne (server : ChatServer n) {index slot : Fin n}
    (connection : Nat) (data : Bytes) (different : slot ≠ index) :
    (server.setPacketData index connection data).user slot = server.user slot :=
  server.logic.user_modifyUser_of_ne _ different

theorem byteConnections_setPacketData_self (server : ChatServer n) (index : Fin n)
    (connection : Nat) (data : Bytes) :
    (server.setPacketData index connection data).byteConnections index =
      server.byteConnections index ++
        List.replicate ((server.user index).mPacketDataBuffer.write data).1 connection :=
  Function.update_self ..

theorem byteConnections_setPacketData_of_ne (server : ChatServer n) {index slot : Fin n}
    (connection : Nat) (data : Bytes) (different : slot ≠ index) :
    (server.setPacketData index connection data).byteConnections slot =
      server.byteConnections slot :=
  Function.update_of_ne different ..

theorem setPacketData_mailboxOk {server : ChatServer n} {slot : Fin n}
    (ok : server.MailboxOk slot) (index : Fin n) (connection : Nat) (data : Bytes) :
    (server.setPacketData index connection data).MailboxOk slot := by
  rcases eq_or_ne slot index with rfl | different
  · refine ⟨?_, ?_⟩
    · rw [user_setPacketData_self]
      exact User.valid_setPacketData ok.valid data
    · rw [user_setPacketData_self, byteConnections_setPacketData_self,
        User.bytes_setPacketData ok.valid, RingBuffer.write_count ok.valid,
        List.length_append, List.length_append, List.length_replicate, List.length_take,
        ok.tagged, User.bytes, RingBuffer.length_contents]
      omega
  · refine ok.of_same ?_ (server.byteConnections_setPacketData_of_ne connection data different)
    rw [server.user_setPacketData_of_ne connection data different]
    exact .refl _

/-! ## Taking a packet -/

/-- `GetPacket` leaves everything as it is while no packet is complete. -/
theorem takePacket_of_none {server : ChatServer n} {index : Fin n}
    (ok : server.MailboxOk index)
    (nothing : User.packetFormat.next? (server.user index).bytes = none) :
    server.packet index = {} ∧ server.takePacket index = server := by
  have got := User.getPacket_of_none ok.valid nothing
  refine ⟨congrArg Prod.fst got, ?_⟩
  unfold takePacket
  rw [got]
  dsimp only
  rw [Nat.sub_self, List.drop_zero, Function.update_eq_self]
  have slot : server.logic.modifyUser index (fun _ => server.user index) = server.logic := by
    unfold PacketManager.modifyUser UserManager.modifyUser
    rw [show server.user index = server.logic.mUserManager.mUserObjPool index from rfl,
      Function.update_eq_self]
  rw [slot]

/-- What taking the first complete packet off the ring of a slot does. -/
structure TookPacket (server : ChatServer n) (index : Fin n) (packet rest : Bytes) : Prop where
  info : server.handedPacket index =
    ⟨u16 ((server.user index).bytes.take packetHeaderLength) 2, packet.length, packet⟩
  split : (server.user index).bytes = packet ++ rest
  bytes : ((server.takePacket index).user index).bytes = rest
  mGeneration : ((server.takePacket index).user index).mGeneration =
    (server.user index).mGeneration
  tags : (server.takePacket index).byteConnections index =
    (server.byteConnections index).drop packet.length
  valid : ((server.takePacket index).user index).mPacketDataBuffer.Valid

theorem takePacket_of_some {server : ChatServer n} {index : Fin n} {packet rest : Bytes}
    (ok : server.MailboxOk index)
    (next : User.packetFormat.next? (server.user index).bytes = some (packet, rest)) :
    server.TookPacket index packet rest := by
  obtain ⟨got, left, split⟩ := User.getPacket_of_some ok.valid next
  have user : (server.takePacket index).user index = (server.user index).getPacket.2 :=
    server.logic.user_modifyUser_self index _
  have size : (server.user index).mPacketDataBuffer.size = packet.length + rest.length := by
    rw [← List.length_append, ← split]
    exact (RingBuffer.length_contents _).symm
  have remaining : ((server.user index).mPacketDataBuffer.read packet.length).2.size =
      rest.length := by
    rw [← left]
    exact (RingBuffer.length_contents _).symm
  refine ⟨?_, split, ?_, ?_, ?_, ?_⟩
  · unfold handedPacket ChatServer.packet
    rw [got]
    dsimp only
    rw [List.take_left]
  · rw [user, got]
    exact left
  · rw [user, got]
  · unfold takePacket
    rw [got]
    dsimp only
    rw [Function.update_self, size, remaining, Nat.add_sub_cancel]
  · rw [user, got]
    exact ok.valid.read packet.length

/-- A packet and its header are inside the ring. -/
theorem packet_le_tags {server : ChatServer n} {index : Fin n} {packet rest : Bytes}
    (ok : server.MailboxOk index)
    (next : User.packetFormat.next? (server.user index).bytes = some (packet, rest)) :
    max packetHeaderLength packet.length ≤ (server.byteConnections index).length := by
  obtain ⟨header, split⟩ := FrameFormat.next?_some next
  rw [ok.tagged]
  refine Nat.max_le.mpr ⟨header, ?_⟩
  rw [split, List.length_append]
  exact Nat.le_add_right _ _

/-- The packet at the front of a ring which holds bytes of one connection only. -/
theorem packetConnections_eq {server : ChatServer n} {index : Fin n} {packet rest : Bytes}
    {connection : Nat} (ok : server.MailboxOk index)
    (next : User.packetFormat.next? (server.user index).bytes = some (packet, rest))
    (own : ∀ held ∈ server.byteConnections index, held = connection) :
    server.packetConnections index =
      List.replicate (max packetHeaderLength (server.packet index).DataSize) connection := by
  have size : (server.packet index).DataSize = packet.length :=
    congrArg PacketInfo.DataSize (takePacket_of_some ok next).info
  unfold packetConnections
  rw [size]
  exact List.eq_replicate_iff.mpr ⟨List.length_take_of_le (packet_le_tags ok next),
    fun held member => own held (List.mem_of_mem_take member)⟩

theorem takePacket_user_of_ne (server : ChatServer n) {index slot : Fin n}
    (different : slot ≠ index) : (server.takePacket index).user slot = server.user slot :=
  server.logic.user_modifyUser_of_ne _ different

theorem takePacket_tags_of_ne (server : ChatServer n) {index slot : Fin n}
    (different : slot ≠ index) :
    (server.takePacket index).byteConnections slot = server.byteConnections slot :=
  Function.update_of_ne different ..

theorem takePacket_mGeneration (server : ChatServer n) (index slot : Fin n) :
    ((server.takePacket index).user slot).mGeneration = (server.user slot).mGeneration := by
  rcases eq_or_ne slot index with rfl | different
  · have user : (server.takePacket slot).user slot = (server.user slot).getPacket.2 :=
      server.logic.user_modifyUser_self slot _
    rw [user, User.getPacket_mGeneration]
  · rw [server.takePacket_user_of_ne different]

theorem takePacket_mailboxOk {server : ChatServer n} {slot : Fin n}
    (ok : server.MailboxOk slot) (index : Fin n) :
    (server.takePacket index).MailboxOk slot := by
  rcases eq_or_ne slot index with rfl | different
  · rcases next : User.packetFormat.next? (server.user slot).bytes with _ | ⟨packet, rest⟩
    · rw [(takePacket_of_none ok next).2]
      exact ok
    · have took := takePacket_of_some ok next
      refine ⟨took.valid, ?_⟩
      rw [took.tags, took.bytes, List.length_drop, ok.tagged, took.split, List.length_append,
        Nat.add_sub_cancel_left]
  · refine ok.of_same ?_ (server.takePacket_tags_of_ne different)
    rw [server.takePacket_user_of_ne different]
    exact .refl _

/-! ## Clearing -/

theorem clearSlot_self (server : ChatServer n) (clearing : Clearing n) :
    SameMailbox (server.user clearing.clientIndex).clear
      ((server.clearSlot clearing).user clearing.clientIndex) := by
  have kept := server.logic.leaveRoomOnClear_sameMailbox clearing.clientIndex
    clearing.clientIndex
  have cleared : (server.clearSlot clearing).user clearing.clientIndex =
      ((server.logic.leaveRoomOnClear clearing.clientIndex).user clearing.clientIndex).clear :=
    Function.update_self ..
  rw [cleared]
  exact ⟨congrArg RingBuffer.clear kept.mPacketDataBuffer, kept.mGeneration⟩

theorem clearSlot_of_ne (server : ChatServer n) {clearing : Clearing n} {slot : Fin n}
    (different : slot ≠ clearing.clientIndex) :
    SameMailbox (server.user slot) ((server.clearSlot clearing).user slot) := by
  have kept := server.logic.leaveRoomOnClear_sameMailbox clearing.clientIndex slot
  have other : (server.clearSlot clearing).user slot =
      (server.logic.leaveRoomOnClear clearing.clientIndex).user slot :=
    Function.update_of_ne different ..
  rw [other]
  exact kept

theorem clearSlot_tags_self (server : ChatServer n) (clearing : Clearing n) :
    (server.clearSlot clearing).byteConnections clearing.clientIndex = [] :=
  Function.update_self ..

theorem clearSlot_tags_of_ne (server : ChatServer n) {clearing : Clearing n} {slot : Fin n}
    (different : slot ≠ clearing.clientIndex) :
    (server.clearSlot clearing).byteConnections slot = server.byteConnections slot :=
  Function.update_of_ne different ..

theorem clearSlot_mailboxOk {server : ChatServer n} {slot : Fin n}
    (ok : server.MailboxOk slot) (clearing : Clearing n) :
    (server.clearSlot clearing).MailboxOk slot := by
  rcases eq_or_ne slot clearing.clientIndex with rfl | different
  · have cleared := server.clearSlot_self clearing
    refine ⟨?_, ?_⟩
    · rw [cleared.mPacketDataBuffer]
      exact RingBuffer.valid_clear (by decide)
    · rw [clearSlot_tags_self, cleared.bytes, User.bytes_clear]
      rfl
  · exact ok.of_same (server.clearSlot_of_ne different) (server.clearSlot_tags_of_ne different)

theorem incrementGeneration_self (server : ChatServer n) (clearing : Clearing n) :
    (server.incrementGeneration clearing).user clearing.clientIndex =
      (server.user clearing.clientIndex).incrementGeneration :=
  Function.update_self ..

theorem incrementGeneration_of_ne (server : ChatServer n) {clearing : Clearing n}
    {slot : Fin n} (different : slot ≠ clearing.clientIndex) :
    (server.incrementGeneration clearing).user slot = server.user slot :=
  Function.update_of_ne different ..

/-- The generation is not part of the ring. -/
theorem incrementGeneration_ring (server : ChatServer n) (clearing : Clearing n)
    (slot : Fin n) :
    ((server.incrementGeneration clearing).user slot).mPacketDataBuffer =
      (server.user slot).mPacketDataBuffer := by
  rcases eq_or_ne slot clearing.clientIndex with rfl | different
  · rw [incrementGeneration_self]
    rfl
  · rw [server.incrementGeneration_of_ne different]

theorem incrementGeneration_mailboxOk {server : ChatServer n} {slot : Fin n}
    (ok : server.MailboxOk slot) (clearing : Clearing n) :
    (server.incrementGeneration clearing).MailboxOk slot := by
  have ring := server.incrementGeneration_ring clearing slot
  refine ⟨?_, ?_⟩
  · rw [ring]
    exact ok.valid
  · rw [show ((server.incrementGeneration clearing).user slot).bytes =
      (server.user slot).bytes from congrArg RingBuffer.contents ring]
    exact ok.tagged

/-! ## Every step -/

theorem Received.mailbox {server after : ChatServer n} {index : Fin n}
    {packetId packetSize : Nat} {pPacket : Bytes} {connection : Nat} {fromSystem : Bool}
    (received : server.Received index packetId packetSize pPacket connection fromSystem after)
    (slot : Fin n) : SameMailbox (server.user slot) (after.user slot) ∧
      after.byteConnections slot = server.byteConnections slot := by
  cases received with
  | clears found => exact ⟨.refl _, rfl⟩
  | handled other logic tasks forwarded same => exact ⟨same slot, rfl⟩

theorem Received.mailboxOk {server after : ChatServer n} {index slot : Fin n}
    {packetId packetSize : Nat} {pPacket : Bytes} {connection : Nat} {fromSystem : Bool}
    (received : server.Received index packetId packetSize pPacket connection fromSystem after)
    (ok : server.MailboxOk slot) : after.MailboxOk slot :=
  ok.of_same (received.mailbox slot).1 (received.mailbox slot).2

theorem step_mailboxOk {server next : ChatServer n} {event : Event n}
    (taken : server.step event = some next) {slot : Fin n} (ok : server.MailboxOk slot) :
    next.MailboxOk slot := by
  have kept {after : ChatServer n} (user : after.user slot = server.user slot)
      (tags : after.byteConnections slot = server.byteConnections slot) :
      after.MailboxOk slot := ok.of_same (user ▸ .refl _) tags
  cases step_cases taken with
  | accept index free => exact kept rfl rfl
  | onConnect index => exact kept rfl rfl
  | close index isOpen => exact kept rfl rfl
  | receive index data idle nonempty => exact kept rfl rfl
  | setPacketData index connection data given =>
      have wrote := setPacketData_mailboxOk ok index connection data
      exact ⟨wrote.valid, wrote.tagged⟩
  | enqueuePacketData index connection written => exact kept rfl rfl
  | purge clearing ongoing stage => exact kept rfl rfl
  | keepSlot clearing ongoing stage state =>
      exact ok.of_same (server.logic.leaveRoomOnClear_sameMailbox _ slot) rfl
  | clear clearing ongoing stage state => exact clearSlot_mailboxOk ok clearing
  | incrementGeneration clearing ongoing stage =>
      exact incrementGeneration_mailboxOk ok clearing
  | swap quiet phase => exact kept rfl rfl
  | nextPhase phase quiet done => exact kept rfl rfl
  | systemPacket packet rest after quiet phase front received =>
      exact received.mailboxOk (kept rfl rfl)
  | drainTask task rest quiet phase front same => exact kept rfl rfl
  | skipTask task rest quiet phase front stale => exact kept rfl rfl
  | drained index quiet phase nothing =>
      have took := takePacket_mailboxOk ok index
      exact ⟨took.valid, took.tagged⟩
  | dispatch index after quiet phase some received =>
      have took := takePacket_mailboxOk ok index
      have dispatched : (server.dispatch index).MailboxOk slot := ⟨took.valid, took.tagged⟩
      exact received.mailboxOk dispatched
  | dropResponse task rest quiet phase front => exact kept rfl rfl
  | response task rest after quiet phase front received =>
      exact received.mailboxOk (kept rfl rfl)
  | redisTake task rest front => exact kept rfl rfl
  | redisAnswer worker value task responses busy answered => exact kept rfl rfl

theorem always_mailboxOk (memory : Fin n → Bytes) (events : List (Event n)) :
    Execution.Always step (fun server => ∀ slot, server.MailboxOk slot) (init memory) events := by
  have preserved : ∀ server event next, (∀ slot : Fin n, MailboxOk server slot) →
      step server event = some next → ∀ slot, next.MailboxOk slot :=
    fun _ _ _ ok taken slot => step_mailboxOk taken (ok slot)
  exact Execution.always_of_invariant preserved (init_mailboxOk memory) events

/-- The generation of a slot changes at the end of `DeleteUserInfo` only. -/
theorem step_generation {server next : ChatServer n} {event : Event n}
    (taken : server.step event = some next) (slot : Fin n) :
    (next.user slot).mGeneration = (server.user slot).mGeneration ∨
      ∃ clearing, server.clearing = some clearing ∧ clearing.clientIndex = slot ∧
        clearing.stage = .incrementGeneration ∧ next = server.incrementGeneration clearing := by
  cases step_cases taken with
  | setPacketData index connection data given =>
      refine .inl ?_
      rcases eq_or_ne slot index with rfl | different
      · have user := server.user_setPacketData_self slot connection data
        exact (congrArg User.mGeneration user).trans rfl
      · exact congrArg User.mGeneration
          (server.user_setPacketData_of_ne connection data different)
  | keepSlot clearing ongoing stage state =>
      exact .inl (server.logic.leaveRoomOnClear_sameMailbox _ slot).mGeneration
  | clear clearing ongoing stage state =>
      refine .inl ?_
      rcases eq_or_ne slot clearing.clientIndex with rfl | different
      · exact (server.clearSlot_self clearing).mGeneration
      · exact (server.clearSlot_of_ne different).mGeneration
  | incrementGeneration clearing ongoing stage =>
      rcases eq_or_ne slot clearing.clientIndex with rfl | different
      · exact .inr ⟨clearing, ongoing, rfl, stage, rfl⟩
      · exact .inl (congrArg User.mGeneration (server.incrementGeneration_of_ne different))
  | systemPacket packet rest after quiet phase front received =>
      exact .inl (received.mailbox slot).1.mGeneration
  | drained index quiet phase nothing => exact .inl (server.takePacket_mGeneration index slot)
  | dispatch index after quiet phase some received =>
      exact .inl ((received.mailbox slot).1.mGeneration.trans
        (server.takePacket_mGeneration index slot))
  | response task rest after quiet phase front received =>
      exact .inl (received.mailbox slot).1.mGeneration
  | _ => exact .inl rfl

end ChatServer

end IOCPChatServer

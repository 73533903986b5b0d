import IOCPChatServer.Threads.Mailboxes

/-!
# Whether a dispatched packet is one connection's

`README.md` promises that packets of an earlier connection are never taken for those of
a later one.  The ring of a slot is cleared by `DeleteUserInfo` only, which
`ClearConnectionInfo` skips for a slot in state `NONE`, and `SetPacketData` takes no
notice of generations.  The packets are isolated in every run whose steps keep the
connections apart in the rings.
-/

namespace IOCPChatServer

namespace ChatServer

open Execution

variable {n : Nat}

/-- A dispatched packet consists of bytes of one connection, whose disconnect has not
been processed. -/
def IsolatedObservation (earlier : List (Observation n)) : Observation n → Prop
  | .dispatched index packet connections =>
      ∃ connection,
        connections = List.replicate (max packetHeaderLength packet.DataSize) connection ∧
          .disconnected index connection ∉ earlier
  | _ => True

def Isolated (server : ChatServer n) : Prop := Admits IsolatedObservation server.trace

/-- Bytes are written behind bytes of the same connection only, and not after the
connection's disconnect has cleared the slot; a disconnect which finds the slot in state
`NONE` finds no byte of its connection. -/
def KeepsApart (server : ChatServer n) : Event n → Prop
  | .setPacketData index connection =>
      (∀ held ∈ server.byteConnections index, held = connection) ∧
        .disconnected index connection ∉ server.trace ∧
        server.clearing ≠ some ⟨index, connection, true, .incrementGeneration⟩
  | .logic =>
      match server.clearing with
      | none => True
      | some clearing =>
          clearing.stage = .clear → clearing.fromSystem = true →
            (server.user clearing.clientIndex).mCurDomainState = .none →
              clearing.connection ∉ server.byteConnections clearing.clientIndex
  | _ => True

instance (server : ChatServer n) : (event : Event n) → Decidable (server.KeepsApart event)
  | .setPacketData .. => by unfold KeepsApart; infer_instance
  | .logic => by
      unfold KeepsApart
      cases server.clearing <;> infer_instance
  | .accept _ | .onConnect _ | .close _ | .receive .. | .enqueuePacketData .. | .redisTake |
    .redisAnswer .. => isTrue trivial

/-- The bytes in the rings are of one connection each, and that one's disconnect has not
been processed. -/
structure Separate (server : ChatServer n) : Prop where
  mailboxes : ∀ index, server.MailboxOk index
  same : ∀ index, ∀ held ∈ server.byteConnections index,
    ∀ other ∈ server.byteConnections index, held = other
  alive : ∀ index, ∀ held ∈ server.byteConnections index,
    .disconnected index held ∉ server.trace
  cleared : ∀ clearing, server.clearing = some clearing →
    clearing.stage = .incrementGeneration → clearing.fromSystem = true →
      clearing.connection ∉ server.byteConnections clearing.clientIndex
  isolated : server.Isolated

theorem init_separate (memory : Fin n → Bytes) : (init memory).Separate where
  mailboxes := init_mailboxOk memory
  same := fun _ _ member => absurd member List.not_mem_nil
  alive := fun _ _ member => absurd member List.not_mem_nil
  cleared := fun _ none => nomatch none
  isolated := admits_nil

/-- A step which writes nothing, ends no call of `ClearConnectionInfo` and dispatches
nothing. -/
theorem Separate.of_quiet {before after : ChatServer n} (separate : before.Separate)
    (mailboxes : ∀ index, after.MailboxOk index)
    (tags : ∀ index, after.byteConnections index <:+ before.byteConnections index)
    (clearing : ∀ clearing, after.clearing = some clearing →
      clearing.stage = .incrementGeneration → before.clearing = some clearing)
    {added : List (Observation n)} (trace : after.trace = before.trace ++ added)
    (silent : ∀ observation ∈ added, (∀ index connection,
      observation ≠ .disconnected index connection) ∧
        ∀ earlier, IsolatedObservation earlier observation) : after.Separate where
  mailboxes := mailboxes
  same := fun index held member other member' =>
    separate.same index held ((tags index).subset member) other ((tags index).subset member')
  alive := by
    intro index held member
    rw [trace, List.mem_append]
    rintro (earlier | new)
    · exact separate.alive index held ((tags index).subset member) earlier
    · exact (silent _ new).1 index held rfl
  cleared := fun current ongoing stage fromSystem member =>
    separate.cleared current (clearing current ongoing stage) stage fromSystem
      ((tags _).subset member)
  isolated := by
    unfold Isolated
    rw [trace]
    exact separate.isolated.append_free fun observation member => (silent observation member).2

theorem Separate.of_frame {before after : ChatServer n} (separate : before.Separate)
    (user : after.user = before.user) (tags : after.byteConnections = before.byteConnections)
    (clearing : after.clearing = before.clearing) (trace : after.trace = before.trace) :
    after.Separate := by
  refine separate.of_quiet (fun index => ?_) (fun index => ?_) (fun current ongoing _ => ?_)
    (trace.trans (List.append_nil _).symm) (fun _ member => absurd member List.not_mem_nil)
  · refine (separate.mailboxes index).of_same ?_ (congrFun tags index)
    rw [user]
    exact .refl _
  · exact tags ▸ List.suffix_rfl
  · rw [← clearing]
    exact ongoing

theorem Separate.observe {server : ChatServer n} (separate : server.Separate)
    (observation : Observation n)
    (ends : ∀ index connection, observation ≠ .disconnected index connection)
    (free : ∀ earlier, IsolatedObservation earlier observation) :
    (server.observe observation).Separate := by
  refine separate.of_quiet (fun slot => (separate.mailboxes slot).of_same (.refl _) rfl)
    (fun _ => List.suffix_rfl) (fun _ ongoing _ => ongoing) rfl (fun other member => ?_)
  rw [List.mem_singleton.mp member]
  exact ⟨ends, free⟩

/-- Writing bytes of the connection which the ring holds already. -/
theorem Separate.setPacketData {server : ChatServer n} (separate : server.Separate)
    {index : Fin n} {connection : Nat} (data : Bytes)
    (apart : server.KeepsApart (.setPacketData index connection)) :
    (server.setPacketData index connection data).Separate := by
  obtain ⟨own, alive, open_⟩ := apart
  have tags {slot : Fin n} {held : Nat} (member : held ∈
      (server.setPacketData index connection data).byteConnections slot) :
      held ∈ server.byteConnections slot ∨ slot = index ∧ held = connection := by
    rcases eq_or_ne slot index with rfl | different
    · rw [byteConnections_setPacketData_self, List.mem_append] at member
      exact member.imp_right fun new => ⟨rfl, List.eq_of_mem_replicate new⟩
    · rw [server.byteConnections_setPacketData_of_ne connection data different] at member
      exact .inl member
  have trace : (server.setPacketData index connection data).trace = server.trace ++
      [.written index connection data ((server.user index).mPacketDataBuffer.write data).1] :=
    rfl
  refine ⟨fun slot => setPacketData_mailboxOk (separate.mailboxes slot) index connection data,
    ?_, ?_, ?_, ?_⟩
  · intro slot held member other member'
    rcases tags member with old | ⟨rfl, rfl⟩ <;> rcases tags member' with old' | ⟨same, rfl⟩
    · exact separate.same slot held old other old'
    · exact own held (same ▸ old)
    · exact (own other old').symm
    · rfl
  · intro slot held member
    rw [trace, List.mem_append, List.mem_singleton]
    rintro (earlier | new)
    · rcases tags member with old | ⟨rfl, rfl⟩
      · exact separate.alive slot held old earlier
      · exact alive earlier
    · cases new
  · intro clearing ongoing stage fromSystem member
    rcases tags member with old | ⟨same, same'⟩
    · exact separate.cleared clearing ongoing stage fromSystem old
    · refine open_ ?_
      rw [← same, ← same', ← stage, ← fromSystem]
      exact ongoing
  · exact admits_append_singleton.mpr ⟨separate.isolated, trivial⟩

/-- The end of a call of `ClearConnectionInfo` which leaves no byte of its connection. -/
theorem Separate.endClearing {server : ChatServer n} (separate : server.Separate)
    {clearing : Clearing n} (cleared : clearing.fromSystem = true →
      clearing.connection ∉ server.byteConnections clearing.clientIndex) :
    (server.endClearing clearing).Separate := by
  have trace : (server.endClearing clearing).trace = server.trace ++
      if clearing.fromSystem then [.disconnected clearing.clientIndex clearing.connection]
      else [] := rfl
  refine ⟨fun slot => (separate.mailboxes slot).of_same (.refl _) rfl, separate.same, ?_,
    (fun _ none => nomatch none), ?_⟩
  · intro slot held member
    rw [trace, List.mem_append]
    rintro (earlier | new)
    · exact separate.alive slot held member earlier
    · split at new
      · rename_i fromSystem
        cases List.mem_singleton.mp new
        exact cleared fromSystem member
      · exact absurd new List.not_mem_nil
  · unfold Isolated
    rw [trace]
    refine separate.isolated.append_free fun observation member _ => ?_
    rw [ended_eq member]
    trivial

/-- The packet at the front of a ring is of one connection. -/
theorem Separate.packetConnections {server : ChatServer n} (separate : server.Separate)
    {index : Fin n} {packet rest : Bytes}
    (next : User.packetFormat.next? (server.user index).bytes = some (packet, rest)) :
    ∃ connection, server.packetConnections index =
        List.replicate (max packetHeaderLength (server.packet index).DataSize) connection ∧
      .disconnected index connection ∉ server.trace := by
  have ok := separate.mailboxes index
  have enough := packet_le_tags ok next
  have some : 0 < (server.byteConnections index).length :=
    Nat.lt_of_lt_of_le (Nat.lt_of_lt_of_le (by decide) (Nat.le_max_left _ _)) enough
  obtain ⟨first, member⟩ := List.exists_mem_of_length_pos some
  exact ⟨first, packetConnections_eq ok next fun held other =>
    separate.same index held other first member, separate.alive index first member⟩

theorem Separate.takePacket {server : ChatServer n} (separate : server.Separate)
    (index : Fin n) : (server.takePacket index).Separate := by
  refine separate.of_quiet (fun slot => takePacket_mailboxOk (separate.mailboxes slot) index)
    (fun slot => ?_) (fun _ ongoing _ => ongoing) (List.append_nil _).symm
    (fun _ member => absurd member List.not_mem_nil)
  rcases eq_or_ne slot index with rfl | different
  · rw [show (server.takePacket slot).byteConnections slot = _ from Function.update_self ..]
    exact List.drop_suffix _ _
  · exact server.takePacket_tags_of_ne different ▸ List.suffix_rfl

theorem Separate.dispatch {server : ChatServer n} (separate : server.Separate)
    {index : Fin n} (some : (server.packet index).PacketId ≠ 0) :
    (server.dispatch index).Separate := by
  have took := separate.takePacket index
  rcases next : User.packetFormat.next? (server.user index).bytes with _ | ⟨packet, rest⟩
  · have nothing := (takePacket_of_none (separate.mailboxes index) next).1
    exact absurd (congrArg PacketInfo.PacketId nothing) some
  · obtain ⟨connection, same, alive⟩ := separate.packetConnections next
    refine ⟨fun slot => (took.mailboxes slot).of_same (.refl _) rfl, took.same,
      fun slot held member => ?_, took.cleared,
      admits_append_singleton.mpr ⟨took.isolated, connection, same, alive⟩⟩
    rw [ChatServer.dispatch, ChatServer.observe, List.mem_append, List.mem_singleton]
    rintro (earlier | new)
    · exact took.alive slot held member earlier
    · cases new

theorem Received.separate {server after : ChatServer n} {index : Fin n}
    {packetId packetSize : Nat} {pPacket : Bytes} {connection : Nat} {fromSystem : Bool}
    (received : server.Received index packetId packetSize pPacket connection fromSystem after)
    (separate : server.Separate) : after.Separate := by
  refine separate.of_quiet (fun slot => received.mailboxOk (separate.mailboxes slot))
    (fun slot => ?_) (fun clearing ongoing stage => ?_) ?_
    (fun _ member => absurd member List.not_mem_nil)
  · exact (received.mailbox slot).2 ▸ List.suffix_rfl
  · cases received with
    | clears found =>
        cases ongoing
        cases stage
    | handled other logic tasks forwarded same => exact ongoing
  · rw [List.append_nil]
    cases received with
    | clears found => rfl
    | handled other logic tasks forwarded same => rfl

/-! ## Every step -/

theorem step_separate {server next : ChatServer n} {event : Event n}
    (separate : server.Separate) (apart : server.KeepsApart event)
    (taken : server.step event = some next) : next.Separate := by
  cases step_cases taken with
  | accept index free => exact separate.of_frame rfl rfl rfl rfl
  | onConnect index => exact separate.of_frame rfl rfl rfl rfl
  | close index isOpen => exact separate.of_frame rfl rfl rfl rfl
  | receive index data idle nonempty => exact separate.of_frame rfl rfl rfl rfl
  | setPacketData index connection data given =>
      exact (separate.setPacketData data apart).of_frame rfl rfl rfl rfl
  | enqueuePacketData index connection written => exact separate.of_frame rfl rfl rfl rfl
  | purge clearing ongoing stage =>
      have purged : ({ server with
          mWriteBuffer := server.mWriteBuffer.filter
            (·.value.clientIndex ≠ clearing.clientIndex)
          clearing := some { clearing with stage := .clear } } : ChatServer n).Separate := by
        refine separate.of_quiet (fun slot => (separate.mailboxes slot).of_same (.refl _) rfl)
          (fun _ => List.suffix_rfl) (fun current ongoing stage => ?_) (List.append_nil _).symm
          (fun _ member => absurd member List.not_mem_nil)
        cases ongoing
        cases stage
      exact purged.observe _ (fun _ _ => nofun) (fun _ => trivial)
  | keepSlot clearing ongoing stage state =>
      have left : ({ server with
          logic := server.logic.leaveRoomOnClear clearing.clientIndex } :
            ChatServer n).Separate := by
        refine separate.of_quiet (fun slot => ?_) (fun _ => List.suffix_rfl)
          (fun _ ongoing _ => ongoing) (List.append_nil _).symm
          (fun _ member => absurd member List.not_mem_nil)
        exact (separate.mailboxes slot).of_same
          (server.logic.leaveRoomOnClear_sameMailbox _ slot) rfl
      refine left.endClearing fun fromSystem => ?_
      simp only [KeepsApart, ongoing] at apart
      exact apart stage fromSystem state
  | clear clearing ongoing stage state =>
      have tags (slot : Fin n) :
          (server.clearSlot clearing).byteConnections slot <:+ server.byteConnections slot := by
        rcases eq_or_ne slot clearing.clientIndex with rfl | different
        · rw [clearSlot_tags_self]
          exact List.nil_suffix
        · exact server.clearSlot_tags_of_ne different ▸ List.suffix_rfl
      refine ⟨fun slot => clearSlot_mailboxOk (separate.mailboxes slot) clearing,
        fun slot held member other member' => separate.same slot held
          ((tags slot).subset member) other ((tags slot).subset member'),
        fun slot held member => ?_, fun current ongoing _ _ => ?_,
        admits_append_singleton.mpr ⟨separate.isolated, trivial⟩⟩
      · rw [clearSlot, ChatServer.observe, List.mem_append, List.mem_singleton]
        rintro (earlier | new)
        · exact separate.alive slot held ((tags slot).subset member) earlier
        · cases new
      · cases ongoing
        rw [clearSlot_tags_self]
        exact List.not_mem_nil
  | incrementGeneration clearing ongoing stage =>
      have retired : ({ server with
          logic := { server.logic with
            mUserManager := server.logic.mUserManager.retireGeneration
              clearing.clientIndex } } : ChatServer n).Separate := by
        have kept (slot : Fin n) := step_mailboxOk taken (separate.mailboxes slot)
        exact separate.of_quiet (fun slot => (kept slot).of_same (.refl _) rfl)
          (fun _ => List.suffix_rfl) (fun _ ongoing _ => ongoing) (List.append_nil _).symm
          (fun _ member => absurd member List.not_mem_nil)
      have observed := retired.observe
        (.retired clearing.clientIndex clearing.connection clearing.fromSystem)
        (fun _ _ => nofun) (fun _ => trivial)
      exact observed.endClearing (separate.cleared clearing ongoing stage)
  | swap quiet phase => exact separate.of_frame rfl rfl rfl rfl
  | nextPhase phase quiet done => exact separate.of_frame rfl rfl rfl rfl
  | systemPacket packet rest after quiet phase front received =>
      exact received.separate (separate.of_frame rfl rfl rfl rfl)
  | drainTask task rest quiet phase front same => exact separate.of_frame rfl rfl rfl rfl
  | skipTask task rest quiet phase front stale =>
      have taken : ({ server with mReadBuffer := rest } : ChatServer n).Separate :=
        separate.of_frame rfl rfl rfl rfl
      exact taken.observe _ (fun _ _ => nofun) (fun _ => trivial)
  | drained index quiet phase nothing =>
      exact (separate.takePacket index).of_frame rfl rfl rfl rfl
  | dispatch index after quiet phase some received =>
      exact received.separate (separate.dispatch some)
  | dropResponse task rest quiet phase front => exact separate.of_frame rfl rfl rfl rfl
  | response task rest after quiet phase front received =>
      have taken : ({ server with mResponseTask := rest } : ChatServer n).Separate :=
        separate.of_frame rfl rfl rfl rfl
      exact received.separate (taken.observe _ (fun _ _ => nofun) (fun _ => trivial))
  | redisTake task rest front => exact separate.of_frame rfl rfl rfl rfl
  | redisAnswer worker value task responses busy answered =>
      exact separate.of_frame rfl rfl rfl rfl

/-- Connection 1 sends a packet in two pieces and one more packet, and closes; connection
2 sends a packet. -/
def reconnectRun : List (Event 1) :=
  [.accept 0, .receive 0 [5, 0], .setPacketData 0 1, .enqueuePacketData 0 1,
    .receive 0 [22, 0, 0, 5, 0, 22, 0, 0], .setPacketData 0 1, .enqueuePacketData 0 1] ++
    List.replicate 10 .logic ++ [.close 0] ++ List.replicate 7 .logic ++
    [.accept 0, .receive 0 [5, 0, 22, 0, 0], .setPacketData 0 2, .enqueuePacketData 0 2] ++
    List.replicate 4 .logic

/-- Connection 1 sends two bytes and closes before it has logged in; connection 2 sends
three bytes. -/
def leftoverRun : List (Event 1) :=
  [.accept 0, .receive 0 [5, 0], .setPacketData 0 1, .enqueuePacketData 0 1, .close 0] ++
    List.replicate 9 .logic ++
    [.accept 0, .receive 0 [22, 0, 0], .setPacketData 0 2, .enqueuePacketData 0 2] ++
    List.replicate 4 .logic

end ChatServer

end IOCPChatServer

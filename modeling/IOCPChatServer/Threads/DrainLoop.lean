import IOCPChatServer.Library.Loop
import IOCPChatServer.Threads.Mailboxes

/-!
# The drain loop

The loop of `ProcessPacket` which calls `GetPacket` for one slot until the `PacketId` is 0,
run by the logic thread alone: nobody writes meanwhile.  Handlers run inside the loop, so a
`ClearConnectionInfo` may empty the ring between two packets.
-/

namespace IOCPChatServer

namespace ChatServer

variable {n : Nat}

/-- The loop for one slot; it stands still only when a handler has ended the process. -/
def drainLoop (index : Fin n) : Loop (ChatServer n) where
  step := logicStep
  running server := server.phase = .draining index

/-- The loop is about to call `GetPacket`. -/
def CallsGetPacket (server : ChatServer n) (index : Fin n) : Prop :=
  server.phase = .draining index ∧ server.clearing = none

instance (server : ChatServer n) (index : Fin n) : Decidable (server.CallsGetPacket index) :=
  inferInstanceAs (Decidable (_ ∧ _))

/-- A step of the loop is a step of the logic thread. -/
theorem drainLoop_step {server next : ChatServer n} {index : Fin n}
    (taken : (drainLoop index).step server = some next) : server.step .logic = some next := taken

/-- The mailbox stays in order all along the loop. -/
theorem mailboxOk_of_reaches {server last : ChatServer n} {index : Fin n}
    (reaches : (drainLoop index).Reaches server last) (ok : server.MailboxOk index) :
    last.MailboxOk index := by
  refine reaches.keeps (fun state => state.MailboxOk index) ?_ ok
  intro state next ok _ taken
  exact step_mailboxOk (drainLoop_step taken) ok

/-! ## What one `GetPacket` of the loop does -/

section GetPacket

variable {server : ChatServer n} {index : Fin n}

theorem packetId_of_holdsPacket (ok : server.MailboxOk index)
    (holds : User.HoldsPacket (server.user index).bytes) :
    (server.packet index).PacketId = u16 (server.user index).bytes 2 :=
  (User.packetId_getPacket ok.valid).trans (if_pos holds)

/-- A packet with an identifier was complete. -/
theorem holdsPacket_of_packetId (ok : server.MailboxOk index)
    (some : (server.packet index).PacketId ≠ 0) :
    User.HoldsPacket (server.user index).bytes :=
  not_not.mp fun missing => some ((User.packetId_getPacket ok.valid).trans (if_neg missing))

theorem bytes_takePacket (ok : server.MailboxOk index) :
    ((server.takePacket index).user index).bytes =
      if User.HoldsPacket (server.user index).bytes then
        (server.user index).bytes.drop (u16 (server.user index).bytes 0)
      else (server.user index).bytes := by
  have user : (server.takePacket index).user index = (server.user index).getPacket.2 :=
    server.logic.user_modifyUser_self index _
  rw [user, User.bytes_getPacket ok.valid]

end GetPacket

/-! ## One step of the loop -/

/-- The steps which a `ClearConnectionInfo` still has to make. -/
def clearingSteps (server : ChatServer n) : Nat :=
  match server.clearing.map Clearing.stage with
  | none => 0
  | some .incrementGeneration => 1
  | some .clear => 2
  | some .purge => 3

/-- The ways in which a step of the loop can happen: a part of `ClearConnectionInfo`, the
`GetPacket` which ends the loop, or a packet and its handler. -/
inductive DrainCase (server : ChatServer n) (index : Fin n) : ChatServer n → Prop where
  | clears (next : ChatServer n) (phase : next.phase = .draining index)
      (steps : next.clearingSteps < server.clearingSteps)
      (bytes : (next.user index).bytes = (server.user index).bytes ∨
        (next.user index).bytes = []) : DrainCase server index next
  | drained (calls : server.CallsGetPacket index) (nothing : (server.packet index).PacketId = 0) :
      DrainCase server index { server.takePacket index with phase := .packetTasks }
  | dispatch (next : ChatServer n) (calls : server.CallsGetPacket index)
      (some : (server.packet index).PacketId ≠ 0) (phase : next.phase = .draining index)
      (steps : next.clearingSteps ≤ 3)
      (bytes : (next.user index).bytes = ((server.takePacket index).user index).bytes) :
      DrainCase server index next

theorem drain_step_cases {server next : ChatServer n} {index : Fin n}
    (running : server.phase = .draining index) (taken : server.step .logic = some next) :
    server.DrainCase index next := by
  cases step_cases taken with
  | purge clearing ongoing stage =>
      refine .clears _ running ?_ (Or.inl rfl)
      simp [clearingSteps, purge, ChatServer.observe, ongoing, stage]
  | keepSlot clearing ongoing stage state =>
      refine .clears _ running ?_ (Or.inl ?_)
      · simp [clearingSteps, endClearing, ongoing, stage]
      · exact (server.logic.leaveRoomOnClear_sameMailbox _ index).bytes
  | clear clearing ongoing stage state =>
      refine .clears _ running ?_ ?_
      · simp [clearingSteps, clearSlot, ChatServer.observe, ongoing, stage]
      · rcases eq_or_ne index clearing.clientIndex with rfl | different
        · right
          rw [(server.clearSlot_self clearing).bytes, User.bytes_clear]
        · exact Or.inl (server.clearSlot_of_ne different).bytes
  | incrementGeneration clearing ongoing stage =>
      refine .clears _ running ?_ (Or.inl ?_)
      · simp [clearingSteps, incrementGeneration, endClearing, ongoing, stage]
      · exact congrArg RingBuffer.contents (server.incrementGeneration_ring clearing index)
  | swap quiet phase => exact nomatch running.symm.trans phase
  | nextPhase phase quiet done =>
      cases done with
      | systemPackets before empty => exact nomatch running.symm.trans before
      | packetTasks before empty => exact nomatch running.symm.trans before
      | responses before => exact nomatch running.symm.trans before
  | systemPacket packet rest after quiet phase front received =>
      exact nomatch running.symm.trans phase
  | drainTask task rest quiet phase front same => exact nomatch running.symm.trans phase
  | skipTask task rest quiet phase front stale => exact nomatch running.symm.trans phase
  | drained slot quiet phase nothing =>
      cases running.symm.trans phase
      exact .drained ⟨running, quiet⟩ nothing
  | dispatch slot after quiet phase some received =>
      cases running.symm.trans phase
      refine .dispatch next ⟨running, quiet⟩ some ?_ ?_ (received.mailbox index).1.bytes
      · cases received with
        | clears found => exact running
        | handled other logic tasks forwarded same => exact running
      · cases received with
        | clears found => exact Nat.le_refl 3
        | handled other logic tasks forwarded same =>
            have idle : (server.dispatch index).clearing = none := quiet
            simp [clearingSteps, idle]
  | dropResponse task rest quiet phase front => exact nomatch running.symm.trans phase
  | response task rest after quiet phase front received =>
      exact nomatch running.symm.trans phase

/-! ## What the loop meets -/

/-- What is left of the bytes when some packets with identifiers have been taken off. -/
inductive LeftOf (bytes : Bytes) : Bytes → Prop where
  | all : LeftOf bytes bytes
  | packet {later : Bytes} (left : LeftOf bytes later) (holds : User.HoldsPacket later)
      (some : u16 later 2 ≠ 0) : LeftOf bytes (later.drop (u16 later 0))

/-- The loop meets what is left of the ring at its beginning, or an empty ring. -/
theorem leftOf_of_reaches {server last : ChatServer n} {index : Fin n}
    (ok : server.MailboxOk index) (reaches : (drainLoop index).Reaches server last)
    (running : last.phase = .draining index) :
    (last.user index).bytes = [] ∨ LeftOf (server.user index).bytes (last.user index).bytes := by
  have kept := reaches.keeps (fun state => state.MailboxOk index ∧
    (state.phase = .draining index → (state.user index).bytes = [] ∨
      LeftOf (server.user index).bytes (state.user index).bytes)) ?_ ⟨ok, fun _ => Or.inr .all⟩
  · exact kept.2 running
  · rintro state next ⟨ok, left⟩ running taken
    refine ⟨step_mailboxOk (drainLoop_step taken) ok, fun goesOn => ?_⟩
    cases drain_step_cases running (drainLoop_step taken) with
    | clears _ phase steps bytes =>
        rcases bytes with same | empty
        · rw [same]
          exact left running
        · exact Or.inl empty
    | drained calls nothing => exact nomatch goesOn
    | dispatch _ calls some phase steps bytes =>
        have holds := holdsPacket_of_packetId ok some
        rw [packetId_of_holdsPacket ok holds] at some
        rw [bytes, bytes_takePacket ok, if_pos holds]
        rcases left running with empty | left
        · rw [empty] at holds
          exact absurd holds (by decide)
        · exact Or.inr (left.packet holds some)

/-- A property of an empty ring and of all that is left of the ring holds of all contents
which the loop meets. -/
theorem meets_of_leftOf {holds : Bytes → Prop} {server : ChatServer n} {index : Fin n}
    (ok : server.MailboxOk index) (empty : holds [])
    (left : ∀ later, LeftOf (server.user index).bytes later → holds later) {state : ChatServer n}
    (reaches : (drainLoop index).Reaches server state) (calls : state.CallsGetPacket index) :
    holds (state.user index).bytes := by
  rcases leftOf_of_reaches ok reaches calls.1 with none | some
  · exact none ▸ empty
  · exact left _ some

/-! ## Termination -/

/-- A complete packet with an identifier announces its own header at least. -/
def AnnouncesHeader (bytes : Bytes) : Prop :=
  User.HoldsPacket bytes → u16 bytes 2 ≠ 0 → packetHeaderLength ≤ u16 bytes 0

instance (bytes : Bytes) : Decidable (AnnouncesHeader bytes) :=
  inferInstanceAs (Decidable (_ → _))

/-- A `GetPacket` which returns an identifier removes what the header announces. -/
theorem removes_iff {server : ChatServer n} {index : Fin n} (ok : server.MailboxOk index) :
    ((server.packet index).PacketId ≠ 0 →
      ((server.takePacket index).user index).bytes.length + packetHeaderLength ≤
        (server.user index).bytes.length) ↔
      AnnouncesHeader (server.user index).bytes := by
  by_cases holds : User.HoldsPacket (server.user index).bytes
  · have whole := holds.2
    rw [packetId_of_holdsPacket ok holds, bytes_takePacket ok, if_pos holds, List.length_drop]
    unfold AnnouncesHeader
    constructor
    · intro removes _ some
      have := removes some
      omega
    · intro announces some
      have := announces holds some
      omega
  · exact iff_of_true (fun some => absurd (holdsPacket_of_packetId ok some) holds)
      fun held => absurd held holds

/-- The bytes count more than a whole `ClearConnectionInfo`, since each packet may start one. -/
def drainMeasure (index : Fin n) (server : ChatServer n) : Nat :=
  4 * (server.user index).bytes.length + server.clearingSteps

/-- A step of the loop after which it goes on makes the measure smaller. -/
theorem drainMeasure_lt {server next : ChatServer n} {index : Fin n}
    (ok : server.MailboxOk index)
    (announces : server.CallsGetPacket index → AnnouncesHeader (server.user index).bytes)
    (drains : server.DrainCase index next) (goesOn : next.phase = .draining index) :
    drainMeasure index next < drainMeasure index server := by
  unfold drainMeasure
  cases drains with
  | clears _ phase steps bytes =>
      rcases bytes with same | empty
      · rw [same]
        omega
      · rw [empty, List.length_nil]
        omega
  | drained calls nothing => exact nomatch goesOn
  | dispatch _ calls some phase steps bytes =>
      have removes := (removes_iff ok).mpr (announces calls) some
      rw [bytes]
      unfold packetHeaderLength at removes
      omega

/-- The loop ends, and until then every `GetPacket` with an identifier removes a header at
least. -/
structure DrainTerminates (server : ChatServer n) (index : Fin n) : Prop where
  ends : (drainLoop index).Ends server
  removes : ∀ state, (drainLoop index).Reaches server state → state.CallsGetPacket index →
    (state.packet index).PacketId ≠ 0 →
      ((state.takePacket index).user index).bytes.length + packetHeaderLength ≤
        (state.user index).bytes.length

/-- Every complete packet which the loop meets announces its own header at least, unless its
identifier is 0. -/
def MeetsHeaders (server : ChatServer n) (index : Fin n) : Prop :=
  ∀ state, (drainLoop index).Reaches server state → state.CallsGetPacket index →
    AnnouncesHeader (state.user index).bytes

/-- The loop ends if what it meets announces headers. -/
theorem ends_of_meetsHeaders {server : ChatServer n} {index : Fin n} (ok : server.MailboxOk index)
    (meets : server.MeetsHeaders index) : (drainLoop index).Ends server := by
  refine Loop.ends_of_measure (fun state => state.MailboxOk index ∧ state.MeetsHeaders index)
    (drainMeasure index) ?_ ?_ ⟨ok, meets⟩
  · intro state next kept running taken
    refine ⟨step_mailboxOk (drainLoop_step taken) kept.1, fun last reaches => ?_⟩
    exact kept.2 last (.next running taken reaches)
  · intro state next kept running taken goesOn
    exact drainMeasure_lt kept.1 (kept.2 state (.refl state))
      (drain_step_cases running (drainLoop_step taken)) goesOn

theorem drainTerminates_iff {server : ChatServer n} {index : Fin n} (ok : server.MailboxOk index) :
    server.DrainTerminates index ↔ server.MeetsHeaders index := by
  constructor
  · intro terminates state reaches calls
    exact (removes_iff (mailboxOk_of_reaches reaches ok)).mp
      (terminates.removes state reaches calls)
  · intro meets
    refine ⟨ends_of_meetsHeaders ok meets, fun state reaches calls => ?_⟩
    exact (removes_iff (mailboxOk_of_reaches reaches ok)).mpr (meets state reaches calls)

/-- A ring whose packets with identifiers all announce their own header is drained. -/
theorem drainTerminates_of_leftOf {server : ChatServer n} {index : Fin n}
    (ok : server.MailboxOk index)
    (announce : ∀ later, LeftOf (server.user index).bytes later → AnnouncesHeader later) :
    server.DrainTerminates index :=
  (drainTerminates_iff ok).mpr fun _ reaches calls =>
    meets_of_leftOf ok (by decide) announce reaches calls

/--
In every state of a run in which the loop is about to call `GetPacket`: it ends, removing a
header at least with every packet, precisely when every complete packet which it meets and
which has an identifier announces its own header at least.
-/
theorem always_drainTerminates_iff (memory : Fin n → Bytes) (events : List (Event n)) :
    Execution.Always step (fun server => ∀ index, server.CallsGetPacket index →
      (server.DrainTerminates index ↔ server.MeetsHeaders index)) (init memory) events :=
  (always_mailboxOk memory events).mono fun _ ok index _ => drainTerminates_iff (ok index)

/-! ## A packet without a length -/

/-- The front of the ring is a `SYS_PONG` which announces no byte. -/
structure Hangs (server : ChatServer n) (index : Fin n) : Prop where
  mailbox : server.MailboxOk index
  calls : server.CallsGetPacket index
  complete : User.HoldsPacket (server.user index).bytes
  packetLength : u16 (server.user index).bytes 0 = 0
  packetId : u16 (server.user index).bytes 2 = PacketId.sysPong.code

/-- The handler of `SYS_PONG` does nothing. -/
theorem drain_sysPong {server : ChatServer n} {index : Fin n}
    (packetId : (server.packet index).PacketId = PacketId.sysPong.code) :
    server.drain index =
      some ((server.dispatch index).handled (server.dispatch index).logic
        (server.sender index)) := by
  unfold drain storeResult
  dsimp only
  rw [packetId, if_neg (by decide)]
  rfl

theorem Hangs.progress {server : ChatServer n} {index : Fin n} (hangs : server.Hangs index) :
    server.phase = .draining index ∧
      ∃ next, server.logicStep = some next ∧ next.Hangs index := by
  have packetId := (packetId_of_holdsPacket hangs.mailbox hangs.complete).trans hangs.packetId
  have taken : server.step .logic = some ((server.dispatch index).handled
      (server.dispatch index).logic (server.sender index)) := by
    change server.logicStep = _
    unfold logicStep processPacket
    rw [hangs.calls.2, hangs.calls.1]
    exact drain_sysPong packetId
  have bytes : (((server.dispatch index).handled (server.dispatch index).logic
      (server.sender index)).user index).bytes = (server.user index).bytes := by
    have left := bytes_takePacket hangs.mailbox
    rwa [if_pos hangs.complete, hangs.packetLength, List.drop_zero] at left
  exact ⟨hangs.calls.1, _, taken, {
    mailbox := step_mailboxOk taken hangs.mailbox
    calls := hangs.calls
    complete := bytes.symm ▸ hangs.complete
    packetLength := bytes.symm ▸ hangs.packetLength
    packetId := bytes.symm ▸ hangs.packetId }⟩

theorem Hangs.not_ends {server : ChatServer n} {index : Fin n} (hangs : server.Hangs index) :
    ¬ (drainLoop index).Ends server :=
  Loop.not_ends_of_progress (fun state => state.Hangs index) (fun _ hangs => hangs.progress) hangs

/-- A client sends the header of a `SYS_PONG` with `PacketLength` 0. -/
def pongWithoutLength : List (Event 1) :=
  [.accept 0, .receive 0 [0, 0, 22, 0, 0], .setPacketData 0 1, .enqueuePacketData 0 1,
    .logic, .logic, .logic]

theorem pongWithoutLength_not_drainTerminates :
    ¬ Execution.Always step (fun server => ∀ index, server.CallsGetPacket index →
      server.DrainTerminates index) (init fun _ => []) pongWithoutLength := by
  intro always
  have seen : (Execution.run? step (init fun _ => []) pongWithoutLength).map
      (fun last => (last.phase, last.clearing, (last.user 0).bytes)) =
        some (.draining 0, none, [0, 0, 22, 0, 0]) := by decide +kernel
  obtain ⟨last, ⟨terminates, ok⟩, observed⟩ :=
    (always.and (always_mailboxOk (fun _ => []) pongWithoutLength)).observed seen
  obtain ⟨phase, observed⟩ := Prod.mk.inj observed
  obtain ⟨quiet, bytes⟩ := Prod.mk.inj observed
  have hangs : last.Hangs 0 := by
    refine ⟨ok 0, ⟨phase, quiet⟩, ?_, ?_, ?_⟩
    all_goals
      rw [bytes]
      decide
  exact hangs.not_ends (terminates 0 ⟨phase, quiet⟩).ends

/-! ## Completeness -/

/-- When the loop has ended no complete packet is left in the ring. -/
def DrainsCompletely (server : ChatServer n) (index : Fin n) : Prop :=
  ∀ last, (drainLoop index).Reaches server last → last.phase ≠ .draining index →
    ¬ User.HoldsPacket (last.user index).bytes

/-- A complete packet with the identifier 0 has no complete packet behind it. -/
def StopsAtLast (bytes : Bytes) : Prop :=
  User.HoldsPacket bytes → u16 bytes 2 = 0 → ¬ User.HoldsPacket (bytes.drop (u16 bytes 0))

instance (bytes : Bytes) : Decidable (StopsAtLast bytes) := inferInstanceAs (Decidable (_ → _))

/-- A `GetPacket` which returns no identifier leaves no complete packet. -/
theorem leaves_iff {server : ChatServer n} {index : Fin n} (ok : server.MailboxOk index) :
    ((server.packet index).PacketId = 0 →
      ¬ User.HoldsPacket ((server.takePacket index).user index).bytes) ↔
      StopsAtLast (server.user index).bytes := by
  rw [bytes_takePacket ok]
  by_cases holds : User.HoldsPacket (server.user index).bytes
  · rw [packetId_of_holdsPacket ok holds, if_pos holds]
    exact ⟨fun leaves _ => leaves, fun stops => stops holds⟩
  · rw [if_neg holds]
    exact iff_of_true (fun _ => holds) fun held => absurd held holds

/-- The loop meets no packet with the identifier 0 which has a complete packet behind it. -/
def MeetsNoHiddenPacket (server : ChatServer n) (index : Fin n) : Prop :=
  ∀ state, (drainLoop index).Reaches server state → state.CallsGetPacket index →
    StopsAtLast (state.user index).bytes

/-- The last step of a loop which has ended is a `GetPacket` without an identifier. -/
theorem drained_of_reaches {server last : ChatServer n} {index : Fin n}
    (reaches : (drainLoop index).Reaches server last) (begun : server.phase = .draining index)
    (ended : last.phase ≠ .draining index) :
    ∃ state, (drainLoop index).Reaches server state ∧ state.CallsGetPacket index ∧
      (state.packet index).PacketId = 0 ∧
        (last.user index).bytes = ((state.takePacket index).user index).bytes := by
  induction reaches with
  | refl state => exact absurd begun ended
  | next running taken later ih =>
      rename_i state middle last
      cases drain_step_cases running (drainLoop_step taken) with
      | clears _ phase steps bytes =>
          obtain ⟨final, reaches, found⟩ := ih phase ended
          exact ⟨final, .next running taken reaches, found⟩
      | drained calls nothing =>
          refine ⟨state, .refl state, calls, nothing, ?_⟩
          cases later with
          | refl => rfl
          | next goesOn => cases goesOn
      | dispatch _ calls some phase steps bytes =>
          obtain ⟨final, reaches, found⟩ := ih phase ended
          exact ⟨final, .next running taken reaches, found⟩

theorem drainsCompletely_iff {server : ChatServer n} {index : Fin n} (ok : server.MailboxOk index)
    (begun : server.phase = .draining index) :
    server.DrainsCompletely index ↔ server.MeetsNoHiddenPacket index := by
  constructor
  · intro complete state reaches calls
    refine (leaves_iff (mailboxOk_of_reaches reaches ok)).mp fun nothing => ?_
    have taken : state.logicStep = some { state.takePacket index with phase := .packetTasks } := by
      unfold logicStep processPacket
      rw [calls.2, calls.1]
      exact if_pos nothing
    have reached : (drainLoop index).Reaches server
        { state.takePacket index with phase := .packetTasks } := reaches.step calls.1 taken
    have left := complete _ reached nofun
    exact left
  · intro meets last reaches ended
    obtain ⟨state, passed, calls, nothing, bytes⟩ := drained_of_reaches reaches begun ended
    rw [bytes]
    exact (leaves_iff (mailboxOk_of_reaches passed ok)).mpr (meets state passed calls) nothing

/-- A ring in which no packet with the identifier 0 hides another one is drained completely. -/
theorem drainsCompletely_of_leftOf {server : ChatServer n} {index : Fin n}
    (ok : server.MailboxOk index) (begun : server.phase = .draining index)
    (stops : ∀ later, LeftOf (server.user index).bytes later → StopsAtLast later) :
    server.DrainsCompletely index :=
  (drainsCompletely_iff ok begun).mpr fun _ reaches calls =>
    meets_of_leftOf ok (by decide) stops reaches calls

/--
In every state of a run in which the loop is about to call `GetPacket`: it leaves no complete
packet behind, precisely when no packet with the identifier 0 which it meets has a complete
packet behind it.
-/
theorem always_drainsCompletely_iff (memory : Fin n → Bytes) (events : List (Event n)) :
    Execution.Always step (fun server => ∀ index, server.CallsGetPacket index →
      (server.DrainsCompletely index ↔ server.MeetsNoHiddenPacket index)) (init memory) events :=
  (always_mailboxOk memory events).mono fun _ ok index calls =>
    drainsCompletely_iff (ok index) calls.1

/-- A client sends a packet with `PacketId` 0 and a `SYS_PONG` behind it. -/
def pongBehindZero : List (Event 1) :=
  [.accept 0, .receive 0 [5, 0, 0, 0, 0, 5, 0, 22, 0, 0], .setPacketData 0 1,
    .enqueuePacketData 0 1, .logic, .logic, .logic]

theorem pongBehindZero_not_drainsCompletely :
    ¬ Execution.Always step (fun server => ∀ index, server.CallsGetPacket index →
      server.DrainsCompletely index) (init fun _ => []) pongBehindZero := by
  intro always
  have seen : (Execution.run? step (init fun _ => []) pongBehindZero).map (fun last =>
      (last.phase, last.clearing, last.logicStep.map fun next =>
        (next.phase, (next.user 0).bytes))) =
          some (.draining 0, none, some (.packetTasks, [5, 0, 22, 0, 0])) := by decide +kernel
  obtain ⟨last, complete, observed⟩ := always.observed seen
  obtain ⟨phase, observed⟩ := Prod.mk.inj observed
  obtain ⟨quiet, observed⟩ := Prod.mk.inj observed
  obtain ⟨next, taken, observed⟩ := Option.map_eq_some_iff.mp observed
  obtain ⟨ended, bytes⟩ := Prod.mk.inj observed
  have reaches : (drainLoop 0).Reaches last next := .next phase taken (.refl next)
  refine complete 0 ⟨phase, quiet⟩ next reaches (ended ▸ nofun) ?_
  rw [bytes]
  decide

end ChatServer

end IOCPChatServer

import IOCPChatServer.Logic.ServiceRefinement

/-!
# What the members of a room are told

Every change of a room and every chat message is handed to MySQL and told to the members of
the room.  Whoever is in a room over some calls is therefore told, once and in the same
order, what the log of these calls says about the room, and two members are told the same.
-/

namespace IOCPChatServer

namespace PacketManager

variable {n : Nat}

/-- The client is in the room after each of the calls. -/
def StaysIn (start : PacketManager n) (calls : List (RecvCall n)) (client : Fin n)
    (room : Int) : Prop :=
  Execution.Throughout recv
    (fun before call => ∀ after, before.recv call = some after →
      (after.user client).InRoom room) start calls

instance (start : PacketManager n) (calls : List (RecvCall n)) (client : Fin n) (room : Int) :
    Decidable (start.StaysIn calls client room) :=
  have (before : PacketManager n) (call : RecvCall n) :
      Decidable (∀ after, before.recv call = some after → (after.user client).InRoom room) :=
    inferInstanceAs (Decidable (∀ after ∈ before.recv call, (after.user client).InRoom room))
  inferInstanceAs (Decidable (Execution.Throughout _ _ _ _))

/-- Whoever is in a room after each request is told the log of the requests. -/
theorem told_foldl {client : Fin n} {room : Int} {service : ChatService n}
    {calls : List (RecvCall n)}
    (inside : Simulation.AfterEach serveCall
      (fun current => (current.session client).room? = some room) service calls) :
    service.Told (calls.foldl serveCall service) client room := by
  induction calls generalizing service with
  | nil => exact .refl service client room
  | cons call rest ih =>
      have first := ChatService.told_serve inside.1
      exact first.trans (ih inside.2)

theorem mysqlTasks_foldl (service : ChatService n) (calls : List (RecvCall n)) :
    service.mysqlTasks <+: (calls.foldl serveCall service).mysqlTasks := by
  induction calls generalizing service with
  | nil => exact List.prefix_refl _
  | cons call rest ih =>
      exact (service.mysqlTasks_prefix call.clientIndex call.request).trans (ih _)

/-- Orderly calls from a state of the invariant. -/
theorem notices_eq_of_intact {start : PacketManager n} (intact : start.Intact)
    {during : List (RecvCall n)}
    (orderly : Simulation.Admissible serveCall OrderlyCall start.service during) :
    ∃ last tasks, Execution.run? recv start during = some last ∧
      last.mysqlTasks = start.mysqlTasks ++ tasks ∧
      ∀ client room, start.StaysIn during client room →
        ∃ packets, packetsTo client last.sentPackets =
            packetsTo client start.sentPackets ++ packets ∧
          ChatService.notices packets = ChatService.transcript room tasks := by
  obtain ⟨last, completed, _, folded⟩ := simulates_recv.run intact orderly
  obtain ⟨tasks, logged⟩ := mysqlTasks_foldl start.service during
  rw [← folded] at logged
  refine ⟨last, tasks, completed, logged.symm, fun client room stays => ?_⟩
  have inside : Simulation.AfterEach serveCall
      (fun current => (current.session client).room? = some room) start.service during := by
    refine simulates_recv.afterEach intact orderly (stays.mono fun before call established => ?_)
    exact fun next taken => (User.room?_session_iff _ _).mpr (established next taken)
  obtain ⟨packets, told, sent, toldTasks, same⟩ := (told_foldl inside).told
  rw [← folded] at sent toldTasks
  obtain rfl : tasks = told := List.append_cancel_left (logged.trans toldTasks)
  exact ⟨packets, sent, same⟩

/-- Orderly calls complete, and leave what is orderly after them. -/
theorem intact_of_orderly (memory : Fin n → Bytes) {calls during : List (RecvCall n)}
    (orderly : Simulation.Admissible serveCall OrderlyCall {} (calls ++ during)) :
    ∃ start, Execution.run? recv (PacketManager.init memory) calls = some start ∧
      start.Intact ∧ Simulation.Admissible serveCall OrderlyCall start.service during := by
  obtain ⟨before, after⟩ := Simulation.admissible_append.mp orderly
  obtain ⟨start, started, intact, served⟩ := simulates_recv.run (intact_init memory) before
  rw [← service_init memory, ← served] at after
  exact ⟨start, started, intact, after⟩

/--
In a run of orderly calls, the notifications which a client gets during calls over which it
stays in a room are those which the log of these calls says about the room.
-/
theorem notices_eq_transcript (memory : Fin n → Bytes) {calls during : List (RecvCall n)}
    (orderly : Simulation.Admissible serveCall OrderlyCall {} (calls ++ during)) :
    ∃ start last tasks, Execution.run? recv (PacketManager.init memory) calls = some start ∧
      Execution.run? recv start during = some last ∧
      last.mysqlTasks = start.mysqlTasks ++ tasks ∧
      ∀ client room, start.StaysIn during client room →
        ∃ packets, packetsTo client last.sentPackets =
            packetsTo client start.sentPackets ++ packets ∧
          ChatService.notices packets = ChatService.transcript room tasks := by
  obtain ⟨start, started, intact, after⟩ := intact_of_orderly memory orderly
  obtain ⟨last, tasks, told⟩ := notices_eq_of_intact intact after
  exact ⟨start, last, tasks, started, told⟩

/-- Somebody enters the room of client 0, says something and leaves. -/
def visit : List (RecvCall 2) :=
  [.roomEnterRequest 1, .roomChatRequest 1 (text ['h', 'i']), .roomLeaveRequest 1]

/-- Both clients are logged in, and client 0 is in room 0. -/
def beforeVisit : List (RecvCall 2) :=
  [loginAccepted 0 (text ['a']), loginAccepted 1 (text ['b']), .roomEnterRequest 0]

theorem notices_eq_transcript_visit :
    ∃ start last tasks packets,
      Execution.run? recv (PacketManager.init fun _ => []) beforeVisit = some start ∧
      Execution.run? recv start visit = some last ∧
      last.mysqlTasks = start.mysqlTasks ++ tasks ∧ start.StaysIn visit 0 0 ∧
      packetsTo 0 last.sentPackets = packetsTo 0 start.sentPackets ++ packets ∧
      ChatService.notices packets = ChatService.transcript 0 tasks ∧
      ChatService.transcript 0 tasks =
        [.roomChatNotify (text ['b']) enteredText, .roomChatNotify (text ['b']) (text ['h', 'i']),
          .roomChatNotify (text ['b']) leftText] := by
  have orderly : Simulation.Admissible serveCall OrderlyCall {} (beforeVisit ++ visit) := by
    decide +kernel
  have there : (Execution.run? recv (PacketManager.init fun _ => []) beforeVisit).map
      (fun start => decide (start.StaysIn visit 0 0)) = some true := by decide +kernel
  have told : ((Execution.run? recv (PacketManager.init fun _ => []) beforeVisit).bind
      fun start => (Execution.run? recv start visit).map fun last =>
        ChatService.transcript 0 (last.mysqlTasks.drop start.mysqlTasks.length)) =
      some [.roomChatNotify (text ['b']) enteredText,
        .roomChatNotify (text ['b']) (text ['h', 'i']),
        .roomChatNotify (text ['b']) leftText] := by
    decide +kernel
  obtain ⟨start, last, tasks, started, completed, logged, notices⟩ :=
    notices_eq_transcript (fun _ => []) orderly
  rw [started, Option.map_some, Option.some.injEq, decide_eq_true_iff] at there
  rw [started, Option.bind_some, completed, Option.map_some, logged, List.drop_left,
    Option.some.injEq] at told
  obtain ⟨packets, sent, same⟩ := notices 0 0 there
  exact ⟨start, last, tasks, packets, started, completed, logged, there, sent, same, told⟩

end PacketManager

end IOCPChatServer

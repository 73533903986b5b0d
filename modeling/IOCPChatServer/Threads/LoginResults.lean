import IOCPChatServer.Logic.Rejection
import IOCPChatServer.Threads.Steps

/-!
# Whose login a Redis result answers

A `PacketTask` carries the generation of its slot, a `RedisTask` carries its client index
only.  A result belongs to the connection which asked in every run which closes no index
while a login of it is on its way through the Redis queues.
-/

namespace IOCPChatServer

namespace ChatServer

open Execution

variable {n : Nat}

/-- A login result is processed for the open connection which asked. -/
def CurrentObservation (_ : List (Observation n)) : Observation n → Prop
  | .loginResult _ _ current => current = true
  | _ => True

def LoginResultsCurrent (server : ChatServer n) : Prop :=
  Admits CurrentObservation server.trace

/-- The logins which wait for Redis, are with a worker, or wait for the logic thread. -/
def loginsInFlight (server : ChatServer n) : List (Tagged (RedisTask n)) :=
  server.mRequestTask ++ server.workers ++ server.mResponseTask

/-- An index is closed while no login of it is in flight, and a login request is forwarded
for the open connection of its index. -/
def AwaitsLogins (server : ChatServer n) : Event n → Prop
  | .close index => ∀ task ∈ server.loginsInFlight, task.value.UserIndex ≠ index
  | .logic => server.clearing = none → ∀ index, server.phase = .draining index →
      server.logic.ForwardsLogin (server.packet index).PacketId
        (server.packet index).DataSize (server.packet index).pDataPtr →
          server.isCurrent index (server.sender index) = true
  | _ => True

instance (server : ChatServer n) : (event : Event n) → Decidable (server.AwaitsLogins event)
  | .close _ => by unfold AwaitsLogins; infer_instance
  | .logic => by unfold AwaitsLogins; infer_instance
  | .accept _ | .onConnect _ | .receive .. | .setPacketData .. | .enqueuePacketData .. |
    .redisTake | .redisAnswer .. => isTrue trivial

/-- Every login in flight is one of an open connection. -/
structure LoginsCurrent (server : ChatServer n) : Prop where
  inFlight : ∀ task ∈ server.loginsInFlight,
    server.isCurrent task.value.UserIndex task.connection = true
  observed : server.LoginResultsCurrent

theorem init_loginsCurrent (memory : Fin n → Bytes) : (init memory).LoginsCurrent where
  inFlight := fun _ member => absurd member List.not_mem_nil
  observed := admits_nil

theorem LoginsCurrent.of_frame {before after : ChatServer n} (current : before.LoginsCurrent)
    (connection : after.connection = before.connection)
    (isOpen : after.isOpen = before.isOpen) (inFlight : ∀ task ∈ after.loginsInFlight,
      task ∈ before.loginsInFlight ∨
        before.isCurrent task.value.UserIndex task.connection = true)
    {added : List (Observation n)} (trace : after.trace = before.trace ++ added)
    (silent : ∀ observation ∈ added, ∀ earlier, CurrentObservation earlier observation) :
    after.LoginsCurrent where
  inFlight := by
    intro task member
    unfold isCurrent
    rw [connection, isOpen]
    rcases inFlight task member with old | new
    · exact current.inFlight task old
    · exact new
  observed := by
    unfold LoginResultsCurrent
    rw [trace]
    exact current.observed.append_free silent

/-- A step which leaves the Redis queues alone. -/
theorem LoginsCurrent.of_same {before after : ChatServer n} (current : before.LoginsCurrent)
    (connection : after.connection = before.connection)
    (isOpen : after.isOpen = before.isOpen)
    (inFlight : after.loginsInFlight = before.loginsInFlight)
    {added : List (Observation n)} (trace : after.trace = before.trace ++ added)
    (silent : ∀ observation ∈ added, ∀ earlier, CurrentObservation earlier observation) :
    after.LoginsCurrent :=
  current.of_frame connection isOpen (fun _ member => .inl (inFlight ▸ member)) trace silent

theorem silent_nil : ∀ observation ∈ ([] : List (Observation n)),
    ∀ earlier, CurrentObservation earlier observation :=
  fun _ member => absurd member List.not_mem_nil

/-- A new connection starts on an index which has no login in flight. -/
theorem LoginsCurrent.accept {server : ChatServer n} (current : server.LoginsCurrent)
    {index : Fin n} (free : server.isOpen index = false) :
    ({ server with
      connection := Function.update server.connection index (server.connection index + 1)
      isOpen := Function.update server.isOpen index true } : ChatServer n).LoginsCurrent where
  inFlight := by
    intro task member
    have same := current.inFlight task member
    have other : task.value.UserIndex ≠ index := by
      rintro rfl
      unfold isCurrent at same
      rw [free, Bool.and_false] at same
      cases same
    unfold isCurrent
    dsimp only
    rw [Function.update_of_ne other, Function.update_of_ne other]
    exact same
  observed := current.observed

/-- A closed index has no login in flight. -/
theorem LoginsCurrent.close {server : ChatServer n} (current : server.LoginsCurrent)
    {index : Fin n} (awaits : server.AwaitsLogins (.close index)) :
    ({ server with
      isOpen := Function.update server.isOpen index false } : ChatServer n).LoginsCurrent where
  inFlight := by
    intro task member
    unfold isCurrent
    dsimp only
    rw [Function.update_of_ne (awaits task member)]
    exact current.inFlight task member
  observed := current.observed

/-- A handler forwards the login request which it was given. -/
theorem Received.loginsCurrent {server after : ChatServer n} {index : Fin n}
    {packetId packetSize : Nat} {pPacket : Bytes} {connection : Nat} {fromSystem : Bool}
    (received : server.Received index packetId packetSize pPacket connection fromSystem after)
    (current : server.LoginsCurrent)
    (open_ : server.logic.ForwardsLogin packetId packetSize pPacket →
      server.isCurrent index connection = true) : after.LoginsCurrent := by
  cases received with
  | clears found => exact current.of_same rfl rfl rfl (List.append_nil _).symm silent_nil
  | handled other logic tasks forwarded same =>
      refine current.of_frame rfl rfl (fun task member => ?_) (List.append_nil _).symm silent_nil
      rw [loginsInFlight, List.append_assoc, List.append_assoc, List.mem_append,
        List.mem_append] at member
      rcases member with old | new | old
      · exact .inl (List.mem_append_left _ (List.mem_append_left _ old))
      · obtain ⟨task, pushed, rfl⟩ := List.mem_map.mp new
        obtain ⟨own, forwards⟩ := forwarded.mem pushed
        refine .inr ?_
        rw [own]
        exact open_ forwards
      · refine .inl ?_
        rw [loginsInFlight, List.append_assoc]
        exact List.mem_append_right _ old

/-! ## Every step -/

theorem findHandler_taskID (taskID : RedisTaskID) :
    PacketManager.findHandler taskID.code ≠ some .processLogin := by
  cases taskID <;> decide

/-- `ClearConnectionInfo` returns. -/
theorem LoginsCurrent.endClearing {server : ChatServer n} (current : server.LoginsCurrent)
    (clearing : Clearing n) : (server.endClearing clearing).LoginsCurrent := by
  refine current.of_same rfl rfl rfl rfl fun observation member earlier => ?_
  rw [ended_eq member]
  trivial

/-- The logins in flight without the first response. -/
theorem loginsInFlight_pop {server : ChatServer n} {task other : Tagged (RedisTask n)}
    {rest : List (Tagged (RedisTask n))} (front : server.mResponseTask = task :: rest)
    (member : other ∈ server.mRequestTask ++ server.workers ++ rest) :
    other ∈ server.loginsInFlight := by
  rw [loginsInFlight, front]
  rcases List.mem_append.mp member with old | later
  · exact List.mem_append_left _ old
  · exact List.mem_append_right _ (List.mem_cons_of_mem _ later)

/-- A worker takes a request. -/
theorem LoginsCurrent.redisTake {server : ChatServer n} (current : server.LoginsCurrent)
    {task : Tagged (RedisTask n)} {rest : List (Tagged (RedisTask n))}
    (front : server.mRequestTask = task :: rest) :
    ({ server with
      mRequestTask := rest
      workers := server.workers ++ [task] } : ChatServer n).LoginsCurrent := by
  refine current.of_frame rfl rfl (fun other member => .inl ?_) (List.append_nil _).symm
    silent_nil
  simp only [loginsInFlight, front, List.mem_append, List.mem_cons, List.not_mem_nil,
    or_false] at member ⊢
  rcases member with (requested | busy | rfl) | answered
  · exact .inl (.inl (.inr requested))
  · exact .inl (.inr busy)
  · exact .inl (.inl (.inl rfl))
  · exact .inr answered

/-- A worker's answers are for the connection of its request. -/
theorem LoginsCurrent.redisAnswer {server : ChatServer n} (current : server.LoginsCurrent)
    {worker : Nat} {task : Tagged (RedisTask n)} {responses : List (Tagged (RedisTask n))}
    (busy : server.workers[worker]? = some task) (answered : Answers task responses) :
    ({ server with
      workers := server.workers.eraseIdx worker
      mResponseTask := server.mResponseTask ++ responses } : ChatServer n).LoginsCurrent := by
  refine current.of_frame rfl rfl (fun other member => ?_) (List.append_nil _).symm silent_nil
  simp only [loginsInFlight, List.mem_append] at member ⊢
  rcases member with (requested | working) | old | new
  · exact .inl (.inl (.inl requested))
  · exact .inl (.inl (.inr (List.mem_of_mem_eraseIdx working)))
  · exact .inl (.inr old)
  · have asked : task ∈ server.loginsInFlight :=
      List.mem_append_left _ (List.mem_append_right _ (List.mem_of_getElem? busy))
    obtain ⟨connection, index⟩ := answered other new
    refine .inr ?_
    rw [connection, index]
    exact current.inFlight task asked

theorem step_loginsCurrent {server next : ChatServer n} {event : Event n}
    (current : server.LoginsCurrent) (awaits : server.AwaitsLogins event)
    (taken : server.step event = some next) : next.LoginsCurrent := by
  have unchanged {after : ChatServer n} (connection : after.connection = server.connection)
      (isOpen : after.isOpen = server.isOpen)
      (inFlight : after.loginsInFlight = server.loginsInFlight)
      (trace : after.trace = server.trace) : after.LoginsCurrent :=
    current.of_same connection isOpen inFlight (trace.trans (List.append_nil _).symm) silent_nil
  have observed {after : ChatServer n} (connection : after.connection = server.connection)
      (isOpen : after.isOpen = server.isOpen)
      (inFlight : after.loginsInFlight = server.loginsInFlight) (observation : Observation n)
      (trace : after.trace = server.trace ++ [observation])
      (silent : ∀ earlier, CurrentObservation earlier observation) : after.LoginsCurrent :=
    current.of_same connection isOpen inFlight trace fun _ member =>
      List.mem_singleton.mp member ▸ silent
  cases step_cases taken with
  | accept index free => exact current.accept free
  | onConnect index => exact unchanged rfl rfl rfl rfl
  | close index isOpen =>
      exact (current.close awaits).of_same rfl rfl rfl (List.append_nil _).symm silent_nil
  | receive index data idle nonempty => exact unchanged rfl rfl rfl rfl
  | setPacketData index connection data given =>
      exact observed rfl rfl rfl _ rfl fun _ => trivial
  | enqueuePacketData index connection written => exact unchanged rfl rfl rfl rfl
  | purge clearing ongoing stage => exact observed rfl rfl rfl _ rfl fun _ => trivial
  | keepSlot clearing ongoing stage state =>
      have left : ({ server with
          logic := server.logic.leaveRoomOnClear clearing.clientIndex } :
            ChatServer n).LoginsCurrent := unchanged rfl rfl rfl rfl
      exact left.endClearing clearing
  | clear clearing ongoing stage state => exact observed rfl rfl rfl _ rfl fun _ => trivial
  | incrementGeneration clearing ongoing stage =>
      have retired : ({ server with
          logic := { server.logic with
            mUserManager := server.logic.mUserManager.retireGeneration
              clearing.clientIndex } }.observe
          (.retired clearing.clientIndex clearing.connection
            clearing.fromSystem)).LoginsCurrent :=
        observed rfl rfl rfl _ rfl fun _ => trivial
      exact retired.endClearing clearing
  | swap quiet phase => exact unchanged rfl rfl rfl rfl
  | nextPhase phase quiet done => exact unchanged rfl rfl rfl rfl
  | systemPacket packet rest after quiet phase front received =>
      refine received.loginsCurrent (unchanged rfl rfl rfl rfl) fun forwards => ?_
      exact absurd forwards.size (by decide)
  | drainTask task rest quiet phase front same => exact unchanged rfl rfl rfl rfl
  | skipTask task rest quiet phase front stale =>
      exact observed rfl rfl rfl _ rfl fun _ => trivial
  | drained index quiet phase nothing => exact unchanged rfl rfl rfl rfl
  | dispatch index after quiet phase some received =>
      exact received.loginsCurrent (observed rfl rfl rfl _ rfl fun _ => trivial)
        fun forwards => awaits quiet index phase
          ⟨forwards.handler, forwards.size, forwards.noTestUser, forwards.notLoggedIn,
            forwards.notFull⟩
  | dropResponse task rest quiet phase front =>
      exact current.of_frame rfl rfl (fun _ member => .inl (loginsInFlight_pop front member))
        (List.append_nil _).symm silent_nil
  | response task rest after quiet phase front received =>
      have first : task ∈ server.loginsInFlight := by
        rw [loginsInFlight, front]
        exact List.mem_append_right _ List.mem_cons_self
      refine received.loginsCurrent ?_ fun forwards =>
        absurd forwards.handler (findHandler_taskID task.value.TaskID)
      refine current.of_frame rfl rfl (fun _ member => .inl (loginsInFlight_pop front member))
        rfl fun _ seen _ => ?_
      rw [List.mem_singleton.mp seen]
      exact current.inFlight task first
  | redisTake task rest front =>
      exact current.redisTake front
  | redisAnswer worker value task responses busy answered =>
      exact current.redisAnswer busy answered

/-- Login results are processed for the connection which asked in every state of a run
which awaits the logins in flight. -/
theorem loginResultsCurrent_of_awaitsLogins (memory : Fin n → Bytes) {events : List (Event n)}
    (awaits : Throughout step AwaitsLogins (init memory) events) :
    Always step LoginResultsCurrent (init memory) events := by
  have current : Always step LoginsCurrent (init memory) events :=
    always_of_throughout
      (fun _ _ _ current awaits taken => step_loginsCurrent current awaits taken)
      (init_loginsCurrent memory) awaits
  exact current.mono fun _ current => current.observed

/-- Connection 1 of the only slot asks for a login, and a worker takes the request. -/
def askForLogin : List (Event 1) :=
  [.accept 0, .receive 0 (RecvCall.loginRequest (0 : Fin 1) (text ['a']) (text ['b'])).pPacket,
    .setPacketData 0 1, .enqueuePacketData 0 1] ++ List.replicate 7 .logic ++ [.redisTake]

/-- The answer is processed before the connection closes. -/
def answeredRun : List (Event 1) :=
  askForLogin ++ [.redisAnswer 0 (some (text ['b']))] ++ List.replicate 5 .logic ++ [.close 0]

theorem answeredRun_loginResultsCurrent :
    Always step LoginResultsCurrent (init fun _ => []) answeredRun :=
  loginResultsCurrent_of_awaitsLogins (fun _ => []) (by decide +kernel)

/-- The connection closes, and the index is accepted again, before the answer. -/
def reusedRun : List (Event 1) :=
  askForLogin ++ [.close 0, .accept 0, .redisAnswer 0 (some (text ['b']))] ++
    List.replicate 7 .logic

/-- Connection 2, which has sent nothing, is logged in and gets the response. -/
theorem reusedRun_not_loginResultsCurrent :
    ¬ Always step LoginResultsCurrent (init fun _ => []) reusedRun := by
  intro always
  have seen : (run? step (init fun _ => []) reusedRun).map
      (fun last => (last.trace.getLast?, (last.user 0).mUserID, last.logic.sentPackets)) =
      some (some (.loginResult 0 1 false), text ['a'], [(0, .loginResponse 0)]) := by
    decide +kernel
  obtain ⟨last, good, observed⟩ := always.observed seen
  obtain ⟨front, split⟩ := List.getLast?_eq_some_iff.mp (Prod.mk.inj observed).1
  have current : false = true := good front _ [] split
  cases current

end ChatServer

end IOCPChatServer

import IOCPChatServer.Library.Execution
import IOCPChatServer.Network.SessionTickets

/-!
# Completions of an earlier connection

A session is reused while operations of its earlier connection are still outstanding.
`WorkerThread` compares generations before it acts on a completion, but only after its
branch for zero bytes, and for a `RECV` it compares the session with what the last
`BindRecv` of the same session stored.
-/

namespace IOCPChatServer

/-- The bytes which the callback hands over for the session of an index. -/
def Callback.data? {n : Nat} (index : Fin n) : Callback n → Option Bytes
  | .onReceive clientIndex data => if clientIndex = index then some data else none
  | _ => none

namespace IOCompletionPort

variable {n : Nat}

/-- What `OnReceive(index)` was called with, in order. -/
def received (port : IOCompletionPort n) (index : Fin n) : List Bytes :=
  port.callbacks.filterMap (Callback.data? index)

/-- The session has been given another socket than the one of the operation. -/
def Reused (port : IOCompletionPort n) (index : Fin n) (socket : Socket) : Prop :=
  ∃ other, (port.client index).m_socketClient = some other ∧ other ≠ socket

/-- The connection of the session is not closed, hears of no data, receives no further
`WSARecv` and keeps its send queue. -/
structure Inert (port next : IOCompletionPort n) (index : Fin n) : Prop where
  socket : (next.client index).m_socketClient = (port.client index).m_socketClient
  connected : (next.client index).mIsConnected = (port.client index).mIsConnected
  received : next.received index = port.received index
  receiving : ∀ socket, (port.client index).m_socketClient = some socket →
    next.kernel.outstanding.count (.recv index socket) =
      port.kernel.outstanding.count (.recv index socket)
  queue : (next.client index).mSendDataqueue = (port.client index).mSendDataqueue

/-- A completion of an earlier connection does nothing to the present one. -/
def StaleInert (port : IOCompletionPort n) (event : Event n) : Prop :=
  ∀ next, port.step event = some next →
    match event with
    | .complete (.recv index socket) _ _ _ => port.Reused index socket → port.Inert next index
    | .complete (.send index socket _) _ _ _ => port.Reused index socket → port.Inert next index
    | _ => True

/-- A `RECV` of an earlier connection is processed before the session is connected again,
with zero bytes or another generation stored than the session's.  A `SEND` of an earlier
connection is processed before that if it has zero bytes, and else has another generation
in its block than the session's. -/
def DropsStale (port : IOCompletionPort n) : Event n → Prop
  | .complete (.recv index socket) dwIoSize _ _ => port.Reused index socket →
      (port.client index).mIsConnected = false ∧
        (dwIoSize ≠ 0 → (port.client index).recvGeneration ≠ (port.client index).mGeneration)
  | .complete (.send index socket block) dwIoSize _ _ => port.Reused index socket →
      if dwIoSize = 0 then (port.client index).mIsConnected = false
      else (port.mSendBufferPool.mAllBlocks block).generation ≠ (port.client index).mGeneration
  | _ => True

/-- `BindRecv` has stored the generation of every connected session. -/
def RecvTagged (port : IOCompletionPort n) : Prop :=
  ∀ index, (port.client index).mIsConnected = true →
    (port.client index).recvGeneration = (port.client index).mGeneration

/-! ## The stored generation -/

theorem RecvTagged.setClient {port : IOCompletionPort n} (tagged : port.RecvTagged)
    {index : Fin n} {session : ClientSession n index}
    (own : session.mIsConnected = true → session.recvGeneration = session.mGeneration) :
    (port.setClient index session).RecvTagged := by
  intro other
  rcases eq_or_ne other index with rfl | different
  · rw [client_setClient_self]
    exact own
  · rw [client_setClient_of_ne port session different]
    exact tagged other

theorem closeSocket_recvTagged {port : IOCompletionPort n} {index : Fin n}
    (others : ∀ other, other ≠ index → (port.client other).mIsConnected = true →
      (port.client other).recvGeneration = (port.client other).mGeneration) :
    (port.closeSocket index).RecvTagged := by
  unfold closeSocket
  split
  · rename_i notConnected
    intro other
    rcases eq_or_ne other index with rfl | different
    · exact fun connected => nomatch connected.symm.trans notConnected
    · exact others other different
  · have closed : ∀ other, ((port.setClient index (port.client index).closed).client
        other).mIsConnected = true →
          ((port.setClient index (port.client index).closed).client other).recvGeneration =
            ((port.setClient index (port.client index).closed).client other).mGeneration := by
      intro other
      rcases eq_or_ne other index with rfl | different
      · rw [client_setClient_self]
        exact nofun
      · rw [client_setClient_of_ne port _ different]
        exact others other different
    exact closed

theorem postNextAccept_recvTagged {port : IOCompletionPort n} (tagged : port.RecvTagged)
    (calls : Winsock) : (port.postNextAccept calls).RecvTagged := by
  unfold postNextAccept popFreeSessionIndex
  cases port.mFreeSessionList.getLast? with
  | none => exact tagged
  | some index =>
      have popped : ({ port with mFreeSessionList := port.mFreeSessionList.dropLast } :
          IOCompletionPort n).RecvTagged := tagged
      have own := popped index
      dsimp only
      refine popped.setClient ?_
      unfold ClientSession.postImmediateAccept
      split
      · split
        · exact own
        · exact own
      · exact own

/-- `BindRecv` stores the generation. -/
theorem bindRecv_generation {index : Fin n} (session : ClientSession n index)
    (kernel : Kernel n) (calls : Winsock) :
    (session.bindRecv kernel calls).2.1.recvGeneration =
      (session.bindRecv kernel calls).2.1.mGeneration := by
  unfold ClientSession.bindRecv
  dsimp only
  split
  · rfl
  · rfl

/-- An accepted session ends with `BindRecv`. -/
theorem acceptCompletion_generation {index : Fin n} {session : ClientSession n index}
    {kernel : Kernel n} {calls : Winsock}
    (accepted : (session.acceptCompletion kernel calls).1 = true) :
    (session.acceptCompletion kernel calls).2.1.recvGeneration =
      (session.acceptCompletion kernel calls).2.1.mGeneration := by
  unfold ClientSession.acceptCompletion at accepted ⊢
  split
  · rename_i refused
    rw [if_pos refused] at accepted
    cases accepted
  · rename_i updated
    rw [if_neg updated] at accepted
    unfold ClientSession.onConnect at accepted ⊢
    dsimp only at accepted ⊢
    split
    · exact bindRecv_generation _ kernel calls
    · rename_i unbound
      rw [if_neg unbound] at accepted
      cases accepted

theorem completeAccept_recvTagged {port : IOCompletionPort n} (tagged : port.RecvTagged)
    (index : Fin n) (calls : Winsock) : (port.completeAccept index calls).RecvTagged := by
  unfold completeAccept
  dsimp only
  refine postNextAccept_recvTagged ?_ calls
  split
  · rename_i accepted
    have answered : (port.setClient index
        ((port.client index).acceptCompletion port.kernel calls).2.1).RecvTagged :=
      tagged.setClient fun _ => acceptCompletion_generation accepted
    exact answered
  · refine closeSocket_recvTagged fun other different => ?_
    rw [client_setKernel, client_setClient_of_ne port _ different]
    exact tagged other

theorem completeRecv_recvTagged {port : IOCompletionPort n} (tagged : port.RecvTagged)
    (index : Fin n) (data : Bytes) (calls : Winsock) :
    (port.completeRecv index data calls).RecvTagged := by
  unfold completeRecv
  split
  · exact tagged
  · have bound : (port.setClient index
        ((port.client index).bindRecv port.kernel calls).2.1).RecvTagged :=
      tagged.setClient fun _ => bindRecv_generation _ port.kernel calls
    exact bound

/-- `SendComplete` changes the queue of the session only. -/
theorem sendComplete_session {index : Fin n} {session after : ClientSession n index}
    {pool pool' : ObjectPool} {kernel kernel' : Kernel n} {calls : Winsock}
    (completed : session.sendComplete pool kernel calls = some (after, pool', kernel')) :
    ∃ block rest, session.mSendDataqueue = block :: rest ∧
      after = { session with mSendDataqueue := rest } ∧ pool' = pool.free block ∧
      kernel' = if rest.isEmpty then kernel else after.sendIO kernel calls := by
  unfold ClientSession.sendComplete at completed
  cases queue : session.mSendDataqueue with
  | nil =>
      rw [queue] at completed
      cases completed
  | cons block rest =>
      rw [queue] at completed
      cases completed
      exact ⟨block, rest, rfl, rfl, rfl, rfl⟩

theorem completeSend_recvTagged {port next : IOCompletionPort n} (tagged : port.RecvTagged)
    {index : Fin n} {block : Nat} {calls : Winsock}
    (completed : port.completeSend index block calls = some next) : next.RecvTagged := by
  unfold completeSend at completed
  split at completed
  · cases completed
    exact tagged
  · obtain ⟨⟨session, pool, kernel⟩, sent, rfl⟩ := Option.map_eq_some_iff.mp completed
    obtain ⟨front, rest, _, popped, _⟩ := sendComplete_session sent
    have kept : (port.setClient index session).RecvTagged :=
      tagged.setClient (popped ▸ tagged index)
    exact kept

/-- `SendMsg` changes the queue of the session only. -/
theorem sendMsg_session {index : Fin n} (session : ClientSession n index) (pool : ObjectPool)
    (kernel : Kernel n) (message : Bytes) (calls : Winsock) :
    ∃ queue, (session.sendMsg pool kernel message calls).2.1 =
      { session with mSendDataqueue := queue } := by
  unfold ClientSession.sendMsg
  cases pool.alloc with
  | none => exact ⟨session.mSendDataqueue, rfl⟩
  | some allocated => exact ⟨_, rfl⟩

theorem recvTagged_step {port next : IOCompletionPort n} {event : Event n}
    (tagged : port.RecvTagged) (taken : port.step event = some next) : next.RecvTagged := by
  cases event with
  | acceptLoop calls =>
      simp only [step] at taken
      split at taken
      · cases taken
      · rename_i left more
        cases taken
        have counted : ({ port with acceptLoop := left } : IOCompletionPort n).RecvTagged := tagged
        exact postNextAccept_recvTagged counted calls
  | sendMsg index message calls =>
      cases taken
      obtain ⟨queue, queued⟩ := sendMsg_session (port.client index) port.mSendBufferPool
        port.kernel message calls
      have kept : (port.setClient index ((port.client index).sendMsg port.mSendBufferPool
          port.kernel message calls).2.1).RecvTagged :=
        tagged.setClient (queued ▸ tagged index)
      exact kept
  | complete operation dwIoSize recvBuff calls =>
      simp only [step] at taken
      split at taken
      · have dequeued : (port.dequeue operation).RecvTagged := tagged
        cases operation with
        | accept index =>
            cases taken
            exact completeAccept_recvTagged dequeued index calls
        | recv index socket =>
            simp only [complete] at taken
            split at taken
            · cases taken
              exact closeSocket_recvTagged fun other _ => dequeued other
            · cases taken
              exact completeRecv_recvTagged dequeued index _ calls
        | send index socket block =>
            simp only [complete] at taken
            split at taken
            · cases taken
              exact closeSocket_recvTagged fun other _ => dequeued other
            · exact completeSend_recvTagged dequeued taken
      · cases taken

/-! ## What a completion of an earlier connection does -/

/-- `CloseSocket` is inert for a session which is not connected. -/
theorem closeSocket_inert_iff (port : IOCompletionPort n) (index : Fin n) :
    port.Inert (port.closeSocket index) index ↔ (port.client index).mIsConnected = false := by
  constructor
  · intro inert
    by_contra connected
    have closed : ((port.closeSocket index).client index).mIsConnected = false := by
      unfold closeSocket
      rw [if_neg connected]
      exact congrArg ClientSession.mIsConnected (client_setClient_self port index _)
    exact connected (inert.connected.symm.trans closed)
  · intro notConnected
    unfold closeSocket
    rw [if_pos notConnected]
    exact ⟨rfl, rfl, rfl, fun _ _ => rfl, rfl⟩

/-- A processed `RECV` is inert when the stored generation is not the session's. -/
theorem completeRecv_inert_iff (port : IOCompletionPort n) (index : Fin n) (data : Bytes)
    (calls : Winsock) :
    port.Inert (port.completeRecv index data calls) index ↔
      (port.client index).recvGeneration ≠ (port.client index).mGeneration := by
  unfold completeRecv
  split
  · rename_i stale
    exact ⟨fun _ => stale, fun _ => ⟨rfl, rfl, rfl, fun _ _ => rfl, rfl⟩⟩
  · rename_i current
    refine ⟨fun inert => ?_, fun stale => absurd stale current⟩
    have heard : (port.call (.onReceive index data)).received index =
        port.received index ++ [data] := by
      unfold received call
      rw [List.filterMap_append]
      simp [Callback.data?]
    have longer := congrArg List.length (heard.symm.trans inert.received)
    rw [List.length_append, List.length_singleton] at longer
    omega

/-- A processed `SEND` is inert when the generation of its block is not the session's. -/
theorem completeSend_inert_iff {port next : IOCompletionPort n} {index : Fin n} {block : Nat}
    {calls : Winsock} (completed : port.completeSend index block calls = some next) :
    port.Inert next index ↔
      (port.mSendBufferPool.mAllBlocks block).generation ≠ (port.client index).mGeneration := by
  unfold completeSend at completed
  split at completed
  · rename_i stale
    cases completed
    exact ⟨fun _ => stale, fun _ => ⟨rfl, rfl, rfl, fun _ _ => rfl, rfl⟩⟩
  · rename_i current
    refine ⟨fun inert => ?_, fun stale => absurd stale current⟩
    obtain ⟨⟨session, pool, kernel⟩, sent, rfl⟩ := Option.map_eq_some_iff.mp completed
    obtain ⟨front, rest, queue, popped, _⟩ := sendComplete_session sent
    have kept : ((port.setClient index session).client index).mSendDataqueue = front :: rest :=
      queue ▸ inert.queue
    rw [client_setClient_self, popped] at kept
    exact absurd kept.symm (List.cons_ne_self front rest)

/-- Taking a completion of an earlier connection off the queue is inert itself. -/
theorem inert_dequeue_iff {port next : IOCompletionPort n} {index : Fin n}
    {operation : Operation n}
    (other : ∀ socket, (port.client index).m_socketClient = some socket →
      operation ≠ .recv index socket) :
    (port.dequeue operation).Inert next index ↔ port.Inert next index := by
  have same (socket : Socket) (present : (port.client index).m_socketClient = some socket) :
      (port.dequeue operation).kernel.outstanding.count (.recv index socket) =
        port.kernel.outstanding.count (.recv index socket) :=
    List.count_erase_of_ne (Ne.symm (other socket present))
  constructor
  · intro inert
    exact ⟨inert.socket, inert.connected, inert.received,
      fun socket present => (inert.receiving socket present).trans (same socket present),
      inert.queue⟩
  · intro inert
    exact ⟨inert.socket, inert.connected, inert.received,
      fun socket present => (inert.receiving socket present).trans (same socket present).symm,
      inert.queue⟩

/-- A step is inert for later connections just when it drops stale completions. -/
theorem staleInert_step_iff {port next : IOCompletionPort n} {event : Event n}
    (tagged : port.RecvTagged) (taken : port.step event = some next) :
    port.StaleInert event ↔ port.DropsStale event := by
  have only {holds : IOCompletionPort n → Prop} :
      (∀ other, port.step event = some other → holds other) ↔ holds next := by
    constructor
    · exact fun all => all next taken
    · intro here other reached
      cases taken.symm.trans reached
      exact here
  cases event with
  | acceptLoop calls => exact ⟨fun _ => trivial, fun _ _ _ => trivial⟩
  | sendMsg index message calls => exact ⟨fun _ => trivial, fun _ _ _ => trivial⟩
  | complete operation dwIoSize recvBuff calls =>
      have started := taken
      simp only [step] at started
      split at started
      · cases operation with
        | accept index => exact ⟨fun _ => trivial, fun _ _ _ => trivial⟩
        | recv index socket =>
            refine only.trans (forall_congr' fun reused => ?_)
            obtain ⟨other, present, different⟩ := reused
            have stale : ∀ current, (port.client index).m_socketClient = some current →
                Operation.recv index socket ≠ .recv index current := by
              rintro current now same
              cases same
              exact different (Option.some.inj (present.symm.trans now))
            rw [← inert_dequeue_iff stale]
            simp only [complete] at started
            split at started
            · rename_i zero
              cases started
              rw [closeSocket_inert_iff]
              exact ⟨fun closed => ⟨closed, fun notZero => absurd zero notZero⟩, And.left⟩
            · rename_i notZero
              cases started
              rw [completeRecv_inert_iff]
              refine ⟨fun dropped => ⟨?_, fun _ => dropped⟩, fun both => both.2 notZero⟩
              exact (Bool.not_eq_true _).mp fun connected => dropped (tagged index connected)
        | send index socket block =>
            refine only.trans (forall_congr' fun reused => ?_)
            have never : ∀ current, (port.client index).m_socketClient = some current →
                Operation.send index socket block ≠ .recv index current := by
              intro current _ same
              cases same
            rw [← inert_dequeue_iff never]
            simp only [complete] at started
            split at started
            · rename_i zero
              cases started
              rw [if_pos zero, closeSocket_inert_iff]
              exact Iff.rfl
            · rename_i notZero
              rw [if_neg notZero, completeSend_inert_iff started]
              exact Iff.rfl
      · cases started

theorem recvTagged_startServer (n : Nat) : (startServer n).RecvTagged := fun _ => nofun

/--
In a run every completion of an earlier connection is inert precisely when it is dropped:
a `RECV` never reaches a session which is connected again, with whatever size; a `SEND`
reaches one with bytes and under another generation only.
-/
theorem staleInert_iff_dropsStale (n : Nat) (events : List (Event n)) :
    Execution.Throughout step StaleInert (startServer n) events ↔
      Execution.Throughout step DropsStale (startServer n) events :=
  Execution.throughout_congr (fun _ _ _ tagged taken => recvTagged_step tagged taken)
    (fun _ _ _ tagged taken => staleInert_step_iff tagged taken) (recvTagged_startServer n) events

/-- One session: the server sends, the client leaves and another connects. -/
def reconnects : List (Event 1) :=
  [.acceptLoop {}, .complete (.accept 0) 0 [] {}, .sendMsg 0 [1] {},
    .complete (.recv 0 0) 0 [] {}, .acceptLoop {}, .complete (.accept 0) 0 [] {}]

/-- The aborted send of the first client closes the connection of the second. -/
def abortedSend : Event 1 := .complete (.send 0 0 3) 0 [] {}

theorem abortedSend_not_staleInert :
    ¬ Execution.Throughout step StaleInert (startServer 1) (reconnects ++ [abortedSend]) := by
  intro inert
  have seen : (Execution.run? step (startServer 1) reconnects).map
      (fun last => ((last.client 0).m_socketClient, (last.client 0).mIsConnected,
        (last.step abortedSend).map fun next => (next.client 0).mIsConnected)) =
        some (some 1, true, some false) := by decide +kernel
  obtain ⟨last, completed, observed⟩ := Option.map_eq_some_iff.mp seen
  obtain ⟨socket, rest⟩ := Prod.mk.inj observed
  obtain ⟨connected, closes⟩ := Prod.mk.inj rest
  obtain ⟨next, taken, closed⟩ := Option.map_eq_some_iff.mp closes
  have reused : last.Reused 0 0 := ⟨1, socket, by decide⟩
  have kept := (inert.final completed taken next taken reused).connected
  rw [connected, closed] at kept
  cases kept

end IOCompletionPort

end IOCPChatServer

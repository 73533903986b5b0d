import IOCPChatServer.Network.SendQueues

/-!
# Send buffers

A block of the pool comes back by `SendComplete` or by the stale branch of `WorkerThread`.
`ClientSession::Clear`, which would return the queued blocks of a closed connection, is
never called, and a zero-byte `SEND` returns nothing.  So a connection gives all of its
blocks back when its sends complete with bytes and it is closed with at most one of them
outstanding.
-/

namespace IOCPChatServer

namespace IOCompletionPort

variable {n : Nat}

/-- The operation was issued on a socket which is not the session's present connection. -/
def IsEnded (port : IOCompletionPort n) (index : Fin n) : Operation n → Prop
  | .accept _ => False
  | .recv session socket => session = index ∧
      ¬ ((port.client index).mIsConnected = true ∧
        (port.client index).m_socketClient = some socket)
  | .send session socket _ => session = index ∧
      ¬ ((port.client index).mIsConnected = true ∧
        (port.client index).m_socketClient = some socket)

/-- The block of a `SEND` whose generation is not its session's any more. -/
def staleBlock? (port : IOCompletionPort n) : Operation n → Option Nat
  | .send index _ block =>
      if port.blockGeneration block ≠ (port.client index).mGeneration then some block else none
  | _ => none

/-- The blocks of the stale sends which await their completion. -/
def staleBlocks (port : IOCompletionPort n) : List Nat :=
  port.kernel.outstanding.filterMap port.staleBlock?

/-- Every block of the pool is once in the free list, in a send queue or with a stale send,
and a queued block of an ended connection waits for completions of ended connections. -/
structure BlocksConserved (port : IOCompletionPort n) : Prop where
  once : ∀ block < n * 4, port.mSendBufferPool.mFreeList.count block +
    ((List.finRange n).map fun index => (port.client index).mSendDataqueue.count block).sum +
      port.staleBlocks.count block = 1
  returned : ∀ index, ∀ block ∈ (port.client index).mSendDataqueue,
    ((port.client index).mIsConnected = true ∧
        port.blockGeneration block = (port.client index).mGeneration) ∨
      ∃ operation ∈ port.kernel.outstanding, port.IsEnded index operation

/-- The session is closed by a `RECV` with these bytes and answers. -/
def ClosedByRecv (port : IOCompletionPort n) (index : Fin n) (dwIoSize : Nat)
    (calls : Winsock) : Prop :=
  dwIoSize = 0 ∨ ((port.client index).recvGeneration = (port.client index).mGeneration ∧
    (port.client index).receives calls = false)

/-- Only connected sessions are sent messages, no `SEND` completes with zero bytes, and a
session is closed with at most one block queued. -/
def ReturnsBlocks (port : IOCompletionPort n) : Event n → Prop
  | .acceptLoop _ => True
  | .sendMsg index _ _ => port.mSendBufferPool.mFreeList ≠ [] →
      (port.client index).mIsConnected = true
  | .complete (.accept _) _ _ _ => True
  | .complete (.recv index _) dwIoSize _ calls => (port.client index).mIsConnected = true →
      port.ClosedByRecv index dwIoSize calls → (port.client index).mSendDataqueue.length ≤ 1
  | .complete (.send _ _ _) dwIoSize _ _ => dwIoSize ≠ 0

instance (port : IOCompletionPort n) : (event : Event n) → Decidable (port.ReturnsBlocks event)
  | .acceptLoop _ | .complete (.accept _) .. => isTrue trivial
  | .sendMsg .. => by unfold ReturnsBlocks; infer_instance
  | .complete (.recv ..) .. => by unfold ReturnsBlocks ClosedByRecv; infer_instance
  | .complete (.send ..) .. => by unfold ReturnsBlocks; infer_instance

/-! ## Closed sessions -/

/-- A closed session has at most one block queued, and it is outstanding. -/
def Drained (port : IOCompletionPort n) : Prop :=
  ∀ index, (port.client index).mIsConnected = false →
    (port.client index).mSendDataqueue.length ≤ 1 ∧
      ((port.client index).mSendDataqueue ≠ [] → port.sends index ≠ [])

/-- One session changes. -/
theorem Drained.update {port after : IOCompletionPort n} (drained : port.Drained)
    {index : Fin n}
    (others : ∀ other, other ≠ index → after.client other = port.client other ∧
      after.sends other = port.sends other)
    (own : (after.client index).mIsConnected = false →
      (after.client index).mSendDataqueue.length ≤ 1 ∧
        ((after.client index).mSendDataqueue ≠ [] → after.sends index ≠ [])) :
    after.Drained := by
  intro other
  rcases eq_or_ne other index with rfl | different
  · exact own
  · rw [(others other different).1, (others other different).2]
    exact drained other

/-- A session with its kernel is replaced by one with the same queue and sends. -/
theorem Drained.setClient {port : IOCompletionPort n} (drained : port.Drained)
    {index : Fin n} {session : ClientSession n index} {kernel : Kernel n}
    (queue : session.mSendDataqueue = (port.client index).mSendDataqueue)
    (sends : kernel.sends = port.kernel.sends)
    (own : session.mIsConnected = false →
      (port.client index).mSendDataqueue.length ≤ 1 ∧
        ((port.client index).mSendDataqueue ≠ [] → port.sends index ≠ [])) :
    ((port.setClient index session).setKernel kernel).Drained := by
  have self : ((port.setClient index session).setKernel kernel).client index = session :=
    client_setClient_self port index session
  have same (other : Fin n) : ((port.setClient index session).setKernel kernel).sends other =
      port.sends other := congrFun sends other
  have others : ∀ other, other ≠ index →
      ((port.setClient index session).setKernel kernel).client other = port.client other ∧
        ((port.setClient index session).setKernel kernel).sends other = port.sends other :=
    fun other different => ⟨client_setClient_of_ne port session different, same other⟩
  refine drained.update others ?_
  rw [self, same, queue]
  exact own

/-- A connected session which is closed with one block queued has sent it. -/
theorem QueuesInOrder.drains {port : IOCompletionPort n} (order : port.QueuesInOrder)
    {index : Fin n} (connected : (port.client index).mIsConnected = true)
    (few : (port.client index).mSendDataqueue.length ≤ 1) :
    (port.client index).mSendDataqueue.length ≤ 1 ∧
      ((port.client index).mSendDataqueue ≠ [] → port.sends index ≠ []) := by
  refine ⟨few, fun queued nothing => ?_⟩
  obtain ⟨socket, block, _, sends⟩ := (order.sessions index).sending connected queued
  rw [nothing] at sends
  cases sends

theorem closeSocket_drained {port : IOCompletionPort n} (drained : port.Drained)
    {index : Fin n}
    (own : (port.client index).mIsConnected = true →
      (port.client index).mSendDataqueue.length ≤ 1 ∧
        ((port.client index).mSendDataqueue ≠ [] → port.sends index ≠ [])) :
    (port.closeSocket index).Drained := by
  unfold closeSocket
  split
  · exact drained
  · rename_i connected
    have closed : ((port.setClient index (port.client index).closed).setKernel
        port.kernel).Drained :=
      drained.setClient rfl rfl fun _ => own ((Bool.not_eq_false _).mp connected)
    exact closed

theorem postNextAccept_drained {port : IOCompletionPort n} (drained : port.Drained)
    (calls : Winsock) : (port.postNextAccept calls).Drained := by
  unfold postNextAccept popFreeSessionIndex
  cases port.mFreeSessionList.getLast? with
  | none => exact drained
  | some index =>
      have popped : ({ port with mFreeSessionList := port.mFreeSessionList.dropLast } :
          IOCompletionPort n).Drained := drained
      have spec := ClientSession.postImmediateAccept_spec (port.client index) port.kernel calls
      obtain ⟨queue, _, sends⟩ :=
        ClientSession.postImmediateAccept_queue (port.client index) port.kernel calls
      exact popped.setClient queue sends fun closed => drained index (spec.1.symm.trans closed)

/-- A session which is accepted had nothing queued, or is left as it is. -/
theorem answerAccept_drained {port : IOCompletionPort n} (drained : port.Drained)
    {index : Fin n} (calls : Winsock) (absent : (port.client index).mIsConnected = false) :
    (port.answerAccept index calls).Drained := by
  obtain ⟨queue, _, _, sends⟩ :=
    ClientSession.acceptCompletion_queue (port.client index) port.kernel calls
  have answered : (port.answered index calls).Drained :=
    drained.setClient queue sends fun _ => drained index absent
  have self : (port.answered index calls).client index =
      ((port.client index).acceptCompletion port.kernel calls).2.1 :=
    client_setClient_self port index _
  have same : (port.answered index calls).sends index = port.sends index := congrFun sends index
  rw [answerAccept_eq]
  split
  · exact answered
  · refine closeSocket_drained answered fun _ => ?_
    rw [self, same, queue]
    exact drained index absent

theorem completeRecv_drained {port : IOCompletionPort n} (drained : port.Drained)
    (order : port.QueuesInOrder) {index : Fin n} (data : Bytes) {calls : Winsock}
    (few : (port.client index).mIsConnected = true →
      (port.client index).recvGeneration = (port.client index).mGeneration →
        (port.client index).receives calls = false →
          (port.client index).mSendDataqueue.length ≤ 1) :
    (port.completeRecv index data calls).Drained := by
  unfold completeRecv
  split
  · exact drained
  · rename_i current
    obtain ⟨queue, _, _, sends⟩ :=
      ClientSession.bindRecv_queue (port.client index) port.kernel calls
    obtain ⟨_, connected, _⟩ :=
      ClientSession.bindRecv_spec (port.client index) port.kernel calls
    have bound : ((port.setClient index
        ((port.client index).bindRecv port.kernel calls).2.1).setKernel
        ((port.client index).bindRecv port.kernel calls).2.2).Drained := by
      refine drained.setClient queue sends fun closed => ?_
      rw [connected, Bool.and_eq_false_iff] at closed
      cases before : (port.client index).mIsConnected with
      | false => exact drained index before
      | true =>
          rw [before] at closed
          refine order.drains before (few before (not_not.mp current) ?_)
          exact closed.resolve_left nofun
    exact bound

/-- A completed send leaves a closed session with an empty queue. -/
theorem SentFront.drained {port next : IOCompletionPort n} {index : Fin n} {socket : Socket}
    {block : Nat} {rest : List Nat} {calls : Winsock}
    (sent : port.SentFront next index block rest
      (port.dequeue (.send index socket block)).kernel calls)
    (drained : port.Drained) : next.Drained := by
  have others : ∀ other, other ≠ index →
      next.client other = port.client other ∧ next.sends other = port.sends other :=
    fun other different => ⟨sent.client_of_ne other different, sent.sends_of_ne different⟩
  refine drained.update others fun closed => ?_
  rw [sent.self] at closed ⊢
  have few := (drained index closed).1
  rw [sent.queue, List.length_cons] at few
  have empty : rest = [] := List.length_eq_zero_iff.mp (by omega)
  rw [empty]
  exact ⟨Nat.zero_le 1, fun queued => absurd rfl queued⟩

/-- A message is queued on a connected session. -/
theorem QueuedLast.drained {port next : IOCompletionPort n} {index : Fin n} {block : Nat}
    {calls : Winsock} (queued : port.QueuedLast next index block calls)
    (drained : port.Drained) (connected : (port.client index).mIsConnected = true) :
    next.Drained := by
  have others : ∀ other, other ≠ index →
      next.client other = port.client other ∧ next.sends other = port.sends other :=
    fun other different => ⟨queued.client_of_ne other different, queued.sends_of_ne different⟩
  refine drained.update others fun closed => ?_
  rw [queued.self] at closed
  exact nomatch connected.symm.trans closed

theorem drained_step {port next : IOCompletionPort n} {event : Event n}
    (drained : port.Drained) (order : port.QueuesInOrder) (exclusive : port.Exclusive)
    (returns : port.ReturnsBlocks event) (taken : port.step event = some next) :
    next.Drained := by
  cases event with
  | acceptLoop calls =>
      simp only [step] at taken
      split at taken
      · cases taken
      · rename_i left more
        cases taken
        have counted : ({ port with acceptLoop := left } : IOCompletionPort n).Drained := drained
        exact postNextAccept_drained counted calls
  | sendMsg index message calls =>
      cases taken
      cases last : port.mSendBufferPool.mFreeList.getLast? with
      | none =>
          obtain ⟨clients, kernel, _⟩ := sendMsg_of_none last index message calls
          intro other
          have same : (port.sendMsg index message calls).client other = port.client other :=
            congrFun clients other
          have sends : (port.sendMsg index message calls).sends other = port.sends other :=
            congrArg (Kernel.sends · other) kernel
          rw [same, sends]
          exact drained other
      | some block =>
          have free := List.ne_nil_of_mem (List.mem_of_getLast? last)
          exact (sendMsg_queuedLast last index message calls).drained drained (returns free)
  | complete operation dwIoSize recvBuff calls =>
      have outstanding := step_complete_outstanding taken
      simp only [step, outstanding, ↓reduceIte] at taken
      have dequeued (other : ∀ index, operation.send? index = none) :
          (port.dequeue operation).Drained ∧ (port.dequeue operation).QueuesInOrder := by
        refine ⟨fun index => ?_, dequeue_queuesInOrder order other⟩
        have sends : (port.dequeue operation).sends index = port.sends index :=
          filterMap_erase_none (other index) _
        rw [sends]
        exact drained index
      cases operation with
      | accept index =>
          cases taken
          rw [completeAccept_eq]
          exact postNextAccept_drained (answerAccept_drained (dequeued fun _ => rfl).1 calls
            (exclusive.not_connected_of_accepting outstanding)) calls
      | recv index socket =>
          obtain ⟨drained', order'⟩ := dequeued fun _ => rfl
          simp only [complete] at taken
          split at taken
          · rename_i zero
            cases taken
            exact closeSocket_drained drained' fun connected =>
              order'.drains connected (returns connected (Or.inl zero))
          · cases taken
            exact completeRecv_drained drained' order' _ fun connected current fails =>
              returns connected (Or.inr ⟨current, fails⟩)
      | send index socket block =>
          simp only [complete, show dwIoSize ≠ 0 from returns, ↓reduceIte] at taken
          obtain ⟨rest, sent⟩ := completeSend_sentFront order outstanding taken
          exact sent.drained drained

/-! ## Conservation -/

/-- While the queues are in order no send is stale. -/
theorem QueuesInOrder.staleBlocks_nil {port : IOCompletionPort n} (order : port.QueuesInOrder) :
    port.staleBlocks = [] := by
  refine List.filterMap_eq_nil_iff.mpr fun operation outstanding => ?_
  cases operation with
  | accept index => rfl
  | recv index socket => rfl
  | send index socket block =>
      obtain ⟨_, rest, queue⟩ := order.send_front outstanding
      refine if_neg fun stale => stale (order.tagged index block ?_)
      rw [queue]
      exact List.mem_cons_self

theorem blocksConserved_of_drained {port : IOCompletionPort n} (order : port.QueuesInOrder)
    (drained : port.Drained) : port.BlocksConserved where
  once := by
    intro block inPool
    have once := order.once block
    rw [if_pos inPool] at once
    rw [order.staleBlocks_nil, List.count_nil]
    exact once
  returned := by
    intro index block queued
    cases connected : (port.client index).mIsConnected with
    | true => exact Or.inl ⟨rfl, order.tagged index block queued⟩
    | false =>
        have waits := (drained index connected).2 (List.ne_nil_of_mem queued)
        obtain ⟨send, awaited⟩ := List.exists_mem_of_ne_nil _ waits
        obtain ⟨operation, outstanding, shown⟩ := List.mem_filterMap.mp awaited
        refine Or.inr ⟨operation, outstanding, ?_⟩
        rw [Operation.send?_eq_some.mp shown]
        refine ⟨rfl, fun present => ?_⟩
        rw [connected] at present
        exact nomatch present.1

theorem drained_startServer (n : Nat) : (startServer n).Drained :=
  fun _ _ => ⟨Nat.zero_le 1, fun queued => absurd rfl queued⟩

/--
In a run in which every `WSASend` of a connected session succeeds and no `SEND` completes
with zero bytes, messages are sent to connected sessions only, and sessions are closed
with at most one block queued and connected with none, every block of the pool is owned
exactly once and those of an ended connection come back.
-/
theorem blocksConserved_of_returnsBlocks (n : Nat) (events : List (Event n))
    (conditions : Execution.Throughout step
      (fun port event => port.KeepsSending event ∧ port.ReturnsBlocks event)
      (startServer n) events) :
    Execution.Always step BlocksConserved (startServer n) events := by
  have kept : Execution.Always step
      (fun port => port.QueuesInOrder ∧ port.Drained ∧ port.Exclusive)
      (startServer n) events := by
    refine Execution.always_of_throughout (fun port event next good keeps taken => ?_)
      ⟨queuesInOrder_startServer n, drained_startServer n, exclusive_startServer n⟩ conditions
    obtain ⟨order, drained, exclusive⟩ := good
    exact ⟨queuesInOrder_step order exclusive keeps.1 taken,
      drained_step drained order exclusive keeps.2 taken, exclusive_step exclusive taken⟩
  exact kept.mono fun _ good => blocksConserved_of_drained good.1 good.2.1

/-- One session: the server sends a message, the client leaves while it is on its way, the
send completes, and another client connects. -/
def leavesWhileSending : List (Event 1) :=
  [.acceptLoop {}, .complete (.accept 0) 0 [] {}, .sendMsg 0 [1] {},
    .complete (.recv 0 0) 0 [] {}, .complete (.send 0 0 3) 1 [] {}, .acceptLoop {},
    .complete (.accept 0) 0 [] {}]

theorem leavesWhileSending_blocksConserved :
    Execution.Always step BlocksConserved (startServer 1) leavesWhileSending :=
  blocksConserved_of_returnsBlocks 1 leavesWhileSending (by decide +kernel)

/-- One session: the server sends a message, the client leaves, and the send is aborted. -/
def sendAborted : List (Event 1) :=
  [.acceptLoop {}, .complete (.accept 0) 0 [] {}, .sendMsg 0 [1] {},
    .complete (.recv 0 0) 0 [] {}, .complete (.send 0 0 3) 0 [] {}]

/-- All completions of the connection have been processed, and its block is still queued. -/
theorem sendAborted_not_blocksConserved :
    ¬ Execution.Always step BlocksConserved (startServer 1) sendAborted := by
  intro always
  have seen : (Execution.run? step (startServer 1) sendAborted).map
      (fun last => ((last.client 0).mIsConnected, (last.client 0).mSendDataqueue,
        last.kernel.outstanding)) = some (false, [3], []) := by decide +kernel
  obtain ⟨last, conserved, observed⟩ := always.observed seen
  obtain ⟨connected, rest⟩ := Prod.mk.inj observed
  obtain ⟨queue, outstanding⟩ := Prod.mk.inj rest
  have queued : 3 ∈ (last.client 0).mSendDataqueue := by
    rw [queue]
    exact List.mem_singleton_self 3
  rcases conserved.returned 0 3 queued with present | ⟨operation, awaited, _⟩
  · rw [connected] at present
    exact nomatch present.1
  · rw [outstanding] at awaited
    cases awaited

end IOCompletionPort

end IOCPChatServer

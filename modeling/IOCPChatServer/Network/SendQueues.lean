import IOCPChatServer.Library.Execution
import IOCPChatServer.Library.Holdings
import IOCPChatServer.Network.SessionTickets

/-!
# Send queues

`SendMsg` starts a `WSASend` when the queue of the session was empty, and `SendComplete`
starts the next one.  Nobody looks at the result of `WSASend`, and the queue survives its
connection, so a queue goes on only as long as both calls succeed and every connection
starts with an empty queue.
-/

namespace IOCPChatServer

/-- Socket and block of an outstanding `WSASend` of the session. -/
def Operation.send? {n : Nat} (index : Fin n) : Operation n → Option (Socket × Nat)
  | .send session socket block => if session = index then some (socket, block) else none
  | _ => none

theorem Operation.send?_eq_some {n : Nat} {operation : Operation n} {index : Fin n}
    {send : Socket × Nat} :
    operation.send? index = some send ↔ operation = .send index send.1 send.2 := by
  cases operation with
  | accept session => simp [send?]
  | recv session socket => simp [send?]
  | send session socket block =>
      simp only [send?, Option.ite_none_right_eq_some, Option.some.injEq, Operation.send.injEq]
      constructor
      · rintro ⟨rfl, rfl⟩
        exact ⟨rfl, rfl, rfl⟩
      · rintro ⟨rfl, rfl, rfl⟩
        exact ⟨rfl, rfl⟩

/-- The outstanding `WSASend` operations of a session. -/
def Kernel.sends {n : Nat} (kernel : Kernel n) (index : Fin n) : List (Socket × Nat) :=
  kernel.outstanding.filterMap (Operation.send? index)

namespace Kernel

variable {n : Nat}

theorem sends_issue (kernel : Kernel n) (operation : Operation n) (index : Fin n) :
    (kernel.issue operation).sends index =
      kernel.sends index ++ (operation.send? index).toList := by
  unfold sends issue
  rw [List.filterMap_append]
  cases shown : operation.send? index with
  | none => rw [List.filterMap_cons_none shown]; rfl
  | some send => rw [List.filterMap_cons_some shown]; rfl

theorem sends_issue_other (kernel : Kernel n) {operation : Operation n} {index : Fin n}
    (other : operation.send? index = none) :
    (kernel.issue operation).sends index = kernel.sends index := by
  rw [sends_issue, other]
  exact List.append_nil _

theorem sends_issue_send (kernel : Kernel n) (index : Fin n) (socket : Socket) (block : Nat) :
    (kernel.issue (.send index socket block)).sends index =
      kernel.sends index ++ [(socket, block)] := by
  rw [sends_issue]
  simp [Operation.send?]

theorem send?_of_ne {index other : Fin n} (socket : Socket) (block : Nat)
    (different : other ≠ index) : (Operation.send index socket block).send? other = none :=
  if_neg (Ne.symm different)

/-- An outstanding `WSASend` is listed as often as it is outstanding. -/
theorem count_sends (kernel : Kernel n) (index : Fin n) (socket : Socket) (block : Nat) :
    (kernel.sends index).count (socket, block) =
      kernel.outstanding.count (.send index socket block) := by
  unfold sends
  induction kernel.outstanding with
  | nil => rfl
  | cons first rest ih =>
      rw [List.count_cons, ← ih]
      cases shown : first.send? index with
      | none =>
          have different : first ≠ .send index socket block := by
            rintro rfl
            simp [Operation.send?] at shown
          rw [List.filterMap_cons_none shown]
          simp [different]
      | some send =>
          rw [List.filterMap_cons_some shown, List.count_cons]
          rw [Operation.send?_eq_some.mp shown]
          congr 1
          have same : (send == (socket, block)) =
              (Operation.send index send.1 send.2 == .send index socket block) := by
            rw [Bool.eq_iff_iff, beq_iff_eq, beq_iff_eq]
            constructor
            · rintro rfl
              rfl
            · intro equal
              cases send
              cases equal
              rfl
          rw [same]

end Kernel

namespace ClientSession

variable {n : Nat} {mIndex : Fin n}

/-- At most one `WSASend` of the session is outstanding, for the front block.  While the
session is connected it has a socket, and a `WSASend` on it as long as a block is queued. -/
structure SendsInOrder (session : ClientSession n mIndex) (sends : List (Socket × Nat)) :
    Prop where
  front : ∀ send ∈ sends, session.mSendDataqueue.head? = some send.2
  single : sends.length ≤ 1
  opened : session.mIsConnected = true → session.m_socketClient ≠ none
  sending : session.mIsConnected = true → session.mSendDataqueue ≠ [] →
    ∃ socket block, session.m_socketClient = some socket ∧ sends = [(socket, block)]

/-- A session which is not connected has no obligation to send. -/
theorem SendsInOrder.of_not_connected {session after : ClientSession n mIndex}
    {sends : List (Socket × Nat)} (order : session.SendsInOrder sends)
    (queue : after.mSendDataqueue = session.mSendDataqueue)
    (closed : after.mIsConnected = false) : after.SendsInOrder sends where
  front := queue ▸ order.front
  single := order.single
  opened := fun connected => nomatch connected.symm.trans closed
  sending := fun connected => nomatch connected.symm.trans closed

/-- Nothing is outstanding for an empty queue. -/
theorem SendsInOrder.sends_nil {session : ClientSession n mIndex}
    {sends : List (Socket × Nat)} (order : session.SendsInOrder sends)
    (empty : session.mSendDataqueue = []) : sends = [] := by
  refine List.eq_nil_iff_forall_not_mem.mpr fun send member => ?_
  have front := order.front send member
  rw [empty] at front
  cases front

/-- What is outstanding is the front of the queue. -/
theorem SendsInOrder.eq_front {session : ClientSession n mIndex}
    {sends : List (Socket × Nat)} (order : session.SendsInOrder sends) {send : Socket × Nat}
    (outstanding : send ∈ sends) :
    sends = [send] ∧ ∃ rest, session.mSendDataqueue = send.2 :: rest := by
  have front := order.front send outstanding
  have single := order.single
  refine ⟨?_, List.head?_eq_some_iff.mp front⟩
  match sends, single, outstanding with
  | [only], _, member => rw [List.mem_singleton.mp member]

/-- A block at the end of a queue which is not empty changes nothing in front. -/
theorem SendsInOrder.enqueue {session : ClientSession n mIndex}
    {sends : List (Socket × Nat)} (order : session.SendsInOrder sends) (block : Nat)
    (busy : session.mSendDataqueue ≠ []) :
    ({ session with mSendDataqueue := session.mSendDataqueue ++ [block] } :
      ClientSession n mIndex).SendsInOrder sends where
  front := fun send member => by
    obtain ⟨first, rest, queue⟩ := List.exists_cons_of_ne_nil busy
    have front := order.front send member
    dsimp only
    rw [queue] at front ⊢
    exact front
  single := order.single
  opened := order.opened
  sending := fun connected _ => order.sending connected busy

/-! ## What the functions of a session do to its sends -/

theorem bindRecv_queue (session : ClientSession n mIndex) (kernel : Kernel n)
    (calls : Winsock) :
    (session.bindRecv kernel calls).2.1.mSendDataqueue = session.mSendDataqueue ∧
      (session.bindRecv kernel calls).2.1.mGeneration = session.mGeneration ∧
      ((session.bindRecv kernel calls).2.1.mIsConnected = true →
        session.mIsConnected = true ∧
          (session.bindRecv kernel calls).2.1.m_socketClient = session.m_socketClient) ∧
      (session.bindRecv kernel calls).2.2.sends = kernel.sends := by
  unfold bindRecv
  dsimp only
  split
  · refine ⟨rfl, rfl, fun connected => ⟨connected, rfl⟩, funext fun index => ?_⟩
    exact kernel.sends_issue_other rfl
  · exact ⟨rfl, rfl, nofun, rfl⟩

/-- `AcceptCompletion` takes a session whose context was updated into its next generation
and leaves any other as it is. -/
theorem acceptCompletion_queue (session : ClientSession n mIndex) (kernel : Kernel n)
    (calls : Winsock) :
    (session.acceptCompletion kernel calls).2.1.mSendDataqueue = session.mSendDataqueue ∧
      (session.updates calls = false →
        (session.acceptCompletion kernel calls).2.1 = session) ∧
      (session.updates calls = true →
        (session.acceptCompletion kernel calls).2.1.mIsConnected = true →
          (session.acceptCompletion kernel calls).2.1.m_socketClient ≠ none) ∧
      (session.acceptCompletion kernel calls).2.2.sends = kernel.sends := by
  cases updates : session.updates calls with
  | false =>
      have refused : session.m_socketClient = none ∨ calls.setsockopt = false := by
        cases opened : session.m_socketClient with
        | none => exact Or.inl rfl
        | some socket => exact Or.inr (by simpa [ClientSession.updates, opened] using updates)
      unfold acceptCompletion
      rw [if_pos refused]
      refine ⟨rfl, fun _ => rfl, fun updated => ?_, rfl⟩
      cases updated
  | true =>
      have opened : session.m_socketClient ≠ none := by
        intro missing
        rw [ClientSession.updates, missing] at updates
        cases updates
      unfold acceptCompletion
      rw [if_neg (not_or.mpr ⟨opened, fun failed => ?_⟩)]
      · unfold onConnect
        dsimp only
        split
        · obtain ⟨queue, _, connected, sends⟩ := bindRecv_queue { session with
            mIsConnected := true
            mGeneration := session.mGeneration + 1 } kernel calls
          refine ⟨queue, fun refused => ?_, fun _ still => ?_, sends⟩
          · cases refused
          · rw [(connected still).2]
            exact opened
        · refine ⟨rfl, fun refused => ?_, fun _ _ => opened, rfl⟩
          cases refused
      · rw [ClientSession.updates, failed, Bool.and_false] at updates
        cases updates

theorem postImmediateAccept_queue (session : ClientSession n mIndex) (kernel : Kernel n)
    (calls : Winsock) :
    (session.postImmediateAccept kernel calls).2.1.mSendDataqueue = session.mSendDataqueue ∧
      (session.postImmediateAccept kernel calls).2.1.mGeneration = session.mGeneration ∧
      (session.postImmediateAccept kernel calls).2.2.sends = kernel.sends := by
  unfold postImmediateAccept
  split
  · split
    · refine ⟨rfl, rfl, funext fun index => ?_⟩
      exact Kernel.sends_issue_other _ rfl
    · exact ⟨rfl, rfl, rfl⟩
  · exact ⟨rfl, rfl, rfl⟩

/-- `SendIO` concerns no other session. -/
theorem sendIO_sends_of_ne (session : ClientSession n mIndex) (kernel : Kernel n)
    (calls : Winsock) {other : Fin n} (different : other ≠ mIndex) :
    (session.sendIO kernel calls).sends other = kernel.sends other := by
  unfold sendIO
  split
  · exact kernel.sends_issue_other (Kernel.send?_of_ne _ _ different)
  · rfl

/-- After `SendIO` with nothing outstanding before, the front block is outstanding, unless
the session is not connected or `WSASend` fails. -/
theorem sendIO_inOrder {session : ClientSession n mIndex} {kernel : Kernel n}
    {calls : Winsock} (idle : kernel.sends mIndex = [])
    (opened : session.mIsConnected = true → session.m_socketClient ≠ none)
    (sends : session.mIsConnected = true → session.mSendDataqueue ≠ [] → calls.wsaSend = true) :
    session.SendsInOrder ((session.sendIO kernel calls).sends mIndex) := by
  unfold sendIO
  split
  · rename_i block rest socket queue present answered
    rw [Kernel.sends_issue_send, idle, List.nil_append]
    refine ⟨fun send member => ?_, Nat.le_refl 1, opened,
      fun _ _ => ⟨socket, block, present, rfl⟩⟩
    rw [List.mem_singleton.mp member, queue, List.head?_cons]
  · rename_i fails
    rw [idle]
    refine ⟨fun send member => absurd member List.not_mem_nil, Nat.zero_le 1, opened, ?_⟩
    intro connected queued
    obtain ⟨block, rest, queue⟩ := List.exists_cons_of_ne_nil queued
    obtain ⟨socket, present⟩ := Option.ne_none_iff_exists'.mp (opened connected)
    exact absurd (sends connected queued) (fails block rest socket queue present)

end ClientSession

namespace IOCompletionPort

open ClientSession (SendsInOrder)

variable {n : Nat}

/-- The outstanding `WSASend` operations of a session. -/
def sends (port : IOCompletionPort n) (index : Fin n) : List (Socket × Nat) :=
  port.kernel.sends index

/-- `mFreeList` and the send queues. -/
def holdings (port : IOCompletionPort n) : Holdings (Fin n) Nat where
  free := port.mSendBufferPool.mFreeList
  held := fun index => (port.client index).mSendDataqueue

/-- `generation` of a block of the pool. -/
def blockGeneration (port : IOCompletionPort n) (block : Nat) : UInt32 :=
  (port.mSendBufferPool.mAllBlocks block).generation

/-- The queues are sent in order, hold blocks of the present generation of their session
only, and no block is in two places. -/
structure QueuesInOrder (port : IOCompletionPort n) : Prop where
  sessions : ∀ index, (port.client index).SendsInOrder (port.sends index)
  tagged : ∀ index, ∀ block ∈ (port.client index).mSendDataqueue,
    port.blockGeneration block = (port.client index).mGeneration
  once : ∀ block, port.holdings.count (List.finRange n) block = if block < n * 4 then 1 else 0

theorem queuesInOrder_startServer (n : Nat) : (startServer n).QueuesInOrder where
  sessions := fun _ => ⟨fun _ => nofun, Nat.zero_le 1, nofun, nofun⟩
  tagged := fun _ _ => nofun
  once := by
    intro block
    have idle : ∀ index, (startServer n).holdings.held index = [] := fun _ => rfl
    have free : (startServer n).holdings.free = List.range (n * 4) := rfl
    rw [Holdings.count_of_idle idle, free, List.nodup_range.count]
    simp only [List.mem_range]

/-- Only sessions, operations and pool matter. -/
theorem QueuesInOrder.of_same {before after : IOCompletionPort n}
    (order : before.QueuesInOrder) (clients : after.mClientInfos = before.mClientInfos)
    (sends : after.sends = before.sends)
    (pool : after.mSendBufferPool = before.mSendBufferPool) : after.QueuesInOrder := by
  have client (index : Fin n) : after.client index = before.client index :=
    congrFun clients index
  refine ⟨fun index => ?_, fun index => ?_, fun block => ?_⟩
  · rw [client, sends]
    exact order.sessions index
  · have generations : after.blockGeneration = before.blockGeneration := by
      unfold blockGeneration
      rw [pool]
    rw [client, generations]
    exact order.tagged index
  · have same : after.holdings = before.holdings := by
      unfold holdings
      rw [pool]
      exact congrArg (Holdings.mk _) (funext fun index => by rw [client])
    rw [same]
    exact order.once block

/-- One session changes, with its operations and the blocks which it holds. -/
theorem QueuesInOrder.update {port after : IOCompletionPort n} (order : port.QueuesInOrder)
    {index : Fin n}
    (others : ∀ other, other ≠ index → after.client other = port.client other ∧
      after.sends other = port.sends other)
    (own : (after.client index).SendsInOrder (after.sends index))
    (tagged : ∀ block ∈ (after.client index).mSendDataqueue,
      after.blockGeneration block = (after.client index).mGeneration)
    (generations : ∀ other, other ≠ index → ∀ block ∈ (port.client other).mSendDataqueue,
      after.blockGeneration block = port.blockGeneration block)
    (counts : ∀ block, after.holdings.count (List.finRange n) block =
      port.holdings.count (List.finRange n) block) : after.QueuesInOrder := by
  refine ⟨fun other => ?_, fun other => ?_, fun block => (counts block).trans (order.once block)⟩
  · rcases eq_or_ne other index with rfl | different
    · exact own
    · rw [(others other different).1, (others other different).2]
      exact order.sessions other
  · rcases eq_or_ne other index with rfl | different
    · exact tagged
    · rw [(others other different).1]
      intro block queued
      exact (generations other different block queued).trans (order.tagged other block queued)

/-- One session changes and keeps its queue. -/
theorem QueuesInOrder.setClient {port : IOCompletionPort n} (order : port.QueuesInOrder)
    {index : Fin n} {session : ClientSession n index} {kernel : Kernel n}
    (queue : session.mSendDataqueue = (port.client index).mSendDataqueue)
    (others : ∀ other, other ≠ index → kernel.sends other = port.sends other)
    (own : session.SendsInOrder (kernel.sends index))
    (tagged : ∀ block ∈ session.mSendDataqueue,
      port.blockGeneration block = session.mGeneration) :
    ((port.setClient index session).setKernel kernel).QueuesInOrder := by
  have self : ((port.setClient index session).setKernel kernel).client index = session :=
    client_setClient_self port index session
  refine order.update (fun other different => ⟨?_, others other different⟩) ?_ ?_
    (fun _ _ _ _ => rfl) fun block => ?_
  · exact client_setClient_of_ne port session different
  · rw [self]
    exact own
  · rw [self]
    exact tagged
  · have same : ((port.setClient index session).setKernel kernel).holdings = port.holdings := by
      refine congrArg (Holdings.mk _) (funext fun other => ?_)
      rcases eq_or_ne other index with rfl | different
      · rw [self]
        exact queue
      · rw [client_setKernel, client_setClient_of_ne port session different]
    rw [same]

theorem closeSocket_queuesInOrder {port : IOCompletionPort n} (order : port.QueuesInOrder)
    (index : Fin n) : (port.closeSocket index).QueuesInOrder := by
  unfold closeSocket
  split
  · exact order
  · have closed : ((port.setClient index (port.client index).closed).setKernel
        port.kernel).QueuesInOrder :=
      order.setClient rfl (fun _ _ => rfl)
        ((order.sessions index).of_not_connected rfl rfl) (order.tagged index)
    exact closed.of_same rfl rfl rfl

theorem postNextAccept_queuesInOrder {port : IOCompletionPort n} (order : port.QueuesInOrder)
    (exclusive : port.Exclusive) (calls : Winsock) :
    (port.postNextAccept calls).QueuesInOrder := by
  unfold postNextAccept popFreeSessionIndex
  cases last : port.mFreeSessionList.getLast? with
  | none => exact order.of_same rfl rfl rfl
  | some index =>
      have popped : ({ port with mFreeSessionList := port.mFreeSessionList.dropLast } :
          IOCompletionPort n).QueuesInOrder := order.of_same rfl rfl rfl
      have spec := ClientSession.postImmediateAccept_spec (port.client index) port.kernel calls
      obtain ⟨queue, generation, sends⟩ :=
        ClientSession.postImmediateAccept_queue (port.client index) port.kernel calls
      have closed := exclusive.not_connected_of_last last
      refine popped.setClient queue (fun other _ => congrFun sends other) ?_ ?_
      · have same : ((port.client index).postImmediateAccept port.kernel calls).2.2.sends index =
            port.sends index := congrFun sends index
        have own : ((port.client index).postImmediateAccept port.kernel calls).2.1.SendsInOrder
            (port.sends index) :=
          (order.sessions index).of_not_connected queue (spec.1.trans closed)
        exact same ▸ own
      · intro block queued
        have member : block ∈ (port.client index).mSendDataqueue := queue ▸ queued
        exact (order.tagged index block member).trans generation.symm

/-- A session whose queue is empty becomes connected, or is left as it is. -/
theorem answered_queuesInOrder {port : IOCompletionPort n}
    (order : port.QueuesInOrder) {index : Fin n} (calls : Winsock)
    (empty : (port.client index).updates calls = true →
      (port.client index).mSendDataqueue = []) :
    (port.answered index calls).QueuesInOrder := by
  obtain ⟨queue, refused, opened, sends⟩ :=
    ClientSession.acceptCompletion_queue (port.client index) port.kernel calls
  have same : ((port.client index).acceptCompletion port.kernel calls).2.2.sends index =
      port.sends index := congrFun sends index
  refine order.setClient queue (fun other _ => congrFun sends other) ?_ ?_
  · rw [same]
    cases updates : (port.client index).updates calls with
    | false =>
        rw [refused updates]
        exact order.sessions index
    | true =>
        have nothing := (order.sessions index).sends_nil (empty updates)
        rw [nothing]
        refine ⟨fun _ => nofun, Nat.zero_le 1, opened updates, fun _ queued => ?_⟩
        exact absurd (queue.trans (empty updates)) queued
  · intro block queued
    cases updates : (port.client index).updates calls with
    | false =>
        rw [refused updates] at queued ⊢
        exact order.tagged index block queued
    | true =>
        rw [queue, empty updates] at queued
        cases queued

theorem answerAccept_queuesInOrder {port : IOCompletionPort n} (order : port.QueuesInOrder)
    {index : Fin n} (calls : Winsock)
    (empty : (port.client index).updates calls = true →
      (port.client index).mSendDataqueue = []) :
    (port.answerAccept index calls).QueuesInOrder := by
  have answered := answered_queuesInOrder order calls empty
  rw [answerAccept_eq]
  split
  · exact answered.of_same rfl rfl rfl
  · exact closeSocket_queuesInOrder answered index

theorem completeRecv_queuesInOrder {port : IOCompletionPort n} (order : port.QueuesInOrder)
    (index : Fin n) (data : Bytes) (calls : Winsock) :
    (port.completeRecv index data calls).QueuesInOrder := by
  unfold completeRecv
  split
  · exact order
  · obtain ⟨queue, generation, connected, sends⟩ :=
      ClientSession.bindRecv_queue (port.client index) port.kernel calls
    have same : ((port.client index).bindRecv port.kernel calls).2.2.sends index =
        port.sends index := congrFun sends index
    have session := order.sessions index
    have bound : ((port.setClient index
        ((port.client index).bindRecv port.kernel calls).2.1).setKernel
        ((port.client index).bindRecv port.kernel calls).2.2).QueuesInOrder := by
      refine order.setClient queue (fun other _ => congrFun sends other) ?_ ?_
      · rw [same]
        refine ⟨queue ▸ session.front, session.single, fun still => ?_, fun still queued => ?_⟩
        · rw [(connected still).2]
          exact session.opened (connected still).1
        · rw [(connected still).2]
          exact session.sending (connected still).1 (queue ▸ queued)
      · rw [queue, generation]
        exact order.tagged index
    exact bound.of_same rfl rfl rfl

/-! ## The end of a send -/

/-- Taking a completion which is no `SEND` off the queue. -/
theorem dequeue_queuesInOrder {port : IOCompletionPort n} (order : port.QueuesInOrder)
    {operation : Operation n} (other : ∀ index, operation.send? index = none) :
    (port.dequeue operation).QueuesInOrder :=
  order.of_same rfl (funext fun index => filterMap_erase_none (other index) _) rfl

theorem dequeue_send_self (port : IOCompletionPort n) (index : Fin n) (socket : Socket)
    (block : Nat) :
    (port.dequeue (.send index socket block)).sends index =
      (port.sends index).erase (socket, block) := by
  have shows : (Operation.send index socket block).send? index = some (socket, block) :=
    if_pos rfl
  exact filterMap_erase_some shows (fun _ => Operation.send?_eq_some.mp) _

theorem dequeue_send_of_ne (port : IOCompletionPort n) {index other : Fin n} (socket : Socket)
    (block : Nat) (different : other ≠ index) :
    (port.dequeue (.send index socket block)).sends other = port.sends other :=
  filterMap_erase_none (Kernel.send?_of_ne socket block different) _

/-- The `SEND` which completes was the only one of its session, for its front block. -/
theorem QueuesInOrder.send_front {port : IOCompletionPort n} (order : port.QueuesInOrder)
    {index : Fin n} {socket : Socket} {block : Nat}
    (outstanding : .send index socket block ∈ port.kernel.outstanding) :
    (port.dequeue (.send index socket block)).sends index = [] ∧
      ∃ rest, (port.client index).mSendDataqueue = block :: rest := by
  have shown : (socket, block) ∈ port.sends index :=
    List.mem_filterMap.mpr ⟨_, outstanding, if_pos rfl⟩
  obtain ⟨only, queue⟩ := (order.sessions index).eq_front shown
  refine ⟨?_, queue⟩
  rw [dequeue_send_self, only, List.erase_cons_head]

/-- A zero-byte `SEND` leaves its block in the queue of the closed session. -/
theorem closeSocket_send_queuesInOrder {port : IOCompletionPort n}
    (order : port.QueuesInOrder) {index : Fin n} {socket : Socket} {block : Nat}
    (outstanding : .send index socket block ∈ port.kernel.outstanding) :
    ((port.dequeue (.send index socket block)).closeSocket index).QueuesInOrder := by
  obtain ⟨idle, _⟩ := order.send_front outstanding
  have closes {session : ClientSession n index}
      (queue : session.mSendDataqueue = (port.client index).mSendDataqueue)
      (generation : session.mGeneration = (port.client index).mGeneration)
      (closed : session.mIsConnected = false) :
      ((port.setClient index session).setKernel
        (port.dequeue (.send index socket block)).kernel).QueuesInOrder := by
    refine order.setClient queue
      (fun other different => port.dequeue_send_of_ne socket block different) ?_ ?_
    · have nothing : (port.dequeue (.send index socket block)).kernel.sends index = [] := idle
      rw [nothing]
      exact ⟨fun _ => nofun, Nat.zero_le 1,
        fun connected => (nomatch connected.symm.trans closed),
        fun connected => (nomatch connected.symm.trans closed)⟩
    · rw [queue, generation]
      exact order.tagged index
  unfold closeSocket
  split
  · rename_i notConnected
    refine (closes rfl rfl notConnected).of_same ?_ rfl rfl
    exact (Function.update_eq_self index port.mClientInfos).symm
  · have shut : ((port.setClient index (port.client index).closed).setKernel
        (port.dequeue (.send index socket block)).kernel).QueuesInOrder := closes rfl rfl rfl
    exact shut.of_same rfl rfl rfl

/-- Two ports with the same free list and queues. -/
theorem holdings_eq {port : IOCompletionPort n} {holdings : Holdings (Fin n) Nat}
    (free : port.mSendBufferPool.mFreeList = holdings.free)
    (held : ∀ index, (port.client index).mSendDataqueue = holdings.held index) :
    port.holdings = holdings := by
  unfold IOCompletionPort.holdings
  rw [free]
  exact congrArg (Holdings.mk _) (funext held)

/-- What `SendComplete` for the front block leaves. -/
structure SentFront (port next : IOCompletionPort n) (index : Fin n) (block : Nat)
    (rest : List Nat) (kernel : Kernel n) (calls : Winsock) : Prop where
  queue : (port.client index).mSendDataqueue = block :: rest
  self : next.client index = { port.client index with mSendDataqueue := rest }
  client_of_ne : ∀ other, other ≠ index → next.client other = port.client other
  kernel : next.kernel = if rest.isEmpty then kernel
    else ClientSession.sendIO
      ({ port.client index with mSendDataqueue := rest } : ClientSession n index) kernel calls
  pool : next.mSendBufferPool = port.mSendBufferPool.free block

/-- A `SEND` whose session has its sends in order is taken for one of the present
generation. -/
theorem completeSend_sentFront {port next : IOCompletionPort n} (order : port.QueuesInOrder)
    {index : Fin n} {socket : Socket} {block : Nat} {calls : Winsock}
    (outstanding : .send index socket block ∈ port.kernel.outstanding)
    (completed : (port.dequeue (.send index socket block)).completeSend index block calls =
      some next) :
    ∃ rest, port.SentFront next index block rest
      (port.dequeue (.send index socket block)).kernel calls := by
  obtain ⟨_, rest, queue⟩ := order.send_front outstanding
  have current : port.blockGeneration block = (port.client index).mGeneration := by
    refine order.tagged index block ?_
    rw [queue]
    exact List.mem_cons_self
  unfold completeSend at completed
  rw [if_neg (fun stale => stale current)] at completed
  obtain ⟨⟨session, pool, kernel⟩, sent, rfl⟩ := Option.map_eq_some_iff.mp completed
  unfold ClientSession.sendComplete at sent
  have front : ((port.dequeue (.send index socket block)).client index).mSendDataqueue =
      block :: rest := queue
  rw [front] at sent
  cases sent
  refine ⟨rest, queue, ?_, fun other different => ?_, rfl, rfl⟩
  · exact client_setClient_self port index _
  · exact client_setClient_of_ne port _ different

theorem SentFront.sends_of_ne {port next : IOCompletionPort n} {index : Fin n}
    {socket : Socket} {block : Nat} {rest : List Nat} {calls : Winsock}
    (sent : port.SentFront next index block rest
      (port.dequeue (.send index socket block)).kernel calls)
    {other : Fin n} (different : other ≠ index) : next.sends other = port.sends other := by
  have kept := port.dequeue_send_of_ne socket block different
  unfold sends
  rw [sent.kernel]
  split
  · exact kept
  · exact (ClientSession.sendIO_sends_of_ne _ _ calls different).trans kept

theorem SentFront.holdings {port next : IOCompletionPort n} {index : Fin n} {block : Nat}
    {rest : List Nat} {kernel : Kernel n} {calls : Winsock}
    (sent : port.SentFront next index block rest kernel calls) :
    next.holdings = port.holdings.release index block := by
  refine holdings_eq ?_ fun owner => ?_
  · rw [sent.pool]
    rfl
  · unfold Holdings.release
    dsimp only
    rcases eq_or_ne owner index with rfl | different
    · have own : port.holdings.held owner = block :: rest := sent.queue
      rw [sent.self, Function.update_self, own, List.tail_cons]
    · rw [sent.client_of_ne owner different, Function.update_of_ne different]
      rfl

/-- `SendComplete` returns the front block and sends the next one. -/
theorem completeSend_queuesInOrder {port next : IOCompletionPort n}
    (order : port.QueuesInOrder) {index : Fin n} {socket : Socket} {block : Nat}
    {rest : List Nat} {calls : Winsock}
    (outstanding : .send index socket block ∈ port.kernel.outstanding)
    (continues : (port.client index).mIsConnected = true →
      1 < (port.client index).mSendDataqueue.length → calls.wsaSend = true)
    (sent : port.SentFront next index block rest
      (port.dequeue (.send index socket block)).kernel calls) : next.QueuesInOrder := by
  obtain ⟨idle, _⟩ := order.send_front outstanding
  have session := order.sessions index
  have generations : next.blockGeneration = port.blockGeneration := by
    unfold blockGeneration
    rw [sent.pool]
    rfl
  refine order.update
    (fun other different => ⟨sent.client_of_ne other different, sent.sends_of_ne different⟩)
    ?_ ?_ ?_ fun other => ?_
  · unfold sends
    rw [sent.self, sent.kernel]
    split
    · rename_i done
      have nothing : (port.dequeue (.send index socket block)).kernel.sends index = [] := idle
      rw [nothing]
      refine ⟨fun _ => nofun, Nat.zero_le 1, session.opened, fun _ queued => ?_⟩
      exact absurd (List.isEmpty_iff.mp done) queued
    · refine ClientSession.sendIO_inOrder idle session.opened fun connected queued => ?_
      refine continues connected ?_
      rw [sent.queue, List.length_cons]
      exact Nat.succ_lt_succ (List.length_pos_of_ne_nil queued)
  · rw [sent.self, generations]
    intro other queued
    refine order.tagged index other ?_
    rw [sent.queue]
    exact List.mem_cons_of_mem block queued
  · rw [generations]
    exact fun _ _ _ _ => rfl
  · have own : port.holdings.held index = block :: rest := sent.queue
    rw [sent.holdings]
    exact Holdings.count_release (List.nodup_finRange n) (List.mem_finRange index) own other

/-! ## A new block -/

/-- A free block is in no queue. -/
theorem QueuesInOrder.not_queued {port : IOCompletionPort n} (order : port.QueuesInOrder)
    {block : Nat} (free : block ∈ port.mSendBufferPool.mFreeList) (index : Fin n) :
    block ∉ (port.client index).mSendDataqueue := by
  intro queued
  have total := order.once block
  have places : port.mSendBufferPool.mFreeList.count block +
      (port.client index).mSendDataqueue.count block ≤
        port.holdings.count (List.finRange n) block :=
    port.holdings.count_held_le (List.nodup_finRange n) (List.mem_finRange index) block
  have inFree := List.count_pos_iff.mpr free
  have inQueue := List.count_pos_iff.mpr queued
  split at total
  · omega
  · omega

/-- What `SendMsg` leaves when it was given a free block. -/
structure QueuedLast (port next : IOCompletionPort n) (index : Fin n) (block : Nat)
    (calls : Winsock) : Prop where
  self : next.client index =
    { port.client index with
      mSendDataqueue := (port.client index).mSendDataqueue ++ [block] }
  client_of_ne : ∀ other, other ≠ index → next.client other = port.client other
  kernel : next.kernel =
    if ((port.client index).mSendDataqueue ++ [block]).length = 1 then
      ClientSession.sendIO
        ({ port.client index with
          mSendDataqueue := (port.client index).mSendDataqueue ++ [block] } :
            ClientSession n index) port.kernel calls
    else port.kernel
  free : next.mSendBufferPool.mFreeList = port.mSendBufferPool.mFreeList.dropLast
  written : next.blockGeneration block = (port.client index).mGeneration
  unwritten : ∀ other, other ≠ block → next.blockGeneration other = port.blockGeneration other

theorem sendMsg_queuedLast {port : IOCompletionPort n} {block : Nat}
    (last : port.mSendBufferPool.mFreeList.getLast? = some block) (index : Fin n)
    (message : Bytes) (calls : Winsock) :
    port.QueuedLast (port.sendMsg index message calls) index block calls := by
  have allocated : port.mSendBufferPool.alloc =
      some (block, { port.mSendBufferPool with
        mFreeList := port.mSendBufferPool.mFreeList.dropLast }) := by
    unfold ObjectPool.alloc
    rw [last]
    rfl
  unfold sendMsg ClientSession.sendMsg
  rw [allocated]
  refine ⟨?_, fun other different => ?_, rfl, rfl, ?_, fun other different => ?_⟩
  · exact client_setClient_self port index _
  · exact client_setClient_of_ne port _ different
  · exact congrArg SendOverlappedEx.generation (if_pos rfl)
  · exact congrArg SendOverlappedEx.generation (if_neg different)

/-- Without a free block `SendMsg` does nothing. -/
theorem sendMsg_of_none {port : IOCompletionPort n}
    (none : port.mSendBufferPool.mFreeList.getLast? = none) (index : Fin n)
    (message : Bytes) (calls : Winsock) :
    (port.sendMsg index message calls).mClientInfos = port.mClientInfos ∧
      (port.sendMsg index message calls).kernel = port.kernel ∧
      (port.sendMsg index message calls).mSendBufferPool = port.mSendBufferPool := by
  have exhausted : port.mSendBufferPool.alloc = Option.none := by
    unfold ObjectPool.alloc
    rw [none]
    rfl
  unfold sendMsg ClientSession.sendMsg
  rw [exhausted]
  exact ⟨Function.update_eq_self index port.mClientInfos, rfl, rfl⟩

theorem QueuedLast.sends_of_ne {port next : IOCompletionPort n} {index other : Fin n}
    {block : Nat} {calls : Winsock} (queued : port.QueuedLast next index block calls)
    (different : other ≠ index) : next.sends other = port.sends other := by
  unfold sends
  rw [queued.kernel]
  split
  · exact ClientSession.sendIO_sends_of_ne _ port.kernel calls different
  · rfl

theorem QueuedLast.holdings {port next : IOCompletionPort n} {index : Fin n} {block : Nat}
    {calls : Winsock} (queued : port.QueuedLast next index block calls) :
    next.holdings = port.holdings.take index block := by
  refine holdings_eq queued.free fun owner => ?_
  unfold Holdings.take
  dsimp only
  rcases eq_or_ne owner index with rfl | different
  · rw [queued.self, Function.update_self]
    rfl
  · rw [queued.client_of_ne owner different, Function.update_of_ne different]
    rfl

/-- `SendMsg` takes a free block to the end of the queue, and sends it if it is the first. -/
theorem sendMsg_queuesInOrder {port : IOCompletionPort n} (order : port.QueuesInOrder)
    (index : Fin n) (message : Bytes) (calls : Winsock)
    (starts : (port.client index).mIsConnected = true →
      (port.client index).mSendDataqueue = [] → port.mSendBufferPool.mFreeList ≠ [] →
        calls.wsaSend = true) :
    (port.sendMsg index message calls).QueuesInOrder := by
  cases last : port.mSendBufferPool.mFreeList.getLast? with
  | none =>
      obtain ⟨clients, kernel, pool⟩ := sendMsg_of_none last index message calls
      exact order.of_same clients (congrArg Kernel.sends kernel) pool
  | some block =>
      have free : block ∈ port.mSendBufferPool.mFreeList := List.mem_of_getLast? last
      have session := order.sessions index
      have queued := sendMsg_queuedLast last index message calls
      refine order.update (fun other different =>
        ⟨queued.client_of_ne other different, queued.sends_of_ne different⟩) ?_ ?_ ?_
        fun other => ?_
      · unfold sends
        rw [queued.self, queued.kernel]
        split
        · rename_i first
          have empty : (port.client index).mSendDataqueue = [] := by
            rw [List.length_append, List.length_singleton] at first
            exact List.length_eq_zero_iff.mp (by omega)
          refine ClientSession.sendIO_inOrder (session.sends_nil empty) session.opened ?_
          exact fun connected _ => starts connected empty (List.ne_nil_of_mem free)
        · rename_i more
          refine session.enqueue block fun empty => more ?_
          rw [empty]
          rfl
      · rw [queued.self]
        intro other member
        rcases List.mem_append.mp member with old | new
        · have different : other ≠ block := fun same =>
            order.not_queued free index (same ▸ old)
          exact (queued.unwritten other different).trans (order.tagged index other old)
        · rw [List.mem_singleton.mp new]
          exact queued.written
      · intro other _ held there
        exact queued.unwritten held fun same => order.not_queued free other (same ▸ there)
      · rw [queued.holdings]
        exact Holdings.count_take (List.nodup_finRange n) (List.mem_finRange index) last other

/-! ## Every event -/

/-- Every `WSASend` of a connected session succeeds, and no session with a queued block
becomes connected. -/
def KeepsSending (port : IOCompletionPort n) : Event n → Prop
  | .acceptLoop _ => True
  | .sendMsg index _ calls => (port.client index).mIsConnected = true →
      (port.client index).mSendDataqueue = [] → port.mSendBufferPool.mFreeList ≠ [] →
        calls.wsaSend = true
  | .complete (.accept index) _ _ calls => (port.client index).updates calls = true →
      (port.client index).mSendDataqueue = []
  | .complete (.recv _ _) _ _ _ => True
  | .complete (.send index _ _) dwIoSize _ calls => dwIoSize ≠ 0 →
      (port.client index).mIsConnected = true →
        1 < (port.client index).mSendDataqueue.length → calls.wsaSend = true

instance (port : IOCompletionPort n) : (event : Event n) → Decidable (port.KeepsSending event)
  | .acceptLoop _ | .complete (.recv ..) .. => isTrue trivial
  | .sendMsg .. => by unfold KeepsSending; infer_instance
  | .complete (.accept _) .. => by unfold KeepsSending; infer_instance
  | .complete (.send ..) .. => by unfold KeepsSending; infer_instance

theorem queuesInOrder_step {port next : IOCompletionPort n} {event : Event n}
    (order : port.QueuesInOrder) (exclusive : port.Exclusive)
    (keeps : port.KeepsSending event) (taken : port.step event = some next) :
    next.QueuesInOrder := by
  cases event with
  | acceptLoop calls =>
      simp only [step] at taken
      split at taken
      · cases taken
      · rename_i left more
        cases taken
        have counted : ({ port with acceptLoop := left } : IOCompletionPort n).QueuesInOrder :=
          order.of_same rfl rfl rfl
        exact postNextAccept_queuesInOrder counted exclusive calls
  | sendMsg index message calls =>
      cases taken
      exact sendMsg_queuesInOrder order index message calls keeps
  | complete operation dwIoSize recvBuff calls =>
      have outstanding := step_complete_outstanding taken
      simp only [step, outstanding, ↓reduceIte] at taken
      cases operation with
      | accept index =>
          cases taken
          rw [completeAccept_eq]
          have dequeued : (port.dequeue (.accept index)).QueuesInOrder :=
            dequeue_queuesInOrder order fun _ => rfl
          exact postNextAccept_queuesInOrder (answerAccept_queuesInOrder dequeued calls keeps)
            (exclusive_answerAccept exclusive outstanding calls) calls
      | recv index socket =>
          have dequeued : (port.dequeue (.recv index socket)).QueuesInOrder :=
            dequeue_queuesInOrder order fun _ => rfl
          simp only [complete] at taken
          split at taken
          · cases taken
            exact closeSocket_queuesInOrder dequeued index
          · cases taken
            exact completeRecv_queuesInOrder dequeued index _ calls
      | send index socket block =>
          simp only [complete] at taken
          split at taken
          · cases taken
            exact closeSocket_send_queuesInOrder order outstanding
          · rename_i notZero
            obtain ⟨rest, sent⟩ := completeSend_sentFront order outstanding taken
            exact completeSend_queuesInOrder order outstanding (keeps notZero) sent

/-! ## The queue of a connected session goes on -/

/-- While the queue of a connected session is not empty, exactly one `WSASend` for its
front block is outstanding on the session's socket. -/
def NeverStalls (port : IOCompletionPort n) : Prop :=
  ∀ index, (port.client index).mIsConnected = true → ∀ block rest,
    (port.client index).mSendDataqueue = block :: rest →
      ∃ socket, (port.client index).m_socketClient = some socket ∧
        port.kernel.outstanding.count (.send index socket block) = 1

theorem QueuesInOrder.neverStalls {port : IOCompletionPort n} (order : port.QueuesInOrder) :
    port.NeverStalls := by
  intro index connected block rest queue
  have session := order.sessions index
  have queued : (port.client index).mSendDataqueue ≠ [] :=
    fun empty => nomatch queue.symm.trans empty
  obtain ⟨socket, first, present, sends⟩ := session.sending connected queued
  have front : (port.client index).mSendDataqueue.head? = some first := by
    refine session.front (socket, first) ?_
    rw [sends]
    exact List.mem_singleton_self _
  rw [queue, List.head?_cons] at front
  cases front
  refine ⟨socket, present, ?_⟩
  rw [← Kernel.count_sends]
  have only : port.kernel.sends index = [(socket, block)] := sends
  rw [only]
  simp

/--
In a run in which every `WSASend` of a connected session succeeds and no session with a
queued block becomes connected, the queue of a connected session never stalls.
-/
theorem neverStalls_of_keepsSending (n : Nat) (events : List (Event n))
    (conditions : Execution.Throughout step KeepsSending (startServer n) events) :
    Execution.Always step NeverStalls (startServer n) events := by
  have kept : Execution.Always step (fun port => port.QueuesInOrder ∧ port.Exclusive)
      (startServer n) events := by
    refine Execution.always_of_throughout (fun port event next good keeps taken => ?_)
      ⟨queuesInOrder_startServer n, exclusive_startServer n⟩ conditions
    exact ⟨queuesInOrder_step good.1 good.2 keeps taken, exclusive_step good.2 taken⟩
  exact kept.mono fun _ good => good.1.neverStalls

/-- One session: two messages are sent one after the other, the client leaves and another
is sent a message on the same session. -/
def sendTwice : List (Event 1) :=
  [.acceptLoop {}, .complete (.accept 0) 0 [] {}, .sendMsg 0 [1] {}, .sendMsg 0 [2] {},
    .complete (.send 0 0 3) 1 [] {}, .complete (.send 0 0 2) 1 [] {},
    .complete (.recv 0 0) 0 [] {}, .acceptLoop {}, .complete (.accept 0) 0 [] {},
    .sendMsg 0 [3] {}]

theorem sendTwice_neverStalls :
    Execution.Always step NeverStalls (startServer 1) sendTwice :=
  neverStalls_of_keepsSending 1 sendTwice (by decide +kernel)

/-- One session: its client connects and the first `WSASend` fails. -/
def sendFails : List (Event 1) :=
  [.acceptLoop {}, .complete (.accept 0) 0 [] {}, .sendMsg 0 [1] { wsaSend := false }]

/-- The block stays queued and nothing will ever send it. -/
theorem sendFails_not_neverStalls :
    ¬ Execution.Always step NeverStalls (startServer 1) sendFails := by
  intro always
  have seen : (Execution.run? step (startServer 1) sendFails).map
      (fun last => ((last.client 0).mIsConnected, (last.client 0).mSendDataqueue,
        last.kernel.outstanding)) = some (true, [3], [.recv 0 0]) := by decide +kernel
  obtain ⟨last, goesOn, observed⟩ := always.observed seen
  obtain ⟨connected, rest⟩ := Prod.mk.inj observed
  obtain ⟨queue, outstanding⟩ := Prod.mk.inj rest
  obtain ⟨socket, _, once⟩ := goesOn 0 connected 3 [] queue
  rw [outstanding] at once
  exact absurd once (by simp)

end IOCompletionPort

end IOCPChatServer

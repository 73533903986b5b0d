import IOCPChatServer.IOCompletionPort
import IOCPChatServer.Library.Tickets

/-!
# Session indices as tickets

A session index is free, posted with an `AcceptEx` or held by a connected session.
Each function of the completion port is described by what it does to these tickets;
the results about accepting and about the conservation of indices look at nothing else.
-/

namespace IOCPChatServer

section Erasing

variable {α β : Type} [DecidableEq α] {view : α → Option β} {element : α}

/-- Erasing an element which a view does not show. -/
theorem filterMap_erase_none (hidden : view element = none) (list : List α) :
    (list.erase element).filterMap view = list.filterMap view := by
  induction list with
  | nil => rfl
  | cons first rest ih =>
      rcases eq_or_ne first element with rfl | different
      · rw [List.erase_cons_head, List.filterMap_cons_none hidden]
      · rw [List.erase_cons_tail (by simpa using different), List.filterMap_cons,
          List.filterMap_cons, ih]

/-- Erasing the only element which a view shows as this one. -/
theorem filterMap_erase_some [BEq β] [LawfulBEq β] {shown : β} (shows : view element = some shown)
    (only : ∀ other, view other = some shown → other = element) (list : List α) :
    (list.erase element).filterMap view = (list.filterMap view).erase shown := by
  induction list with
  | nil => rfl
  | cons first rest ih =>
      rcases eq_or_ne first element with rfl | different
      · rw [List.erase_cons_head, List.filterMap_cons_some shows, List.erase_cons_head]
      · rw [List.erase_cons_tail (by simpa using different)]
        cases seen : view first with
        | none => rw [List.filterMap_cons_none seen, List.filterMap_cons_none seen, ih]
        | some other =>
            have unlike : other ≠ shown := fun same => different (only first (same ▸ seen))
            rw [List.filterMap_cons_some seen, List.filterMap_cons_some seen,
              List.erase_cons_tail (by simpa using unlike), ih]

end Erasing

/-- The session of an outstanding `AcceptEx`. -/
def Operation.accepting? {n : Nat} : Operation n → Option (Fin n)
  | .accept session => some session
  | _ => none

theorem Operation.accepting?_eq_some {n : Nat} {operation : Operation n} {index : Fin n} :
    operation.accepting? = some index ↔ operation = .accept index := by
  cases operation <;> simp [accepting?]

/-- The outstanding `AcceptEx` operations. -/
def Kernel.accepting {n : Nat} (kernel : Kernel n) : List (Fin n) :=
  kernel.outstanding.filterMap Operation.accepting?

/-- `PostImmediateAccept` succeeds. -/
def Winsock.posts (calls : Winsock) : Bool := calls.wsaSocket && calls.acceptEx

namespace ClientSession

variable {n : Nat} {mIndex : Fin n}

/-- `WSARecv` succeeds. -/
def receives (session : ClientSession n mIndex) (calls : Winsock) : Bool :=
  session.m_socketClient.isSome && calls.wsaRecv

/-- `SO_UPDATE_ACCEPT_CONTEXT` succeeds. -/
def updates (session : ClientSession n mIndex) (calls : Winsock) : Bool :=
  session.m_socketClient.isSome && calls.setsockopt

theorem bindRecv_spec (session : ClientSession n mIndex) (kernel : Kernel n) (calls : Winsock) :
    (session.bindRecv kernel calls).1 = session.receives calls ∧
      (session.bindRecv kernel calls).2.1.mIsConnected =
        (session.mIsConnected && session.receives calls) ∧
      (session.bindRecv kernel calls).2.2.accepting = kernel.accepting := by
  unfold bindRecv receives
  cases session.m_socketClient with
  | none => simp [closed]
  | some socket =>
      cases calls.wsaRecv with
      | true => simp [Kernel.issue, Kernel.accepting, Operation.accepting?]
      | false => simp [closed]

/-- `OnConnect` fails with the session still connected if the port was not bound, and
with the session closed if the first `WSARecv` failed. -/
theorem onConnect_spec {session : ClientSession n mIndex}
    (opened : session.m_socketClient.isSome = true) (kernel : Kernel n) (calls : Winsock) :
    (session.onConnect kernel calls).1 = (bindIOCompletionPort calls && calls.wsaRecv) ∧
      (session.onConnect kernel calls).2.1.mIsConnected =
        (!bindIOCompletionPort calls || calls.wsaRecv) ∧
      (session.onConnect kernel calls).2.2.accepting = kernel.accepting := by
  cases bound : bindIOCompletionPort calls with
  | false => simp [onConnect, bound]
  | true =>
      simp only [onConnect, bound, ↓reduceIte]
      obtain ⟨result, connected, accepting⟩ := bindRecv_spec
        { session with mIsConnected := true, mGeneration := session.mGeneration + 1 }
        kernel calls
      rw [result, connected, accepting]
      simp [receives, opened]

theorem acceptCompletion_spec (session : ClientSession n mIndex) (kernel : Kernel n)
    (calls : Winsock) :
    (session.acceptCompletion kernel calls).1 =
        (session.updates calls && bindIOCompletionPort calls && calls.wsaRecv) ∧
      (session.acceptCompletion kernel calls).2.1.mIsConnected =
        (if session.updates calls then !bindIOCompletionPort calls || calls.wsaRecv
          else session.mIsConnected) ∧
      (session.acceptCompletion kernel calls).2.2.accepting = kernel.accepting := by
  cases updated : session.updates calls with
  | false =>
      have refused : session.m_socketClient = none ∨ calls.setsockopt = false := by
        cases opened : session.m_socketClient with
        | none => exact Or.inl rfl
        | some socket => exact Or.inr (by simpa [updates, opened] using updated)
      simp [acceptCompletion, refused]
  | true =>
      obtain ⟨opened, answered⟩ := (Bool.and_eq_true _ _).mp updated
      have notRefused : ¬ (session.m_socketClient = none ∨ calls.setsockopt = false) := by
        rintro (missing | failed)
        · rw [missing] at opened
          cases opened
        · rw [failed] at answered
          cases answered
      simp only [acceptCompletion, notRefused, ↓reduceIte, Bool.true_and]
      exact onConnect_spec opened kernel calls

theorem postImmediateAccept_spec (session : ClientSession n mIndex) (kernel : Kernel n)
    (calls : Winsock) :
    (session.postImmediateAccept kernel calls).2.1.mIsConnected = session.mIsConnected ∧
      (session.postImmediateAccept kernel calls).2.2.accepting =
        if calls.posts then kernel.accepting ++ [mIndex] else kernel.accepting := by
  unfold postImmediateAccept Winsock.posts
  cases calls.wsaSocket with
  | false => simp
  | true =>
      cases calls.acceptEx with
      | true => simp [Kernel.issue, Kernel.accepting, Operation.accepting?]
      | false => simp [Kernel.accepting]

theorem sendIO_accepting (session : ClientSession n mIndex) (kernel : Kernel n)
    (calls : Winsock) : (session.sendIO kernel calls).accepting = kernel.accepting := by
  unfold sendIO
  split
  · simp [Kernel.issue, Kernel.accepting, Operation.accepting?]
  · rfl

theorem sendMsg_spec (session : ClientSession n mIndex) (pool : ObjectPool)
    (kernel : Kernel n) (message : Bytes) (calls : Winsock) :
    (session.sendMsg pool kernel message calls).2.1.mIsConnected = session.mIsConnected ∧
      (session.sendMsg pool kernel message calls).2.2.2.accepting = kernel.accepting := by
  unfold sendMsg
  cases pool.alloc with
  | none => exact ⟨rfl, rfl⟩
  | some allocated =>
      dsimp only
      split
      · exact ⟨rfl, sendIO_accepting _ _ _⟩
      · exact ⟨rfl, rfl⟩

theorem sendComplete_spec {session after : ClientSession n mIndex} {pool pool' : ObjectPool}
    {kernel kernel' : Kernel n} {calls : Winsock}
    (completed : session.sendComplete pool kernel calls = some (after, pool', kernel')) :
    after.mIsConnected = session.mIsConnected ∧ kernel'.accepting = kernel.accepting := by
  unfold sendComplete at completed
  cases queue : session.mSendDataqueue with
  | nil =>
      rw [queue] at completed
      cases completed
  | cons block rest =>
      rw [queue] at completed
      cases completed
      refine ⟨rfl, ?_⟩
      split
      · rfl
      · exact sendIO_accepting _ _ _

end ClientSession

namespace IOCompletionPort

variable {n : Nat}

/-- The tickets of the session indices. -/
def tickets (port : IOCompletionPort n) : Tickets (Fin n) where
  free := port.mFreeSessionList
  posted := port.kernel.accepting
  held := fun index => (port.client index).mIsConnected

/-- One session is replaced, together with the kernel and whatever else is no ticket. -/
theorem tickets_setClient (port : IOCompletionPort n) (index : Fin n)
    (session : ClientSession n index) (kernel : Kernel n) :
    ((port.setClient index session).setKernel kernel).tickets =
      { port.tickets.setHeld index session.mIsConnected with posted := kernel.accepting } := by
  unfold tickets Tickets.setHeld
  congr 1
  funext other
  by_cases same : other = index
  · subst same
    simp [client, setClient, setKernel]
  · simp [client, setClient, setKernel, same]

/-- The replaced session is connected if the session in its place was. -/
theorem tickets_setClient_same {port : IOCompletionPort n} {index : Fin n}
    {session : ClientSession n index} {kernel : Kernel n}
    (same : session.mIsConnected = (port.client index).mIsConnected) :
    ((port.setClient index session).setKernel kernel).tickets =
      { port.tickets with posted := kernel.accepting } := by
  rw [tickets_setClient, Tickets.setHeld_eq_self _ same.symm]

theorem tickets_setClient_kept {port : IOCompletionPort n} {index : Fin n}
    {session : ClientSession n index} {kernel : Kernel n}
    (same : session.mIsConnected = (port.client index).mIsConnected)
    (accepting : kernel.accepting = port.kernel.accepting) :
    ((port.setClient index session).setKernel kernel).tickets = port.tickets := by
  rw [tickets_setClient_same same, accepting]
  rfl

theorem closeSocket_tickets (port : IOCompletionPort n) (index : Fin n) :
    (port.closeSocket index).tickets = port.tickets.handBack index := by
  unfold closeSocket Tickets.handBack
  cases connected : (port.client index).mIsConnected with
  | false =>
      have notHeld : port.tickets.held index = false := connected
      simp [notHeld]
  | true =>
      have isHeld : port.tickets.held index = true := connected
      simp only [Bool.true_eq_false, ↓reduceIte, isHeld]
      have replaced := tickets_setClient port index (port.client index).closed port.kernel
      exact congrArg (fun tickets => tickets.giveBack index) replaced

theorem postNextAccept_tickets (port : IOCompletionPort n) (calls : Winsock) :
    (port.postNextAccept calls).tickets = port.tickets.postNext calls.posts := by
  unfold postNextAccept Tickets.postNext
  cases last : port.mFreeSessionList.getLast? with
  | none =>
      have none : port.tickets.free.getLast? = none := last
      have empty := List.getLast?_eq_none_iff.mp last
      rw [none]
      simp [popFreeSessionIndex, tickets, client, empty]
  | some index =>
      have some : port.tickets.free.getLast? = some index := last
      rw [some]
      have popped : port.popFreeSessionIndex = (Option.some index, port.popFreeSessionIndex.2) :=
        congrArg (fun last => (last, port.popFreeSessionIndex.2)) last
      have remaining : port.popFreeSessionIndex.2.tickets = port.tickets.takeLast := rfl
      rw [popped]
      generalize port.popFreeSessionIndex.2 = port at remaining
      obtain ⟨connected, accepting⟩ := ClientSession.postImmediateAccept_spec
        (port.client index) port.kernel calls
      refine (tickets_setClient_same connected).trans ?_
      dsimp only
      rw [accepting, ← remaining]
      split
      · rfl
      · rfl

/-- Whether the session is connected after `AcceptCompletion`. -/
def connectedAfter (port : IOCompletionPort n) (index : Fin n) (calls : Winsock) : Bool :=
  if (port.client index).updates calls then
    !ClientSession.bindIOCompletionPort calls || calls.wsaRecv
  else (port.client index).mIsConnected

/-- Whether `AcceptCompletion` succeeds. -/
def accepts (port : IOCompletionPort n) (index : Fin n) (calls : Winsock) : Bool :=
  (port.client index).updates calls && ClientSession.bindIOCompletionPort calls &&
    calls.wsaRecv

/-- The tickets when `WorkerThread` has dealt with the result of `AcceptCompletion`
and is about to post the next `AcceptEx`. -/
def accepted (tickets : Tickets (Fin n)) (index : Fin n) (accepts connected : Bool) :
    Tickets (Fin n) :=
  if accepts then tickets.setHeld index true
  else (tickets.setHeld index connected).handBack index

/-- The `ACCEPT` branch of `WorkerThread` before the next `AcceptEx` is posted. -/
def answerAccept (port : IOCompletionPort n) (index : Fin n) (calls : Winsock) :
    IOCompletionPort n :=
  let accepted := (port.client index).acceptCompletion port.kernel calls
  let answered := (port.setClient index accepted.2.1).setKernel accepted.2.2
  if accepted.1 then
    { answered with mClientCnt := answered.mClientCnt + 1 }.call (.onConnect index)
  else answered.closeSocket index

theorem completeAccept_eq (port : IOCompletionPort n) (index : Fin n) (calls : Winsock) :
    port.completeAccept index calls = (port.answerAccept index calls).postNextAccept calls := rfl

/-- The state when `AcceptCompletion` has returned. -/
def answered (port : IOCompletionPort n) (index : Fin n) (calls : Winsock) :
    IOCompletionPort n :=
  (port.setClient index ((port.client index).acceptCompletion port.kernel calls).2.1).setKernel
    ((port.client index).acceptCompletion port.kernel calls).2.2

theorem answerAccept_eq (port : IOCompletionPort n) (index : Fin n) (calls : Winsock) :
    port.answerAccept index calls =
      if port.accepts index calls then
        { port.answered index calls with
          mClientCnt := (port.answered index calls).mClientCnt + 1 }.call (.onConnect index)
      else (port.answered index calls).closeSocket index := by
  obtain ⟨result, _⟩ := ClientSession.acceptCompletion_spec (port.client index) port.kernel calls
  have same : port.accepts index calls =
      ((port.client index).acceptCompletion port.kernel calls).1 := result.symm
  rw [same]
  rfl

theorem connectedAfter_of_accepts {port : IOCompletionPort n} {index : Fin n}
    {calls : Winsock} (accepts : port.accepts index calls = true) :
    port.connectedAfter index calls = true := by
  simp only [IOCompletionPort.accepts, Bool.and_eq_true] at accepts
  simp [connectedAfter, accepts]

theorem answered_tickets (port : IOCompletionPort n) (index : Fin n) (calls : Winsock) :
    (port.answered index calls).tickets =
      port.tickets.setHeld index (port.connectedAfter index calls) := by
  obtain ⟨_, connected, accepting⟩ := ClientSession.acceptCompletion_spec
    (port.client index) port.kernel calls
  unfold answered
  rw [tickets_setClient, connected, accepting]
  rfl

theorem answerAccept_tickets (port : IOCompletionPort n) (index : Fin n) (calls : Winsock) :
    (port.answerAccept index calls).tickets =
      accepted port.tickets index (port.accepts index calls)
        (port.connectedAfter index calls) := by
  have answered := port.answered_tickets index calls
  rw [answerAccept_eq]
  unfold accepted
  split
  · rename_i accepts
    rw [connectedAfter_of_accepts accepts] at answered
    exact answered
  · rw [closeSocket_tickets, answered]

theorem completeAccept_tickets (port : IOCompletionPort n) (index : Fin n)
    (calls : Winsock) :
    (port.completeAccept index calls).tickets =
      (accepted port.tickets index (port.accepts index calls)
        (port.connectedAfter index calls)).postNext calls.posts := by
  rw [completeAccept_eq, postNextAccept_tickets, answerAccept_tickets]

theorem completeRecv_tickets (port : IOCompletionPort n) (index : Fin n) (data : Bytes)
    (calls : Winsock) :
    (port.completeRecv index data calls).tickets =
      if (port.client index).recvGeneration = (port.client index).mGeneration ∧
          (port.client index).receives calls = false then
        port.tickets.setHeld index false
      else port.tickets := by
  obtain ⟨_, connected, accepting⟩ := ClientSession.bindRecv_spec
    (port.client index) port.kernel calls
  unfold completeRecv
  by_cases current : (port.client index).recvGeneration = (port.client index).mGeneration
  · have bound : (((port.call (.onReceive index data)).setClient index
          ((port.client index).bindRecv port.kernel calls).2.1).setKernel
          ((port.client index).bindRecv port.kernel calls).2.2).tickets =
        port.tickets.setHeld index
          ((port.client index).mIsConnected && (port.client index).receives calls) := by
      rw [tickets_setClient, connected, accepting]
      rfl
    simp only [current, ne_eq, not_true_eq_false, ↓reduceIte, true_and]
    refine bound.trans ?_
    cases (port.client index).receives calls with
    | true =>
        rw [Bool.and_true]
        exact Tickets.setHeld_eq_self _ rfl
    | false => simp
  · simp [current]

theorem completeSend_tickets {port next : IOCompletionPort n} {index : Fin n} {block : Nat}
    {calls : Winsock} (completed : port.completeSend index block calls = some next) :
    next.tickets = port.tickets := by
  unfold completeSend at completed
  split at completed
  · cases completed
    rfl
  · obtain ⟨⟨session, pool, kernel⟩, sent, rfl⟩ := Option.map_eq_some_iff.mp completed
    obtain ⟨connected, accepting⟩ := ClientSession.sendComplete_spec sent
    exact tickets_setClient_kept connected accepting

theorem sendMsg_tickets (port : IOCompletionPort n) (index : Fin n) (message : Bytes)
    (calls : Winsock) : (port.sendMsg index message calls).tickets = port.tickets := by
  obtain ⟨connected, accepting⟩ := ClientSession.sendMsg_spec (port.client index)
    port.mSendBufferPool port.kernel message calls
  exact tickets_setClient_kept connected accepting

/-! ## One event -/

/-- Dequeuing the completion of an `AcceptEx` takes its session off the list. -/
theorem accepting_erase (operations : List (Operation n)) (index : Fin n) :
    (operations.erase (.accept index)).filterMap Operation.accepting? =
      (operations.filterMap Operation.accepting?).erase index := by
  have shows : (Operation.accept index).accepting? = some index := rfl
  exact filterMap_erase_some shows (fun _ => Operation.accepting?_eq_some.mp) operations

/-- Dequeuing any other completion takes nothing off the list. -/
theorem accepting_erase_other (operations : List (Operation n)) {operation : Operation n}
    (other : operation.accepting? = none) :
    (operations.erase operation).filterMap Operation.accepting? =
      operations.filterMap Operation.accepting? :=
  filterMap_erase_none other operations

theorem dequeue_accept_tickets (port : IOCompletionPort n) (index : Fin n) :
    (port.dequeue (.accept index)).tickets = port.tickets.answer index :=
  congrArg (fun posted => { port.tickets with posted := posted })
    (accepting_erase port.kernel.outstanding index)

theorem dequeue_tickets (port : IOCompletionPort n) {operation : Operation n}
    (other : operation.accepting? = none) :
    (port.dequeue operation).tickets = port.tickets :=
  congrArg (fun posted => { port.tickets with posted := posted })
    (accepting_erase_other port.kernel.outstanding other)

/-- The tickets after an event. -/
def ticketsAfter (port : IOCompletionPort n) : Event n → Tickets (Fin n)
  | .acceptLoop calls => port.tickets.postNext calls.posts
  | .sendMsg _ _ _ => port.tickets
  | .complete (.accept index) _ _ calls =>
      (accepted (port.tickets.answer index) index (port.accepts index calls)
        (port.connectedAfter index calls)).postNext calls.posts
  | .complete (.recv index _) dwIoSize _ calls =>
      if dwIoSize = 0 then port.tickets.handBack index
      else if (port.client index).recvGeneration = (port.client index).mGeneration ∧
          (port.client index).receives calls = false then port.tickets.setHeld index false
      else port.tickets
  | .complete (.send index _ _) dwIoSize _ _ =>
      if dwIoSize = 0 then port.tickets.handBack index else port.tickets

theorem step_tickets {port next : IOCompletionPort n} {event : Event n}
    (taken : port.step event = some next) : next.tickets = port.ticketsAfter event := by
  cases event with
  | acceptLoop calls =>
      simp only [step] at taken
      split at taken
      · cases taken
      · cases taken
        exact postNextAccept_tickets _ calls
  | sendMsg index message calls =>
      cases taken
      exact sendMsg_tickets port index message calls
  | complete operation dwIoSize recvBuff calls =>
      simp only [step] at taken
      split at taken
      · cases operation with
        | accept index =>
            cases taken
            rw [completeAccept_tickets, dequeue_accept_tickets]
            rfl
        | recv index socket =>
            have dequeued : (port.dequeue (.recv index socket)).tickets = port.tickets :=
              dequeue_tickets port rfl
            simp only [complete] at taken
            simp only [ticketsAfter]
            split at taken
            · cases taken
              rw [closeSocket_tickets, dequeued, if_pos (by assumption)]
            · rename_i notZero
              cases taken
              rw [completeRecv_tickets, dequeued, if_neg notZero]
              rfl
        | send index socket block =>
            have dequeued : (port.dequeue (.send index socket block)).tickets = port.tickets :=
              dequeue_tickets port rfl
            simp only [complete] at taken
            simp only [ticketsAfter]
            split at taken
            · cases taken
              rw [closeSocket_tickets, dequeued, if_pos (by assumption)]
            · rw [completeSend_tickets taken, dequeued, if_neg (by assumption)]
      · cases taken

/-- An outstanding operation completes. -/
theorem step_complete_outstanding {port next : IOCompletionPort n} {operation : Operation n}
    {dwIoSize : Nat} {recvBuff : Bytes} {calls : Winsock}
    (taken : port.step (.complete operation dwIoSize recvBuff calls) = some next) :
    operation ∈ port.kernel.outstanding := by
  simp only [step] at taken
  split at taken
  · assumption
  · cases taken

theorem closeSocket_acceptLoop (port : IOCompletionPort n) (index : Fin n) :
    (port.closeSocket index).acceptLoop = port.acceptLoop := by
  unfold closeSocket
  split
  · rfl
  · rfl

theorem postNextAccept_acceptLoop (port : IOCompletionPort n) (calls : Winsock) :
    (port.postNextAccept calls).acceptLoop = port.acceptLoop := by
  unfold postNextAccept popFreeSessionIndex
  cases port.mFreeSessionList.getLast? with
  | none => rfl
  | some index => rfl

theorem complete_acceptLoop {port next : IOCompletionPort n} {operation : Operation n}
    {dwIoSize : Nat} {recvBuff : Bytes} {calls : Winsock}
    (taken : port.complete operation dwIoSize recvBuff calls = some next) :
    next.acceptLoop = port.acceptLoop := by
  cases operation with
  | accept index =>
      cases taken
      unfold completeAccept
      dsimp only
      rw [postNextAccept_acceptLoop]
      split
      · rfl
      · exact closeSocket_acceptLoop _ index
  | recv index socket =>
      simp only [complete] at taken
      split at taken
      · cases taken
        exact closeSocket_acceptLoop port index
      · cases taken
        unfold completeRecv
        split
        · rfl
        · rfl
  | send index socket block =>
      simp only [complete] at taken
      split at taken
      · cases taken
        exact closeSocket_acceptLoop port index
      · unfold completeSend at taken
        split at taken
        · cases taken
          rfl
        · obtain ⟨sent, _, rfl⟩ := Option.map_eq_some_iff.mp taken
          rfl

/-- Only the accept loop itself counts its iterations. -/
theorem step_acceptLoop {port next : IOCompletionPort n} {event : Event n}
    (taken : port.step event = some next) :
    port.acceptLoop =
      match event with
      | .acceptLoop _ => next.acceptLoop + 1
      | _ => next.acceptLoop := by
  cases event with
  | acceptLoop calls =>
      simp only [step] at taken
      split at taken
      · cases taken
      · cases taken
        rw [postNextAccept_acceptLoop]
        assumption
  | sendMsg index message calls =>
      cases taken
      rfl
  | complete operation dwIoSize recvBuff calls =>
      simp only [step] at taken
      split at taken
      · exact (complete_acceptLoop taken).symm
      · cases taken

/-! ## No index in two places -/

/-- An index is free, posted or connected at most once. -/
def Exclusive (port : IOCompletionPort n) : Prop := ∀ index, port.tickets.count index ≤ 1

theorem exclusive_startServer (n : Nat) : (startServer n).Exclusive := by
  intro index
  have once : (List.finRange n).count index = 1 := by
    rw [(List.nodup_finRange n).count, if_pos (List.mem_finRange index)]
  simp [startServer, tickets, Tickets.count, Kernel.accepting, client, once]

/-- A session is not connected while its index is free or posted. -/
theorem Exclusive.not_connected {port : IOCompletionPort n} (exclusive : port.Exclusive)
    {index : Fin n} (elsewhere : index ∈ port.tickets.free ∨ index ∈ port.tickets.posted) :
    (port.client index).mIsConnected = false := by
  have total := exclusive index
  cases connected : (port.client index).mIsConnected with
  | false => rfl
  | true =>
      have held : port.tickets.held index = true := connected
      rw [Tickets.count, held, Bool.toNat_true] at total
      rcases elsewhere with free | posted
      · have positive := List.count_pos_iff.mpr free
        omega
      · have positive := List.count_pos_iff.mpr posted
        omega

theorem Exclusive.not_connected_of_accepting {port : IOCompletionPort n}
    (exclusive : port.Exclusive) {index : Fin n}
    (outstanding : .accept index ∈ port.kernel.outstanding) :
    (port.client index).mIsConnected = false :=
  exclusive.not_connected (Or.inr (List.mem_filterMap.mpr ⟨.accept index, outstanding, rfl⟩))

theorem Exclusive.not_connected_of_last {port : IOCompletionPort n}
    (exclusive : port.Exclusive) {index : Fin n}
    (last : port.mFreeSessionList.getLast? = some index) :
    (port.client index).mIsConnected = false :=
  exclusive.not_connected (Or.inl (List.mem_of_getLast? last))

theorem count_accepted_le {tickets : Tickets (Fin n)}
    (atMost : ∀ index, tickets.count index ≤ 1) {index : Fin n}
    (posted : index ∈ tickets.posted) (accepts connected : Bool) (other : Fin n) :
    (accepted (tickets.answer index) index accepts connected).count other ≤ 1 := by
  have answered := Tickets.count_answer posted other
  have before := atMost other
  have counted (value : Bool) :
      ((tickets.answer index).setHeld index value).count other ≤ 1 := by
    have changed := Tickets.count_setHeld (tickets.answer index) index other value
    rcases eq_or_ne other index with rfl | different
    · rw [Tickets.one_self] at answered
      simp only [↓reduceIte] at changed
      have atMostOne := Bool.toNat_le value
      omega
    · simp only [different, ↓reduceIte] at changed
      omega
  unfold accepted
  split
  · exact counted true
  · rw [Tickets.count_handBack]
    exact counted connected

/-- Nor does the answer to an `AcceptEx`. -/
theorem exclusive_answerAccept {port : IOCompletionPort n} (atMost : port.Exclusive)
    {index : Fin n} (outstanding : .accept index ∈ port.kernel.outstanding) (calls : Winsock) :
    ((port.dequeue (.accept index)).answerAccept index calls).Exclusive := by
  intro other
  have posted : index ∈ port.tickets.posted :=
    List.mem_filterMap.mpr ⟨.accept index, outstanding, rfl⟩
  rw [answerAccept_tickets, dequeue_accept_tickets]
  exact count_accepted_le atMost posted _ _ other

/-- An event puts no index in a second place. -/
theorem exclusive_step {port next : IOCompletionPort n} {event : Event n}
    (atMost : port.Exclusive) (taken : port.step event = some next) : next.Exclusive := by
  intro other
  rw [step_tickets taken]
  cases event with
  | acceptLoop calls =>
      exact Nat.le_trans (Tickets.count_postNext_le port.tickets _ other) (atMost other)
  | sendMsg index message calls => exact atMost other
  | complete operation dwIoSize recvBuff calls =>
      cases operation with
      | accept index =>
          have posted : index ∈ port.tickets.posted :=
            List.mem_filterMap.mpr ⟨.accept index, step_complete_outstanding taken, rfl⟩
          exact Nat.le_trans (Tickets.count_postNext_le _ _ other)
            (count_accepted_le atMost posted _ _ other)
      | recv index socket =>
          simp only [ticketsAfter]
          split
          · exact Nat.le_trans (Nat.le_of_eq (Tickets.count_handBack _ _ _)) (atMost other)
          · split
            · have released := Tickets.count_setHeld port.tickets index other false
              have before := atMost other
              simp only [Bool.toNat_false, ite_self] at released
              omega
            · exact atMost other
      | send index socket block =>
          simp only [ticketsAfter]
          split
          · exact Nat.le_trans (Nat.le_of_eq (Tickets.count_handBack _ _ _)) (atMost other)
          · exact atMost other

end IOCompletionPort

end IOCPChatServer

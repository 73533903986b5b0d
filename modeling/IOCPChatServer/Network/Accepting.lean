import IOCPChatServer.Library.Execution
import IOCPChatServer.Network.SessionTickets

/-!
# Is the server accepting

While an index is free an `AcceptEx` should be pending, or no client can connect.
`WorkerThread` posts the next `AcceptEx` only when it has processed an accept, so
the pending ones dry up while every session is connected, and an index which
`CloseSocket` returns afterwards is never posted.
-/

namespace IOCPChatServer

namespace IOCompletionPort

variable {n : Nat}

/-- Once `StartServer` has run its loop, a free index means a pending `AcceptEx`. -/
def Accepting (port : IOCompletionPort n) : Prop :=
  port.acceptLoop = 0 → port.mFreeSessionList ≠ [] → port.kernel.accepting ≠ []

/-- The free indices when the next `AcceptEx` is posted after an accept: the index of
a session which `AcceptCompletion` left connected on failure has been given back. -/
def freeAfterAccept (port : IOCompletionPort n) (index : Fin n) (calls : Winsock) :
    List (Fin n) :=
  if !port.accepts index calls && port.connectedAfter index calls then
    port.mFreeSessionList ++ [index]
  else port.mFreeSessionList

/-- The event does not cut off the server: the next `AcceptEx` is posted, or another
one is pending, or nothing is left to post; and a session is closed only while an
`AcceptEx` is pending. -/
def KeepsAccepting (port : IOCompletionPort n) : Event n → Prop
  | .acceptLoop calls => port.acceptLoop = 1 →
      port.kernel.accepting ≠ [] ∨ calls.posts = true ∨ port.mFreeSessionList.length ≤ 1
  | .sendMsg _ _ _ => True
  | .complete (.accept index) _ _ calls => port.acceptLoop = 0 →
      port.kernel.accepting.erase index ≠ [] ∨ calls.posts = true ∨
        (port.freeAfterAccept index calls).length ≤ 1
  | .complete (.recv index _) dwIoSize _ _ => port.acceptLoop = 0 → dwIoSize = 0 →
      (port.client index).mIsConnected = true → port.kernel.accepting ≠ []
  | .complete (.send index _ _) dwIoSize _ _ => port.acceptLoop = 0 → dwIoSize = 0 →
      (port.client index).mIsConnected = true → port.kernel.accepting ≠ []

theorem accepting_startServer (n : Nat) : (startServer n).Accepting :=
  fun impossible => nomatch impossible

theorem accepted_free (port : IOCompletionPort n) (index : Fin n) (calls : Winsock) :
    (accepted (port.tickets.answer index) index (port.accepts index calls)
      (port.connectedAfter index calls)).free = port.freeAfterAccept index calls := by
  unfold accepted freeAfterAccept Tickets.handBack
  cases port.accepts index calls with
  | true => rfl
  | false =>
      cases connected : port.connectedAfter index calls with
      | true => simp [Tickets.setHeld, Tickets.giveBack, Tickets.answer, tickets]
      | false => simp [Tickets.setHeld, Tickets.answer, tickets]

theorem accepted_posted (port : IOCompletionPort n) (index : Fin n)
    (accepts connected : Bool) :
    (accepted (port.tickets.answer index) index accepts connected).posted =
      port.kernel.accepting.erase index := by
  unfold accepted Tickets.handBack
  split
  · rfl
  · split
    · rfl
    · rfl

/-- From a good state an event ends in a good state just when it does not cut off the
server. -/
theorem accepting_step_iff {port next : IOCompletionPort n} {event : Event n}
    (good : port.Accepting) (taken : port.step event = some next) :
    next.Accepting ↔ port.KeepsAccepting event := by
  have tickets := step_tickets taken
  have loop := step_acceptLoop taken
  have unchanged : next.Accepting ↔
      (next.acceptLoop = 0 → (port.ticketsAfter event).Served) := by
    rw [← tickets]
    exact Iff.rfl
  rw [unchanged]
  cases event with
  | acceptLoop calls =>
      have last : next.acceptLoop = 0 ↔ port.acceptLoop = 1 := by
        dsimp only at loop
        omega
      rw [last]
      exact imp_congr_right fun _ => Tickets.served_postNext_iff _ _
  | sendMsg index message calls =>
      exact ⟨fun _ => trivial, fun _ done => good (loop.trans done)⟩
  | complete operation dwIoSize recvBuff calls =>
      have same : port.acceptLoop = next.acceptLoop := loop
      rw [← same]
      have served (done : port.acceptLoop = 0) : port.tickets.Served := good done
      cases operation with
      | accept index =>
          refine imp_congr_right fun _ => ?_
          rw [ticketsAfter, Tickets.served_postNext_iff, accepted_free, accepted_posted]
      | recv index socket =>
          refine imp_congr_right fun done => ?_
          by_cases zero : dwIoSize = 0
          · simp only [ticketsAfter, zero, ↓reduceIte, forall_const]
            exact Tickets.served_handBack_iff (served done) index
          · simp only [ticketsAfter, zero, ↓reduceIte, false_implies, iff_true]
            split
            · exact served done
            · exact served done
      | send index socket block =>
          refine imp_congr_right fun done => ?_
          by_cases zero : dwIoSize = 0
          · simp only [ticketsAfter, zero, ↓reduceIte, forall_const]
            exact Tickets.served_handBack_iff (served done) index
          · simp only [ticketsAfter, zero, ↓reduceIte, false_implies, iff_true]
            exact served done

/--
A run keeps an `AcceptEx` pending while an index is free precisely when none of its
events cuts off the server.
-/
theorem accepting_iff_keepsAccepting (n : Nat) (events : List (Event n)) :
    Execution.Always step Accepting (startServer n) events ↔
      Execution.Throughout step KeepsAccepting (startServer n) events :=
  Execution.always_iff_throughout_of_exact
    (fun _ _ _ good taken => accepting_step_iff good taken) (accepting_startServer n) events

/-- One session: its client connects, which leaves nothing to post, and leaves. -/
def fullThenClosed : List (Event 1) :=
  List.replicate maxPendingAccept (.acceptLoop {}) ++
    [.complete (.accept 0) 0 [] {}, .complete (.recv 0 0) 0 [] {}]

/-- Every Winsock call has succeeded, index 0 is free, and no `AcceptEx` is pending. -/
theorem fullThenClosed_not_accepting :
    ¬ Execution.Always step Accepting (startServer 1) fullThenClosed := by
  intro always
  have seen : (Execution.run? step (startServer 1) fullThenClosed).map
      (fun last => (last.acceptLoop, last.mFreeSessionList, last.kernel.accepting)) =
        some (0, [0], []) := by decide +kernel
  obtain ⟨last, good, observed⟩ := always.observed seen
  simp only [Prod.mk.injEq] at observed
  obtain ⟨done, free, pending⟩ := observed
  exact good done (by rw [free]; exact nofun) pending

end IOCompletionPort

end IOCPChatServer

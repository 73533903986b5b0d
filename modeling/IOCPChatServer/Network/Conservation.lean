import IOCPChatServer.Network.Accepting

/-!
# Conservation of session indices

Between two events every index should be free, posted with an `AcceptEx`, or held by
a connected session.  `CloseSocket` is the only way back to the free list and does
nothing for a session which is not connected; so an index is lost wherever a failing
call leaves its session closed without `CloseSocket`.
-/

namespace IOCPChatServer

namespace IOCompletionPort

variable {n : Nat}

/-- Every index is in exactly one place: once in the free list, or in one pending
`AcceptEx`, or connected. -/
def IndexConserved (port : IOCompletionPort n) : Prop :=
  ∀ index, port.mFreeSessionList.count index + port.kernel.accepting.count index +
    (port.client index).mIsConnected.toNat = 1

/-- No failing call loses an index: a popped index is posted; an accepted session is
updated and, if it was bound to the port, receives; a session which is still connected
when its `RECV` is processed receives again. -/
def LosesNoIndex (port : IOCompletionPort n) : Event n → Prop
  | .acceptLoop calls => calls.posts = true ∨ port.mFreeSessionList = []
  | .sendMsg _ _ _ => True
  | .complete (.accept index) _ _ calls =>
      (port.client index).updates calls = true ∧
        (ClientSession.bindIOCompletionPort calls = true → calls.wsaRecv = true) ∧
        (calls.posts = true ∨ port.freeAfterAccept index calls = [])
  | .complete (.recv index _) dwIoSize _ calls =>
      dwIoSize ≠ 0 → (port.client index).recvGeneration = (port.client index).mGeneration →
        (port.client index).mIsConnected = true → (port.client index).receives calls = true
  | .complete (.send _ _ _) _ _ _ => True

theorem indexConserved_startServer (n : Nat) : (startServer n).IndexConserved := by
  intro index
  have once : (List.finRange n).count index = 1 := by
    rw [(List.nodup_finRange n).count, if_pos (List.mem_finRange index)]
  simp [startServer, Kernel.accepting, client, once]

/-- A ticket whose accept is processed is conserved just when its session comes out
connected, or came out so and was closed by `CloseSocket`. -/
theorem accepted_conserved_iff {port : IOCompletionPort n}
    (conserved : port.tickets.Conserved) {index : Fin n}
    (posted : index ∈ port.tickets.posted) (calls : Winsock) :
    (accepted (port.tickets.answer index) index (port.accepts index calls)
        (port.connectedAfter index calls)).Conserved ↔
      port.connectedAfter index calls = true := by
  have answered := Tickets.conserved_answer_setHeld_iff conserved posted
  unfold accepted
  split
  · rename_i accepts
    rw [answered true, connectedAfter_of_accepts accepts]
  · rw [← answered]
    unfold Tickets.Conserved
    simp only [Tickets.count_handBack]

/-- Under conservation a posted index is not connected yet. -/
theorem connectedAfter_iff {port : IOCompletionPort n} (conserved : port.IndexConserved)
    {index : Fin n} (posted : index ∈ port.kernel.accepting) (calls : Winsock) :
    port.connectedAfter index calls = true ↔
      (port.client index).updates calls = true ∧
        (ClientSession.bindIOCompletionPort calls = true → calls.wsaRecv = true) := by
  have total := conserved index
  have positive := List.count_pos_iff.mpr posted
  have notConnected : (port.client index).mIsConnected = false := by
    cases connected : (port.client index).mIsConnected with
    | false => rfl
    | true =>
        rw [connected, Bool.toNat_true] at total
        omega
  unfold connectedAfter
  cases (port.client index).updates calls with
  | false => simp [notConnected]
  | true => cases ClientSession.bindIOCompletionPort calls <;> simp

/-- From a good state an event ends in a good state just when no failing call loses an
index. -/
theorem indexConserved_step_iff {port next : IOCompletionPort n} {event : Event n}
    (conserved : port.IndexConserved) (taken : port.step event = some next) :
    next.IndexConserved ↔ port.LosesNoIndex event := by
  have tickets := step_tickets taken
  have unchanged : next.IndexConserved ↔ (port.ticketsAfter event).Conserved := by
    rw [← tickets]
    exact Iff.rfl
  have before : port.tickets.Conserved := conserved
  rw [unchanged]
  cases event with
  | acceptLoop calls => exact Tickets.conserved_postNext_iff before calls.posts
  | sendMsg index message calls => exact ⟨fun _ => trivial, fun _ => before⟩
  | complete operation dwIoSize recvBuff calls =>
      have outstanding := step_complete_outstanding taken
      cases operation with
      | accept index =>
          have posted : index ∈ port.tickets.posted :=
            List.mem_filterMap.mpr ⟨.accept index, outstanding, rfl⟩
          have accepted := accepted_conserved_iff before posted calls
          rw [connectedAfter_iff conserved posted] at accepted
          simp only [ticketsAfter, LosesNoIndex]
          rw [← and_assoc, ← accepted, ← accepted_free]
          constructor
          · intro after
            have kept := Tickets.conserved_of_postNext
              (count_accepted_le (fun other => Nat.le_of_eq (before other)) posted _ _) after
            exact ⟨kept, (Tickets.conserved_postNext_iff kept calls.posts).mp after⟩
          · intro both
            exact (Tickets.conserved_postNext_iff both.1 calls.posts).mpr both.2
      | recv index socket =>
          by_cases zero : dwIoSize = 0
          · simp only [ticketsAfter, LosesNoIndex, zero, ↓reduceIte, ne_eq, not_true_eq_false,
              false_implies, iff_true]
            exact fun other => (Tickets.count_handBack _ _ _).trans (before other)
          · simp only [ticketsAfter, LosesNoIndex, zero, ↓reduceIte, ne_eq, not_false_eq_true,
              forall_const]
            split
            · rename_i failed
              rw [Tickets.conserved_setHeld_false_iff before]
              have same : port.tickets.held index = (port.client index).mIsConnected := rfl
              simp [same, failed]
            · rename_i notFailed
              refine ⟨fun _ current _ => ?_, fun _ => before⟩
              exact (Bool.not_eq_false _).mp fun fails => notFailed ⟨current, fails⟩
      | send index socket block =>
          refine ⟨fun _ => trivial, fun _ => ?_⟩
          simp only [ticketsAfter]
          split
          · exact fun other => (Tickets.count_handBack _ _ _).trans (before other)
          · exact before

/--
A run keeps every index in exactly one place precisely when none of its failing calls
loses one.
-/
theorem indexConserved_iff_losesNoIndex (n : Nat) (events : List (Event n)) :
    Execution.Always step IndexConserved (startServer n) events ↔
      Execution.Throughout step LosesNoIndex (startServer n) events :=
  Execution.always_iff_throughout_of_exact
    (fun _ _ _ conserved taken => indexConserved_step_iff conserved taken)
    (indexConserved_startServer n) events

/-- One session: its client connects and sends a byte, and the next `WSARecv` fails. -/
def receiveFails : List (Event 1) :=
  List.replicate maxPendingAccept (.acceptLoop {}) ++
    [.complete (.accept 0) 0 [] {}, .complete (.recv 0 0) 1 [5] { wsaRecv := false }]

/-- `BindRecv` has closed the session, and index 0 is nowhere. -/
theorem receiveFails_not_indexConserved :
    ¬ Execution.Always step IndexConserved (startServer 1) receiveFails := by
  intro always
  have seen : (Execution.run? step (startServer 1) receiveFails).map
      (fun last => (last.mFreeSessionList.count 0, last.kernel.accepting.count 0,
        (last.client 0).mIsConnected)) = some (0, 0, false) := by decide +kernel
  obtain ⟨last, conserved, observed⟩ := always.observed seen
  simp only [Prod.mk.injEq] at observed
  obtain ⟨free, pending, connected⟩ := observed
  have once := conserved 0
  rw [free, pending, connected] at once
  exact absurd once (by decide)

/-! ## A full server -/

/-- Every session is connected. -/
def Full (port : IOCompletionPort n) : Prop :=
  ∀ index, (port.client index).mIsConnected = true

/-- The event is no zero-byte completion while every session is connected. -/
def ClosesWhileNotFull (port : IOCompletionPort n) : Event n → Prop
  | .complete (.recv _ _) dwIoSize _ _ => dwIoSize = 0 → ¬ port.Full
  | .complete (.send _ _ _) dwIoSize _ _ => dwIoSize = 0 → ¬ port.Full
  | _ => True

/-- If no index is lost, a server on which no `AcceptEx` is pending is full. -/
theorem full_of_not_pending {port : IOCompletionPort n} (good : port.Accepting)
    (conserved : port.IndexConserved) (started : port.acceptLoop = 0)
    (pending : port.kernel.accepting = []) : port.Full := by
  intro index
  have free : port.mFreeSessionList = [] := by
    by_contra notEmpty
    exact good started notEmpty pending
  have once := conserved index
  rw [free, pending] at once
  cases connected : (port.client index).mIsConnected with
  | true => rfl
  | false =>
      rw [connected] at once
      cases once

theorem keepsAccepting_of_not_full {port : IOCompletionPort n} {event : Event n}
    (good : port.Accepting) (conserved : port.IndexConserved)
    (kept : port.LosesNoIndex event) (closes : port.ClosesWhileNotFull event) :
    port.KeepsAccepting event := by
  cases event with
  | acceptLoop calls =>
      intro _
      rcases kept with posts | empty
      · exact Or.inr (Or.inl posts)
      · rw [empty]
        exact Or.inr (Or.inr (Nat.zero_le 1))
  | sendMsg index message calls => trivial
  | complete operation dwIoSize recvBuff calls =>
      cases operation with
      | accept index =>
          intro _
          rcases kept.2.2 with posts | empty
          · exact Or.inr (Or.inl posts)
          · rw [empty]
            exact Or.inr (Or.inr (Nat.zero_le 1))
      | recv index socket =>
          exact fun started zero _ pending =>
            closes zero (full_of_not_pending good conserved started pending)
      | send index socket block =>
          exact fun started zero _ pending =>
            closes zero (full_of_not_pending good conserved started pending)

/--
In a run which loses no index the server can be cut off in one way only: a session is
closed while all sessions are connected.
-/
theorem accepting_of_not_full (n : Nat) {events : List (Event n)}
    (conditions : Execution.Throughout step
      (fun port event => port.LosesNoIndex event ∧ port.ClosesWhileNotFull event)
      (startServer n) events) :
    Execution.Always step Accepting (startServer n) events := by
  have both : Execution.Always step (fun port => port.Accepting ∧ port.IndexConserved)
      (startServer n) events := by
    refine Execution.always_of_throughout (fun port event next good condition taken => ?_)
      ⟨accepting_startServer n, indexConserved_startServer n⟩ conditions
    have keeps := keepsAccepting_of_not_full good.1 good.2 condition.1 condition.2
    exact ⟨(accepting_step_iff good.1 taken).mpr keeps,
      (indexConserved_step_iff good.2 taken).mpr condition.1⟩
  exact both.mono fun _ => And.left

end IOCompletionPort

end IOCPChatServer

import IOCPChatServer.Library.Execution
import IOCPChatServer.Library.Roster
import IOCPChatServer.Network.SessionTickets

/-!
# Announcing connections

`WorkerThread` announces an accepted session by `OnConnect` and counts it; `CloseSocket`
announces its end by `OnClose` and counts down.  `BindRecv` closes a session without
either.  The completion port is described by its roster of sessions.
-/

namespace IOCPChatServer

/-- What the callback tells about the session of an index: whether it is connected. -/
def Callback.signal? {n : Nat} (index : Fin n) : Callback n → Option Bool
  | .onConnect clientIndex => if clientIndex = index then some true else none
  | .onClose clientIndex => if clientIndex = index then some false else none
  | .onReceive _ _ => none

namespace IOCompletionPort

variable {n : Nat}

/-- The calls `OnConnect(index)` and `OnClose(index)`, in order. -/
def signals (port : IOCompletionPort n) (index : Fin n) : List Bool :=
  port.callbacks.filterMap (Callback.signal? index)

/-- The connected sessions, their announcements and their counter. -/
def roster (port : IOCompletionPort n) : Roster (Fin n) where
  present := fun index => (port.client index).mIsConnected
  signals := port.signals
  count := port.mClientCnt

/-- `OnConnect` and `OnClose` alternate for every index, beginning with `OnConnect`; a
session which is not connected is not announced to be; the connected sessions are counted. -/
structure AnnouncedOnce (port : IOCompletionPort n) : Prop where
  alternates : ∀ index, Alternating true (port.signals index)
  closed : ∀ index, (port.client index).mIsConnected = false →
    (port.signals index).getLast? ≠ some true
  counted : port.mClientCnt =
    ((List.finRange n).countP fun index => (port.client index).mIsConnected : Nat)
  nonneg : 0 ≤ port.mClientCnt

theorem announcedOnce_iff (port : IOCompletionPort n) :
    port.AnnouncedOnce ↔ port.roster.Balanced (List.finRange n) := by
  constructor
  · intro announced
    exact ⟨announced.alternates,
      fun index gone => Roster.arrived_eq_false_iff.mpr (announced.closed index gone),
      announced.counted⟩
  · intro balanced
    have counted : port.mClientCnt =
        ((List.finRange n).countP fun index => (port.client index).mIsConnected : Nat) :=
      balanced.counted
    exact ⟨balanced.alternates,
      fun index gone => Roster.arrived_eq_false_iff.mp (balanced.dismissed index gone),
      counted, counted ▸ Int.natCast_nonneg _⟩

/-! ## What each function does to the roster -/

theorem signals_call (port : IOCompletionPort n) (callback : Callback n) (index : Fin n) :
    (port.call callback).signals index =
      port.signals index ++ (callback.signal? index).toList := by
  unfold signals call
  rw [List.filterMap_append]
  cases told : callback.signal? index with
  | none => rw [List.filterMap_cons_none told]; rfl
  | some signal => rw [List.filterMap_cons_some told]; rfl

/-- The announcement of one session leaves the signals of the others alone. -/
theorem signals_update (port : IOCompletionPort n) {callback : Callback n} {index : Fin n}
    {signal : Bool} (own : ∀ other, callback.signal? other =
      if index = other then some signal else none) :
    (port.call callback).signals =
      Function.update port.signals index (port.signals index ++ [signal]) := by
  funext other
  rw [signals_call, own]
  rcases eq_or_ne other index with rfl | different
  · rw [if_pos rfl, Function.update_self]
    rfl
  · rw [if_neg (Ne.symm different), Function.update_of_ne different]
    exact List.append_nil _

/-- One session is replaced, together with the kernel. -/
theorem roster_setClient (port : IOCompletionPort n) (index : Fin n)
    (session : ClientSession n index) (kernel : Kernel n) :
    ((port.setClient index session).setKernel kernel).roster =
      port.roster.setPresent index session.mIsConnected := by
  unfold roster Roster.setPresent
  congr 1
  funext other
  rcases eq_or_ne other index with rfl | different
  · simp [client, setClient, setKernel]
  · simp [client, setClient, setKernel, different]

theorem roster_setClient_same {port : IOCompletionPort n} {index : Fin n}
    {session : ClientSession n index} {kernel : Kernel n}
    (same : session.mIsConnected = (port.client index).mIsConnected) :
    ((port.setClient index session).setKernel kernel).roster = port.roster := by
  rw [roster_setClient, Roster.setPresent_eq_self _ same.symm]

theorem closeSocket_roster (port : IOCompletionPort n) (index : Fin n) :
    (port.closeSocket index).roster = port.roster.dismiss index := by
  unfold closeSocket Roster.dismiss
  cases connected : (port.client index).mIsConnected with
  | false =>
      have absent : port.roster.present index = false := connected
      simp [absent]
  | true =>
      have present : port.roster.present index = true := connected
      have replaced := congrArg Roster.present
        (port.roster_setClient index (port.client index).closed port.kernel)
      have told : ((port.setClient index (port.client index).closed).call
          (.onClose index)).signals =
            Function.update port.signals index (port.signals index ++ [false]) :=
        (port.setClient index (port.client index).closed).signals_update fun _ => rfl
      simp only [Bool.true_eq_false, ↓reduceIte, present]
      exact Roster.ext replaced told rfl

theorem postNextAccept_roster (port : IOCompletionPort n) (calls : Winsock) :
    (port.postNextAccept calls).roster = port.roster := by
  unfold postNextAccept popFreeSessionIndex
  cases port.mFreeSessionList.getLast? with
  | none => rfl
  | some index =>
      have popped : ({ port with mFreeSessionList := port.mFreeSessionList.dropLast } :
          IOCompletionPort n).roster = port.roster := rfl
      refine (roster_setClient_same ?_).trans popped
      exact (ClientSession.postImmediateAccept_spec _ _ calls).1

/-- The roster when `WorkerThread` has dealt with the result of `AcceptCompletion`. -/
def enrolled (roster : Roster (Fin n)) (index : Fin n) (accepts connected : Bool) :
    Roster (Fin n) :=
  if accepts then roster.enroll index
  else (roster.setPresent index connected).dismiss index

theorem answered_roster (port : IOCompletionPort n) (index : Fin n) (calls : Winsock) :
    (port.answered index calls).roster =
      port.roster.setPresent index (port.connectedAfter index calls) := by
  obtain ⟨_, connected, _⟩ := ClientSession.acceptCompletion_spec
    (port.client index) port.kernel calls
  unfold answered
  rw [roster_setClient, connected]
  rfl

theorem completeAccept_roster (port : IOCompletionPort n) (index : Fin n)
    (calls : Winsock) :
    (port.completeAccept index calls).roster =
      enrolled port.roster index (port.accepts index calls)
        (port.connectedAfter index calls) := by
  have answered := port.answered_roster index calls
  rw [completeAccept_eq, postNextAccept_roster, answerAccept_eq]
  unfold enrolled
  split
  · rename_i accepts
    rw [connectedAfter_of_accepts accepts] at answered
    have present := congrArg Roster.present answered
    have told : (({ port with mClientCnt := port.mClientCnt + 1 } :
        IOCompletionPort n).call (.onConnect index)).signals =
          Function.update port.signals index (port.signals index ++ [true]) :=
      ({ port with mClientCnt := port.mClientCnt + 1 } :
        IOCompletionPort n).signals_update fun _ => rfl
    exact Roster.ext present told rfl
  · rw [closeSocket_roster, answered]

theorem completeRecv_roster (port : IOCompletionPort n) (index : Fin n) (data : Bytes)
    (calls : Winsock) :
    (port.completeRecv index data calls).roster =
      if (port.client index).recvGeneration = (port.client index).mGeneration ∧
          (port.client index).receives calls = false then
        port.roster.setPresent index false
      else port.roster := by
  obtain ⟨_, connected, _⟩ := ClientSession.bindRecv_spec
    (port.client index) port.kernel calls
  have received : (port.call (.onReceive index data)).roster = port.roster := by
    refine Roster.ext rfl (funext fun other => ?_) rfl
    exact (port.signals_call (.onReceive index data) other).trans (List.append_nil _)
  unfold completeRecv
  split
  · rename_i stale
    exact (if_neg fun failed => stale failed.1).symm
  · rename_i current
    dsimp only
    rw [roster_setClient, received]
    have bound : (((port.call (.onReceive index data)).client index).bindRecv
        (port.call (.onReceive index data)).kernel calls).2.1.mIsConnected =
          ((port.client index).mIsConnected && (port.client index).receives calls) := connected
    rw [bound]
    cases receives : (port.client index).receives calls with
    | true =>
        rw [Bool.and_true, if_neg (fun failed => nomatch failed.2)]
        exact Roster.setPresent_eq_self _ rfl
    | false => rw [Bool.and_false, if_pos ⟨not_not.mp current, rfl⟩]

theorem completeSend_roster {port next : IOCompletionPort n} {index : Fin n} {block : Nat}
    {calls : Winsock} (completed : port.completeSend index block calls = some next) :
    next.roster = port.roster := by
  unfold completeSend at completed
  split at completed
  · cases completed
    rfl
  · obtain ⟨⟨session, pool, kernel⟩, sent, rfl⟩ := Option.map_eq_some_iff.mp completed
    have kept : ((port.setClient index session).setKernel kernel).roster = port.roster :=
      roster_setClient_same (ClientSession.sendComplete_spec sent).1
    exact kept

/-- The roster after an event. -/
def rosterAfter (port : IOCompletionPort n) : Event n → Roster (Fin n)
  | .acceptLoop _ => port.roster
  | .sendMsg _ _ _ => port.roster
  | .complete (.accept index) _ _ calls =>
      enrolled port.roster index (port.accepts index calls) (port.connectedAfter index calls)
  | .complete (.recv index _) dwIoSize _ calls =>
      if dwIoSize = 0 then port.roster.dismiss index
      else if (port.client index).recvGeneration = (port.client index).mGeneration ∧
          (port.client index).receives calls = false then port.roster.setPresent index false
      else port.roster
  | .complete (.send index _ _) dwIoSize _ _ =>
      if dwIoSize = 0 then port.roster.dismiss index else port.roster

theorem step_roster {port next : IOCompletionPort n} {event : Event n}
    (taken : port.step event = some next) : next.roster = port.rosterAfter event := by
  cases event with
  | acceptLoop calls =>
      simp only [step] at taken
      split at taken
      · cases taken
      · cases taken
        exact postNextAccept_roster _ calls
  | sendMsg index message calls =>
      cases taken
      have kept (kernel : Kernel n) : ((port.setClient index ((port.client index).sendMsg
          port.mSendBufferPool port.kernel message calls).2.1).setKernel kernel).roster =
            port.roster :=
        roster_setClient_same (ClientSession.sendMsg_spec (port.client index)
          port.mSendBufferPool port.kernel message calls).1
      exact kept port.kernel
  | complete operation dwIoSize recvBuff calls =>
      simp only [step] at taken
      split at taken
      · cases operation with
        | accept index =>
            cases taken
            exact completeAccept_roster _ index calls
        | recv index socket =>
            simp only [complete] at taken
            simp only [rosterAfter]
            split at taken
            · rename_i zero
              cases taken
              rw [if_pos zero]
              exact closeSocket_roster _ index
            · rename_i notZero
              cases taken
              rw [if_neg notZero]
              exact completeRecv_roster _ index _ calls
        | send index socket block =>
            simp only [complete] at taken
            simp only [rosterAfter]
            split at taken
            · rename_i zero
              cases taken
              rw [if_pos zero]
              exact closeSocket_roster _ index
            · rename_i notZero
              rw [if_neg notZero]
              exact (completeSend_roster taken).trans rfl
      · cases taken

/-! ## What holds in every run -/

/-- No index is in two places, and every connected session has been announced. -/
structure OnePlace (port : IOCompletionPort n) : Prop where
  exclusive : port.Exclusive
  announced : port.roster.Announced

theorem onePlace_startServer (n : Nat) : (startServer n).OnePlace where
  exclusive := exclusive_startServer n
  announced := fun _ => nofun

theorem announced_dismiss_self {roster : Roster (Fin n)} (announced : roster.Announced)
    (index : Fin n) : (roster.dismiss index).Announced :=
  Roster.announced_dismiss fun other _ => announced other

theorem announced_enrolled {roster : Roster (Fin n)} (announced : roster.Announced)
    (index : Fin n) (accepts connected : Bool) :
    (enrolled roster index accepts connected).Announced := by
  unfold enrolled
  split
  · exact Roster.announced_enroll announced index
  · refine Roster.announced_dismiss fun other different present => ?_
    exact announced other ((Function.update_of_ne different ..).symm.trans present)

theorem onePlace_step {port next : IOCompletionPort n} {event : Event n}
    (good : port.OnePlace) (taken : port.step event = some next) : next.OnePlace := by
  refine ⟨exclusive_step good.exclusive taken, ?_⟩
  · rw [step_roster taken]
    cases event with
    | acceptLoop calls => exact good.announced
    | sendMsg index message calls => exact good.announced
    | complete operation dwIoSize recvBuff calls =>
        cases operation with
        | accept index => exact announced_enrolled good.announced index _ _
        | recv index socket =>
            simp only [rosterAfter]
            split
            · exact announced_dismiss_self good.announced index
            · split
              · exact Roster.announced_setPresent_false good.announced index
              · exact good.announced
        | send index socket block =>
            simp only [rosterAfter]
            split
            · exact announced_dismiss_self good.announced index
            · exact good.announced

/-! ## When the announcements stay right -/

/-- An accepted session whose context was updated is bound to the port, and a connected
session whose `RECV` is processed receives again. -/
def KeepsAnnouncements (port : IOCompletionPort n) : Event n → Prop
  | .acceptLoop _ => True
  | .sendMsg _ _ _ => True
  | .complete (.accept index) _ _ calls =>
      (port.client index).updates calls = true →
        ClientSession.bindIOCompletionPort calls = true
  | .complete (.recv index _) dwIoSize _ calls =>
      dwIoSize ≠ 0 → (port.client index).recvGeneration = (port.client index).mGeneration →
        (port.client index).mIsConnected = true → (port.client index).receives calls = true
  | .complete (.send _ _ _) _ _ _ => True

/-- A session whose accept is processed is announced, or never was connected, unless it
could not be bound to the port. -/
theorem balanced_enrolled_iff {port : IOCompletionPort n} {index : Fin n}
    (balanced : port.roster.Balanced (List.finRange n)) (announced : port.roster.Announced)
    (absent : port.roster.present index = false) (calls : Winsock) :
    (enrolled port.roster index (port.accepts index calls)
        (port.connectedAfter index calls)).Balanced (List.finRange n) ↔
      ((port.client index).updates calls = true →
        ClientSession.bindIOCompletionPort calls = true) := by
  have nodup := List.nodup_finRange n
  have listed := List.mem_finRange index
  have notConnected : (port.client index).mIsConnected = false := absent
  have stays : (enrolled port.roster index false false).Balanced (List.finRange n) := by
    unfold enrolled
    rw [if_neg Bool.false_ne_true, Roster.setPresent_eq_self _ absent]
    exact Roster.balanced_dismiss balanced announced nodup listed
  cases updates : (port.client index).updates calls with
  | false =>
      have refused : port.accepts index calls = false := by
        unfold IOCompletionPort.accepts
        rw [updates]
        rfl
      have still : port.connectedAfter index calls = false := by
        unfold connectedAfter
        rw [updates, if_neg Bool.false_ne_true, notConnected]
      rw [refused, still]
      exact ⟨fun _ => nofun, fun _ => stays⟩
  | true =>
      cases bound : ClientSession.bindIOCompletionPort calls with
      | false =>
          have refused : port.accepts index calls = false := by
            unfold IOCompletionPort.accepts
            rw [updates, bound]
            rfl
          have connected : port.connectedAfter index calls = true := by
            unfold connectedAfter
            rw [updates, if_pos rfl, bound]
            rfl
          rw [refused, connected]
          constructor
          · intro after
            exact absurd after (Roster.not_balanced_dismiss balanced absent)
          · exact fun all => nomatch all rfl
      | true =>
          refine ⟨fun _ _ => rfl, fun _ => ?_⟩
          unfold IOCompletionPort.accepts connectedAfter
          rw [updates, bound]
          cases calls.wsaRecv with
          | true => exact Roster.balanced_enroll balanced nodup listed absent
          | false => exact stays

theorem announcedOnce_step_iff {port next : IOCompletionPort n} {event : Event n}
    (good : port.OnePlace) (once : port.AnnouncedOnce) (taken : port.step event = some next) :
    next.AnnouncedOnce ↔ port.KeepsAnnouncements event := by
  have balanced := port.announcedOnce_iff.mp once
  have announced := good.announced
  have dismissed (index : Fin n) : (port.roster.dismiss index).Balanced (List.finRange n) :=
    Roster.balanced_dismiss balanced announced (List.nodup_finRange n) (List.mem_finRange index)
  rw [announcedOnce_iff, step_roster taken]
  cases event with
  | acceptLoop calls => exact ⟨fun _ => trivial, fun _ => balanced⟩
  | sendMsg index message calls => exact ⟨fun _ => trivial, fun _ => balanced⟩
  | complete operation dwIoSize recvBuff calls =>
      cases operation with
      | accept index =>
          have absent : port.roster.present index = false :=
            good.exclusive.not_connected_of_accepting (step_complete_outstanding taken)
          exact balanced_enrolled_iff balanced announced absent calls
      | recv index socket =>
          simp only [rosterAfter, KeepsAnnouncements]
          split
          · rename_i zero
            exact ⟨fun _ notZero => absurd zero notZero, fun _ => dismissed index⟩
          · rename_i notZero
            split
            · rename_i failed
              rw [Roster.balanced_setPresent_false_iff balanced announced]
              have same : port.roster.present index = (port.client index).mIsConnected := rfl
              simp [same, failed, notZero]
            · rename_i notFailed
              refine ⟨fun _ _ current _ => ?_, fun _ => balanced⟩
              exact (Bool.not_eq_false _).mp fun fails => notFailed ⟨current, fails⟩
      | send index socket block =>
          simp only [rosterAfter]
          refine ⟨fun _ => trivial, fun _ => ?_⟩
          split
          · exact dismissed index
          · exact balanced

theorem announcedOnce_startServer (n : Nat) : (startServer n).AnnouncedOnce where
  alternates := fun _ => trivial
  closed := fun _ _ => nofun
  counted := by
    have nobody : (List.finRange n).countP
        (fun index => ((startServer n).client index).mIsConnected) = 0 :=
      List.countP_eq_zero.mpr fun _ _ => Bool.false_ne_true
    rw [nobody]
    rfl
  nonneg := Int.le_refl 0

/--
In every state of a run the announcements alternate, closed sessions have been announced
as closed and the counter is right, precisely when no accepted session fails to be bound
to the port and no connected session fails to receive again.
-/
theorem announcedOnce_iff_keepsAnnouncements (n : Nat) (events : List (Event n)) :
    Execution.Always step AnnouncedOnce (startServer n) events ↔
      Execution.Throughout step KeepsAnnouncements (startServer n) events :=
  Execution.always_iff_throughout
    (fun _ _ _ good taken => onePlace_step good taken)
    (fun _ _ _ good once taken => announcedOnce_step_iff good once taken)
    (onePlace_startServer n) (announcedOnce_startServer n) events

/-- One session: its client connects and sends a byte, and the next `WSARecv` fails. -/
def rearmFails : List (Event 1) :=
  [.acceptLoop {}, .complete (.accept 0) 0 [] {},
    .complete (.recv 0 0) 1 [5] { wsaRecv := false }]

/-- The session is closed without `OnClose`, and still counted. -/
theorem rearmFails_not_announcedOnce :
    ¬ Execution.Always step AnnouncedOnce (startServer 1) rearmFails := by
  intro always
  have seen : (Execution.run? step (startServer 1) rearmFails).map
      (fun last => ((last.client 0).mIsConnected, (last.signals 0).getLast?)) =
        some (false, some true) := by decide +kernel
  obtain ⟨last, once, observed⟩ := always.observed seen
  obtain ⟨closed, signals⟩ := Prod.mk.inj observed
  exact once.closed 0 closed signals

end IOCompletionPort

end IOCPChatServer

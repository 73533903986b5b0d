import IOCPChatServer.ClientSession
import IOCPChatServer.Library.Execution

/-!
# The timeout check

`TimeoutCheckThread` of `IOCP.h` runs beside the workers, which stamp the time of each
activity into its session.  Every step makes at most one access to what the threads share,
and the clock moves between the steps.  A message which `SendMsg` queues decides nothing here.

`history` and `shutdowns` are histories.
-/

namespace IOCPChatServer

/-- `TIMEOUT_MS` -/
def timeoutMs : UInt64 := 60000

/-- `PING_INTERVAL_MS` -/
def pingIntervalMs : UInt64 := 30000

/-- What the timeout check reads of a session. -/
structure SessionActivity where
  m_socketClient : Option Socket := none
  mIsConnected : Bool := false
  mLastActivityTime : UInt64 := 0
  mLastPingTime : UInt64 := 0
  deriving DecidableEq, Repr

/-- Where a worker is in `UpdateActivity`.  The first of its two readings of the clock is
not used. -/
inductive WorkerStage (n : Nat) where
  | idle
  | updating (session : Fin n)
  | read (session : Fin n) (time : UInt64)
  | stored (session : Fin n)
  deriving DecidableEq, Repr

/-- Where `TimeoutCheckThread` is; `now` was read when the scan began. -/
inductive ScanStage (n : Nat) where
  | asleep
  | checking (now : UInt64) (i : Nat)
  | connected (now : UInt64) (i : Fin n)
  | loaded (now : UInt64) (i : Fin n) (lastActivity : UInt64)
  | pinging (now : UInt64) (i : Fin n)
  | pingLoaded (now : UInt64) (i : Fin n) (lastping : UInt64)
  deriving DecidableEq, Repr

/-- What happened to a session, with the clock at that moment. -/
inductive Moment (n : Nat) where
  | connect (session : Fin n) (time : UInt64)
  | activity (session : Fin n) (time : UInt64)
  | ping (session : Fin n) (time : UInt64)
  | disconnectAsync (session : Fin n) (time : UInt64)
  deriving DecidableEq, Repr

/-- The sessions, the workers and the thread which checks for timeouts. -/
structure TimeoutCheck (n workerCount : Nat) where
  clock : UInt64 := 0
  sessions : Fin n → SessionActivity := fun _ => {}
  workers : Fin workerCount → WorkerStage n := fun _ => .idle
  scan : ScanStage n := .asleep
  mIsTimeoutRun : Bool := true
  shutdowns : List Socket := []
  history : List (Moment n) := []

namespace TimeoutCheck

variable {n workerCount : Nat}

def setSession (state : TimeoutCheck n workerCount) (i : Fin n) (session : SessionActivity) :
    TimeoutCheck n workerCount :=
  { state with sessions := Function.update state.sessions i session }

def setWorker (state : TimeoutCheck n workerCount) (worker : Fin workerCount)
    (stage : WorkerStage n) : TimeoutCheck n workerCount :=
  { state with workers := Function.update state.workers worker stage }

def record (state : TimeoutCheck n workerCount) (moment : Moment n) :
    TimeoutCheck n workerCount :=
  { state with history := state.history ++ [moment] }

/-- `OnConnect` up to its call of `UpdateActivity`. -/
def onConnect (state : TimeoutCheck n workerCount) (worker : Fin workerCount) (i : Fin n)
    (socket : Socket) : TimeoutCheck n workerCount :=
  ((state.setSession i { state.sessions i with
    m_socketClient := some socket
    mIsConnected := true }).setWorker worker (.updating i)).record (.connect i state.clock)

/-- `Closed` -/
def closed (state : TimeoutCheck n workerCount) (i : Fin n) : TimeoutCheck n workerCount :=
  state.setSession i { state.sessions i with
    mIsConnected := false
    m_socketClient := none }

/-- The next access of a worker in `UpdateActivity`. -/
def updateActivity (state : TimeoutCheck n workerCount) (worker : Fin workerCount) :
    Option (TimeoutCheck n workerCount) :=
  match state.workers worker with
  | .idle => none
  | .updating i =>
      some ((state.setWorker worker (.read i state.clock)).record (.activity i state.clock))
  | .read i time =>
      some ((state.setSession i { state.sessions i with mLastActivityTime := time }).setWorker
        worker (.stored i))
  | .stored i =>
      some ((state.setSession i { state.sessions i with mLastPingTime := 0 }).setWorker
        worker .idle)

/-- `DisconnectAsync` -/
def disconnectAsync (state : TimeoutCheck n workerCount) (i : Fin n) :
    TimeoutCheck n workerCount :=
  { state with shutdowns := state.shutdowns ++ (state.sessions i).m_socketClient.toList }.record
    (.disconnectAsync i state.clock)

/-- The next access of `TimeoutCheckThread`.  The differences of times are unsigned. -/
def timeoutCheckThread (state : TimeoutCheck n workerCount) :
    Option (TimeoutCheck n workerCount) :=
  match state.scan with
  | .asleep =>
      if state.mIsTimeoutRun then some { state with scan := .checking state.clock 0 } else none
  | .checking now i =>
      if bound : i < n then
        if (state.sessions ⟨i, bound⟩).mIsConnected then
          some { state with scan := .connected now ⟨i, bound⟩ }
        else some { state with scan := .checking now (i + 1) }
      else some { state with scan := .asleep }
  | .connected now i =>
      some { state with scan := .loaded now i (state.sessions i).mLastActivityTime }
  | .loaded now i lastActivity =>
      let elapsed := now - lastActivity
      if elapsed ≥ timeoutMs then
        some { state.disconnectAsync i with scan := .checking now (i + 1) }
      else if elapsed ≥ pingIntervalMs then some { state with scan := .pinging now i }
      else some { state with scan := .checking now (i + 1) }
  | .pinging now i =>
      some { state with scan := .pingLoaded now i (state.sessions i).mLastPingTime }
  | .pingLoaded now i lastping =>
      if now - lastping ≥ pingIntervalMs then
        some { (state.setSession i { state.sessions i with mLastPingTime := now }).record
          (.ping i state.clock) with scan := .checking now (i + 1) }
      else some { state with scan := .checking now (i + 1) }

/-- `receive` is the completion of a receive, which calls `UpdateActivity`. -/
inductive Event (n workerCount : Nat) where
  | tick (time : UInt64)
  | onConnect (worker : Fin workerCount) (i : Fin n) (socket : Socket)
  | receive (worker : Fin workerCount) (i : Fin n)
  | updateActivity (worker : Fin workerCount)
  | closed (i : Fin n)
  | timeoutCheckThread
  | stopTimeout
  deriving DecidableEq

/-- The clock does not go back. -/
def step (state : TimeoutCheck n workerCount) :
    Event n workerCount → Option (TimeoutCheck n workerCount)
  | .tick time => if state.clock ≤ time then some { state with clock := time } else none
  | .onConnect worker i socket =>
      if state.workers worker = .idle then some (state.onConnect worker i socket) else none
  | .receive worker i =>
      if state.workers worker = .idle then some (state.setWorker worker (.updating i)) else none
  | .updateActivity worker => state.updateActivity worker
  | .closed i => some (state.closed i)
  | .timeoutCheckThread => state.timeoutCheckThread
  | .stopTimeout => some { state with mIsTimeoutRun := false }

/-! ## Silence -/

/-- A session which is disconnected was neither connected nor active within the timeout. -/
def Silent (earlier : List (Moment n)) : Moment n → Prop
  | .disconnectAsync i time => ∀ before,
      (.connect i before ∈ earlier ∨ .activity i before ∈ earlier) →
        before.toNat + timeoutMs.toNat ≤ time.toNat
  | _ => True

/-- Only silent sessions were disconnected. -/
def OnlySilent (state : TimeoutCheck n workerCount) : Prop :=
  Execution.Admits Silent state.history

end TimeoutCheck

/-- The session whose activity a worker has not stored. -/
def WorkerStage.stamping? {n : Nat} : WorkerStage n → Option (Fin n)
  | .updating i => some i
  | .read i _ => some i
  | _ => none

/-- The worker is going to store a time of the session which is not before this one. -/
def WorkerStage.Announces {n : Nat} (stage : WorkerStage n) (i : Fin n) (time : UInt64) : Prop :=
  match stage with
  | .updating j => j = i
  | .read j stamp => j = i ∧ time ≤ stamp
  | _ => False

theorem WorkerStage.Announces.stamping? {n : Nat} {stage : WorkerStage n} {i : Fin n}
    {time : UInt64} (announces : stage.Announces i time) : stage.stamping? = some i := by
  cases stage with
  | idle => exact announces.elim
  | updating j => exact congrArg some (show j = i from announces)
  | read j stamp => exact congrArg some announces.1
  | stored j => exact announces.elim

def ScanStage.now? {n : Nat} : ScanStage n → Option UInt64
  | .asleep => none
  | .checking now _ => some now
  | .connected now _ => some now
  | .loaded now _ _ => some now
  | .pinging now _ => some now
  | .pingLoaded now _ _ => some now

namespace TimeoutCheck

variable {n workerCount : Nat}

/-- The condition on a step: a scan which finds a timeout loaded a time which is not after its
own, which the session still has, and which no worker is about to replace; and no worker stores
a time before the one which the session has. -/
def Timely (state : TimeoutCheck n workerCount) : Event n workerCount → Prop
  | .timeoutCheckThread =>
      match state.scan with
      | .loaded now i lastActivity => now - lastActivity ≥ timeoutMs →
          lastActivity ≤ now ∧ (state.sessions i).mLastActivityTime = lastActivity ∧
            ∀ worker, (state.workers worker).stamping? ≠ some i
      | _ => True
  | .updateActivity worker =>
      match state.workers worker with
      | .read i time => (state.sessions i).mLastActivityTime ≤ time
      | _ => True
  | _ => True

instance (state : TimeoutCheck n workerCount) (event : Event n workerCount) :
    Decidable (state.Timely event) := by
  unfold Timely
  split
  · split <;> infer_instance
  · split <;> infer_instance
  · infer_instance

/-- The session was connected or active at that time. -/
def Stirred (state : TimeoutCheck n workerCount) (i : Fin n) (time : UInt64) : Prop :=
  .connect i time ∈ state.history ∨ .activity i time ∈ state.history

/-- The times which the threads hold are not ahead of the clock, and whatever stirred a session
is stamped into it or a worker is about to do so. -/
structure Stamped (state : TimeoutCheck n workerCount) : Prop where
  now_le : ∀ now, state.scan.now? = some now → now ≤ state.clock
  past : ∀ i time, state.Stirred i time → time ≤ state.clock
  stamped : ∀ i time, state.Stirred i time →
    time ≤ (state.sessions i).mLastActivityTime ∨
      ∃ worker, (state.workers worker).Announces i time

/-- What a step has to do for the stamps. -/
theorem Stamped.advance {state next : TimeoutCheck n workerCount} (stamps : state.Stamped)
    (clock : state.clock ≤ next.clock)
    (now_le : ∀ now, next.scan.now? = some now → now ≤ next.clock)
    (stirred : ∀ i time, next.Stirred i time → state.Stirred i time ∨
      time = next.clock ∧ ∃ worker, (next.workers worker).Announces i time)
    (kept : ∀ i time, time ≤ (state.sessions i).mLastActivityTime →
      time ≤ (next.sessions i).mLastActivityTime)
    (announced : ∀ i time worker, time ≤ state.clock → (state.workers worker).Announces i time →
      time ≤ (next.sessions i).mLastActivityTime ∨
        ∃ worker, (next.workers worker).Announces i time) : next.Stamped := by
  refine ⟨now_le, fun i time stirs => ?_, fun i time stirs => ?_⟩
  · rcases stirred i time stirs with before | ⟨rfl, _⟩
    · exact UInt64.le_trans (stamps.past i time before) clock
    · exact UInt64.le_refl _
  · rcases stirred i time stirs with before | ⟨_, announces⟩
    · rcases stamps.stamped i time before with stored | ⟨worker, announces⟩
      · exact .inl (kept i time stored)
      · exact announced i time worker (stamps.past i time before) announces
    · exact .inr announces

/-- A step which leaves the times, the workers and what stirred the sessions. -/
theorem Stamped.frame {state next : TimeoutCheck n workerCount} (stamps : state.Stamped)
    (clock : state.clock ≤ next.clock)
    (now_le : ∀ now, next.scan.now? = some now → now ≤ next.clock)
    (stirred : ∀ i time, next.Stirred i time → state.Stirred i time)
    (times : ∀ i, (next.sessions i).mLastActivityTime = (state.sessions i).mLastActivityTime)
    (workers : next.workers = state.workers) : next.Stamped := by
  refine stamps.advance clock now_le (fun i time stirs => .inl (stirred i time stirs))
    (fun i time stored => (times i).symm ▸ stored) fun i time worker _ announces => ?_
  exact .inr ⟨worker, workers.symm ▸ announces⟩

theorem stirred_record {state : TimeoutCheck n workerCount} {moment : Moment n} {i : Fin n}
    {time : UInt64} : (state.record moment).Stirred i time ↔
      state.Stirred i time ∨ moment = .connect i time ∨ moment = .activity i time := by
  simp only [Stirred, record, List.mem_append, List.mem_singleton, eq_comm (b := moment)]
  tauto

/-- A session which changes but for the time of its last activity. -/
theorem setSession_time (state : TimeoutCheck n workerCount) (i : Fin n)
    (session : SessionActivity)
    (same : session.mLastActivityTime = (state.sessions i).mLastActivityTime) (j : Fin n) :
    ((state.setSession i session).sessions j).mLastActivityTime =
      (state.sessions j).mLastActivityTime := by
  rcases eq_or_ne j i with rfl | different
  · simpa [setSession] using same
  · simp [setSession, different]

/-- What a worker announces is not touched by one which announces nothing of it. -/
theorem announces_setWorker {state : TimeoutCheck n workerCount} {worker other : Fin workerCount}
    {stage : WorkerStage n} {i : Fin n} {time : UInt64}
    (silent : ¬(state.workers worker).Announces i time)
    (announces : (state.workers other).Announces i time) :
    ((state.setWorker worker stage).workers other).Announces i time := by
  have different : other ≠ worker := by
    rintro rfl
    exact silent announces
  simpa [setWorker, different] using announces

/-- A worker which begins to stamp a session. -/
theorem Stamped.updating {state : TimeoutCheck n workerCount} (stamps : state.Stamped)
    {worker : Fin workerCount} (free : state.workers worker = .idle) (i : Fin n) :
    (state.setWorker worker (.updating i)).Stamped := by
  refine stamps.advance (UInt64.le_refl _) stamps.now_le (fun j time stirs => .inl stirs)
    (fun j time stored => stored) fun j time other _ announces => .inr ⟨other, ?_⟩
  have silent : ¬(state.workers worker).Announces j time := by
    rw [free]
    exact id
  exact announces_setWorker silent announces

theorem Stamped.onConnect {state : TimeoutCheck n workerCount} (stamps : state.Stamped)
    {worker : Fin workerCount} (free : state.workers worker = .idle) (i : Fin n)
    (socket : Socket) : (state.onConnect worker i socket).Stamped := by
  have updates : (state.onConnect worker i socket).workers worker = .updating i :=
    Function.update_self ..
  have times := state.setSession_time i
    { state.sessions i with m_socketClient := some socket, mIsConnected := true } rfl
  refine (stamps.updating free i).advance (UInt64.le_refl _) stamps.now_le ?_ ?_ ?_
  · intro j time stirs
    rcases stirred_record.mp stirs with before | connect | activity
    · exact .inl before
    · cases connect
      exact .inr ⟨rfl, worker, by rw [updates]; rfl⟩
    · cases activity
  · intro j time stored
    exact (times j).symm ▸ stored
  · intro j time other _ announces
    exact .inr ⟨other, announces⟩

/-- The next access of a worker in `UpdateActivity` keeps the stamps, if it does not store a
time before the one which the session has. -/
theorem Stamped.updateActivity {state next : TimeoutCheck n workerCount}
    (stamps : state.Stamped) {worker : Fin workerCount}
    (timely : state.Timely (.updateActivity worker))
    (taken : state.updateActivity worker = some next) : next.Stamped := by
  simp only [Timely] at timely
  simp only [TimeoutCheck.updateActivity] at taken
  cases stage : state.workers worker with
  | idle => simp [stage] at taken
  | updating i =>
      -- what this worker announced it has now read, not before anything that happened
      simp only [stage, Option.some.injEq] at taken
      subst taken
      have reads : ((state.setWorker worker (.read i state.clock)).workers worker) =
          .read i state.clock := Function.update_self ..
      refine stamps.advance (UInt64.le_refl _) stamps.now_le ?_ (fun j time stored => stored) ?_
      · intro j time stirs
        rcases stirred_record.mp stirs with before | connect | activity
        · exact .inl before
        · cases connect
        · cases activity
          exact .inr ⟨rfl, worker, by rw [record, reads]; exact ⟨rfl, UInt64.le_refl _⟩⟩
      · intro j time other past announces
        refine .inr ⟨other, ?_⟩
        rcases eq_or_ne other worker with rfl | different
        · rw [stage] at announces
          rw [record, reads]
          exact ⟨announces, past⟩
        · simpa [record, setWorker, different] using announces
  | read i read =>
      simp only [stage, Option.some.injEq] at taken timely
      subst taken
      have stores (j : Fin n) (time : UInt64)
          (stored : time ≤ (state.sessions j).mLastActivityTime ∨ j = i ∧ time ≤ read) :
          time ≤ (Function.update state.sessions i
            { state.sessions i with mLastActivityTime := read } j).mLastActivityTime := by
        rcases eq_or_ne j i with rfl | different
        · rw [Function.update_self]
          exact stored.elim (fun before => UInt64.le_trans before timely) And.right
        · rw [Function.update_of_ne different]
          exact stored.resolve_right fun same => different same.1
      refine stamps.advance (UInt64.le_refl _) stamps.now_le (fun j time stirs => .inl stirs)
        (fun j time stored => stores j time (.inl stored)) fun j time other _ announces => ?_
      rcases eq_or_ne other worker with rfl | different
      · rw [stage] at announces
        exact .inl (stores j time (.inr ⟨announces.1.symm, announces.2⟩))
      · exact .inr ⟨other, by simpa [setWorker, setSession, different] using announces⟩
  | stored i =>
      simp only [stage, Option.some.injEq] at taken
      subst taken
      have times := state.setSession_time i { state.sessions i with mLastPingTime := 0 } rfl
      refine stamps.advance (UInt64.le_refl _) stamps.now_le (fun j time stirs => .inl stirs)
        (fun j time stored => (times j).symm ▸ stored) fun j time other _ announces => ?_
      have silent : ¬(state.workers worker).Announces j time := by
        rw [stage]
        exact id
      exact .inr ⟨other, announces_setWorker silent announces⟩

/-- What an access of `TimeoutCheckThread` leaves of the state.  Its moments stir no session. -/
theorem timeoutCheckThread_frame {state next : TimeoutCheck n workerCount}
    (taken : state.timeoutCheckThread = some next) :
    next.clock = state.clock ∧ next.workers = state.workers ∧
      (∀ i, (next.sessions i).mLastActivityTime = (state.sessions i).mLastActivityTime) ∧
      (∀ now, next.scan.now? = some now → state.scan.now? = some now ∨ now = state.clock) ∧
      (next.history = state.history ∨
        (∃ i time, next.history = state.history ++ [.ping i time]) ∨
        ∃ now i lastActivity, state.scan = .loaded now i lastActivity ∧
          now - lastActivity ≥ timeoutMs ∧
          next.history = state.history ++ [.disconnectAsync i state.clock]) := by
  simp only [timeoutCheckThread] at taken
  cases scan : state.scan with
  | asleep =>
    simp only [scan, Option.ite_none_right_eq_some, Option.some.injEq] at taken
    obtain ⟨_, rfl⟩ := taken
    exact ⟨rfl, rfl, fun _ => rfl, fun now some => .inr (Option.some.inj some).symm, .inl rfl⟩
  | checking now i =>
    simp only [scan] at taken
    split_ifs at taken
    · cases taken
      exact ⟨rfl, rfl, fun _ => rfl, fun _ some => .inl some, .inl rfl⟩
    · cases taken
      exact ⟨rfl, rfl, fun _ => rfl, fun _ some => .inl some, .inl rfl⟩
    · cases taken
      exact ⟨rfl, rfl, fun _ => rfl, fun _ awake => (nomatch awake), .inl rfl⟩
  | connected now i =>
    simp only [scan, Option.some.injEq] at taken
    subst taken
    exact ⟨rfl, rfl, fun _ => rfl, fun _ some => .inl some, .inl rfl⟩
  | loaded now i lastActivity =>
    simp only [scan] at taken
    split_ifs at taken with timeout ping
    · cases taken
      exact ⟨rfl, rfl, fun _ => rfl, fun _ some => .inl some,
        .inr (.inr ⟨now, i, lastActivity, rfl, timeout, rfl⟩)⟩
    · cases taken
      exact ⟨rfl, rfl, fun _ => rfl, fun _ some => .inl some, .inl rfl⟩
    · cases taken
      exact ⟨rfl, rfl, fun _ => rfl, fun _ some => .inl some, .inl rfl⟩
  | pinging now i =>
    simp only [scan, Option.some.injEq] at taken
    subst taken
    exact ⟨rfl, rfl, fun _ => rfl, fun _ some => .inl some, .inl rfl⟩
  | pingLoaded now i lastping =>
    simp only [scan] at taken
    split_ifs at taken with ping
    · cases taken
      exact ⟨rfl, rfl, setSession_time _ _ _ rfl, fun _ some => .inl some,
        .inr (.inl ⟨i, state.clock, rfl⟩)⟩
    · cases taken
      exact ⟨rfl, rfl, fun _ => rfl, fun _ some => .inl some, .inl rfl⟩

/-- What stirred the sessions after an access of `TimeoutCheckThread`. -/
theorem Stamped.timeoutCheckThread {state next : TimeoutCheck n workerCount}
    (stamps : state.Stamped) (taken : state.timeoutCheckThread = some next) : next.Stamped := by
  obtain ⟨clock, workers, times, now, history⟩ := timeoutCheckThread_frame taken
  refine stamps.frame (clock ▸ UInt64.le_refl _) (fun at' some => ?_) (fun i time stirs => ?_)
    times workers
  · rw [clock]
    rcases now at' some with before | rfl
    · exact stamps.now_le at' before
    · exact UInt64.le_refl _
  · rw [Stirred] at stirs
    rcases history with same | ⟨j, when, same⟩ | ⟨_, j, _, _, _, same⟩
    · rwa [same] at stirs
    · simpa [Stirred, same] using stirs
    · simpa [Stirred, same] using stirs

/-- The elapsed time of a session whose last activity is not after the scan. -/
theorem elapsed_of_le {now lastActivity : UInt64} (past : lastActivity ≤ now)
    (timeout : now - lastActivity ≥ timeoutMs) :
    lastActivity.toNat + timeoutMs.toNat ≤ now.toNat := by
  have elapsed := UInt64.le_iff_toNat_le.mp timeout
  rw [UInt64.toNat_sub_of_le _ _ past] at elapsed
  have := UInt64.le_iff_toNat_le.mp past
  omega

/-- A timely disconnection is one of a silent session. -/
theorem Stamped.silent {state : TimeoutCheck n workerCount} (stamps : state.Stamped)
    {now lastActivity : UInt64} {i : Fin n} (scan : state.scan = .loaded now i lastActivity)
    (timeout : now - lastActivity ≥ timeoutMs) (timely : state.Timely .timeoutCheckThread) :
    Silent state.history (.disconnectAsync i state.clock) := by
  simp only [Timely, scan] at timely
  obtain ⟨past, current, settled⟩ := timely timeout
  have now_le : now ≤ state.clock := stamps.now_le now (by rw [scan]; rfl)
  intro before stirs
  rcases stamps.stamped i before stirs with stored | ⟨worker, announces⟩
  · rw [current] at stored
    calc before.toNat + timeoutMs.toNat
        ≤ lastActivity.toNat + timeoutMs.toNat :=
          Nat.add_le_add_right (UInt64.le_iff_toNat_le.mp stored) _
      _ ≤ now.toNat := elapsed_of_le past timeout
      _ ≤ state.clock.toNat := UInt64.le_iff_toNat_le.mp now_le
  · exact absurd announces.stamping? (settled worker)

theorem onlySilent_record {state : TimeoutCheck n workerCount} {moment : Moment n} :
    (state.record moment).OnlySilent ↔ state.OnlySilent ∧ Silent state.history moment :=
  Execution.admits_append_singleton

theorem Stamped.step {state next : TimeoutCheck n workerCount}
    {event : Event n workerCount} (stamps : state.Stamped) (timely : state.Timely event)
    (taken : state.step event = some next) : next.Stamped := by
  cases event with
  | tick time =>
      obtain ⟨later, taken⟩ := Option.ite_none_right_eq_some.mp taken
      cases taken
      exact stamps.frame later
        (fun now scanning => UInt64.le_trans (stamps.now_le now scanning) later)
        (fun i time stirs => stirs) (fun i => rfl) rfl
  | onConnect worker i socket =>
      obtain ⟨free, taken⟩ := Option.ite_none_right_eq_some.mp taken
      cases taken
      exact stamps.onConnect free i socket
  | receive worker i =>
      obtain ⟨free, taken⟩ := Option.ite_none_right_eq_some.mp taken
      cases taken
      exact stamps.updating free i
  | updateActivity worker => exact stamps.updateActivity timely taken
  | closed i =>
      cases taken
      exact stamps.frame (UInt64.le_refl _) stamps.now_le (fun i time stirs => stirs)
        (setSession_time _ _ _ rfl) rfl
  | timeoutCheckThread => exact stamps.timeoutCheckThread taken
  | stopTimeout =>
      cases taken
      exact stamps.frame (UInt64.le_refl _) stamps.now_le (fun i time stirs => stirs)
        (fun i => rfl) rfl

/-- Only the thread which checks for timeouts disconnects. -/
theorem OnlySilent.step {state next : TimeoutCheck n workerCount}
    {event : Event n workerCount} (stamps : state.Stamped) (silent : state.OnlySilent)
    (timely : state.Timely event) (taken : state.step event = some next) : next.OnlySilent := by
  cases event with
  | tick time =>
      obtain ⟨_, taken⟩ := Option.ite_none_right_eq_some.mp taken
      cases taken
      exact silent
  | onConnect worker i socket =>
      obtain ⟨_, taken⟩ := Option.ite_none_right_eq_some.mp taken
      cases taken
      exact onlySilent_record.mpr ⟨silent, trivial⟩
  | receive worker i =>
      obtain ⟨_, taken⟩ := Option.ite_none_right_eq_some.mp taken
      cases taken
      exact silent
  | updateActivity worker =>
      simp only [TimeoutCheck.step, TimeoutCheck.updateActivity] at taken
      cases stage : state.workers worker with
      | idle => simp [stage] at taken
      | updating i =>
          simp only [stage, Option.some.injEq] at taken
          exact taken ▸ onlySilent_record.mpr ⟨silent, trivial⟩
      | read i time =>
          simp only [stage, Option.some.injEq] at taken
          exact taken ▸ silent
      | stored i =>
          simp only [stage, Option.some.injEq] at taken
          exact taken ▸ silent
  | closed i =>
      cases taken
      exact silent
  | timeoutCheckThread =>
      obtain ⟨_, _, _, _, history⟩ := timeoutCheckThread_frame taken
      rw [OnlySilent]
      rcases history with same | ⟨i, time, same⟩ | ⟨now, i, lastActivity, scan, timeout, same⟩
      · rw [same]
        exact silent
      · rw [same]
        exact Execution.admits_append_singleton.mpr ⟨silent, trivial⟩
      · rw [same]
        exact Execution.admits_append_singleton.mpr
          ⟨silent, stamps.silent scan timeout timely⟩
  | stopTimeout =>
      cases taken
      exact silent

/-- The threads begin with no activity, whatever the time is. -/
def start (n workerCount : Nat) (clock : UInt64) : TimeoutCheck n workerCount := { clock }

theorem start_stamped (n workerCount : Nat) (clock : UInt64) :
    (start n workerCount clock).Stamped where
  now_le := fun _ scanning => nomatch scanning
  past := fun _ _ stirs => (stirs.elim List.not_mem_nil List.not_mem_nil).elim
  stamped := fun _ _ stirs => (stirs.elim List.not_mem_nil List.not_mem_nil).elim

/-- Only silent sessions are disconnected in the runs whose steps all meet the condition. -/
theorem always_onlySilent (n workerCount : Nat) (clock : UInt64)
    (events : List (Event n workerCount))
    (timely : Execution.Throughout step Timely (start n workerCount clock) events) :
    Execution.Always step OnlySilent (start n workerCount clock) events := by
  have preserved (state : TimeoutCheck n workerCount) (event : Event n workerCount)
      (next : TimeoutCheck n workerCount) (good : state.Stamped ∧ state.OnlySilent)
      (timely : state.Timely event) (taken : state.step event = some next) :
      next.Stamped ∧ next.OnlySilent :=
    ⟨good.1.step timely taken, good.2.step good.1 timely taken⟩
  have always := Execution.always_of_throughout preserved
    ⟨start_stamped n workerCount clock, Execution.admits_nil⟩ timely
  exact always.mono fun _ => And.right

/-- A session which is connected at 10000 and stays silent. -/
def silentRun : List (Event 1 1) :=
  [.tick 10000, .onConnect 0 0 0, .updateActivity 0, .updateActivity 0, .updateActivity 0,
    .tick 70000, .timeoutCheckThread, .timeoutCheckThread, .timeoutCheckThread,
    .timeoutCheckThread]

theorem silentRun_onlySilent :
    Execution.Throughout step Timely (start 1 1 0) silentRun ∧
      Execution.Always step OnlySilent (start 1 1 0) silentRun ∧
      (Execution.run? step (start 1 1 0) silentRun).map (·.history) =
        some [.connect 0 10000, .activity 0 10000, .disconnectAsync 0 70000] :=
  ⟨by decide, always_onlySilent 1 1 0 silentRun (by decide), by decide⟩

/-- A session whose activity comes one millisecond after the scan has read the clock: the
difference wraps. -/
def activeRun : List (Event 1 1) :=
  [.onConnect 0 0 0, .updateActivity 0, .updateActivity 0, .updateActivity 0, .tick 70000,
    .timeoutCheckThread, .tick 70001, .receive 0 0, .updateActivity 0, .updateActivity 0,
    .updateActivity 0, .timeoutCheckThread, .timeoutCheckThread, .timeoutCheckThread]

theorem activeRun_not_onlySilent :
    ¬Execution.Always step OnlySilent (start 1 1 0) activeRun := by
  intro always
  have silent := always.last rfl
  have within := silent [.connect 0 0, .activity 0 0, .activity 0 70001]
    (.disconnectAsync 0 70001) [] (by decide) 70001 (.inr (by decide))
  exact absurd within (by decide)

end TimeoutCheck

end IOCPChatServer

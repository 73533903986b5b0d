import IOCPChatServer.IOCompletionPort
import IOCPChatServer.Library.Execution
import IOCPChatServer.Library.Roster

/-!
# The end of the worker threads

Step 4 of `DestroyThread`: `mIsWorkerRun` becomes false, one empty entry is posted for
each worker, and the workers are joined.  A worker looks at the flag only between two
batches, and `GetQueuedCompletionStatusEx` may hand several of the entries to one worker,
so a worker may wait for an entry which another one has taken.

The completion port is in whatever state the steps before have left it; I/O may go on
completing, and the main and the logic thread may go on calling the port.
-/

namespace IOCPChatServer

/-- An `OVERLAPPED_ENTRY`: a completion, or the entry which `DestroyThread` posts. -/
inductive Entry (m : Nat) where
  | completion (operation : Operation m) (dwIoSize : Nat) (recvBuff : Bytes)
  | empty
  deriving DecidableEq

/-- Where a worker is in the loop of `WorkerThread`; `processing` has what is left of
`completionEntries`. -/
inductive Worker (m : Nat) where
  | checking
  | waiting
  | processing (completionEntries : List (Entry m))
  | exited
  deriving DecidableEq

/-- `n` workers on a port with `m` sessions.  `postsLeft` is what is left of the loop of
`DestroyThread`, none before step 4. -/
structure WorkerPool (n m : Nat) where
  port : IOCompletionPort m
  queue : List (Entry m) := []
  worker : Fin n → Worker m := fun _ => .checking
  mIsWorkerRun : Bool := true
  postsLeft : Option Nat := none

namespace WorkerPool

variable {n m : Nat}

/-- `MAX_COMPLETION_ENTRIES`. -/
def maxCompletionEntries : Nat := 64

def setWorker (pool : WorkerPool n m) (index : Fin n) (worker : Worker m) : WorkerPool n m :=
  { pool with worker := Function.update pool.worker index worker }

@[simp]
theorem worker_setWorker_self (pool : WorkerPool n m) (index : Fin n) (worker : Worker m) :
    (pool.setWorker index worker).worker index = worker :=
  Function.update_self ..

theorem worker_setWorker_of_ne (pool : WorkerPool n m) {index other : Fin n}
    (worker : Worker m) (different : other ≠ index) :
    (pool.setWorker index worker).worker other = pool.worker other :=
  Function.update_of_ne different ..

/-- What can happen next.  `call` is a call by a thread which is no worker, `complete`
queues the completion of an outstanding operation, and `fail` is a failure of
`GetQueuedCompletionStatusEx`. -/
inductive Event (n m : Nat) where
  | call (event : IOCompletionPort.Event m)
  | complete (operation : Operation m) (dwIoSize : Nat) (recvBuff : Bytes)
  | check (worker : Fin n)
  | dequeue (worker : Fin n) (numEntriesRemoved : Nat)
  | fail (worker : Fin n) (abandoned : Bool)
  | process (worker : Fin n) (calls : Winsock)
  | destroyThread
  | postEmpty
  deriving DecidableEq

/-- The body of the inner loop of `WorkerThread`. -/
def processEntry (pool : WorkerPool n m) (calls : Winsock) :
    Entry m → Option (WorkerPool n m)
  | .completion operation dwIoSize recvBuff =>
      (pool.port.complete operation dwIoSize recvBuff calls).map fun port =>
        { pool with port := port }
  | .empty => some { pool with mIsWorkerRun := false }

/-- A worker takes the next entry of its batch, or has none left. -/
def process (pool : WorkerPool n m) (index : Fin n) (calls : Winsock) :
    Option (WorkerPool n m) :=
  match pool.worker index with
  | .processing [] => some (pool.setWorker index .checking)
  | .processing (entry :: rest) =>
      (pool.setWorker index (.processing rest)).processEntry calls entry
  | _ => none

/-- A waiting worker gets the first entries of the queue. -/
def dequeue (pool : WorkerPool n m) (index : Fin n) (numEntriesRemoved : Nat) :
    WorkerPool n m :=
  { pool.setWorker index (.processing (pool.queue.take numEntriesRemoved)) with
    queue := pool.queue.drop numEntriesRemoved }

/-- Only workers handle completions. -/
def call (pool : WorkerPool n m) (event : IOCompletionPort.Event m) :
    Option (WorkerPool n m) :=
  match event with
  | .complete .. => none
  | event => (pool.port.step event).map fun port => { pool with port := port }

/-- One iteration of the posting loop of `DestroyThread`. -/
def postEmpty (pool : WorkerPool n m) : Option (WorkerPool n m) :=
  match pool.postsLeft with
  | some (left + 1) =>
      some { pool with
        queue := pool.queue ++ [.empty]
        postsLeft := some left }
  | _ => none

def step (pool : WorkerPool n m) : Event n m → Option (WorkerPool n m)
  | .call event => pool.call event
  | .complete operation dwIoSize recvBuff =>
      if operation ∈ pool.port.kernel.outstanding then
        some { pool with
          port := pool.port.dequeue operation
          queue := pool.queue ++ [.completion operation dwIoSize recvBuff] }
      else none
  | .check index =>
      if pool.worker index = .checking then
        some (pool.setWorker index (if pool.mIsWorkerRun then .waiting else .exited))
      else none
  | .dequeue index numEntriesRemoved =>
      if pool.worker index = .waiting ∧ 1 ≤ numEntriesRemoved ∧
          numEntriesRemoved ≤ min maxCompletionEntries pool.queue.length then
        some (pool.dequeue index numEntriesRemoved)
      else none
  | .fail index abandoned =>
      if pool.worker index = .waiting then
        some (if abandoned then { pool.setWorker index .exited with mIsWorkerRun := false }
          else pool.setWorker index .checking)
      else none
  | .process index calls => pool.process index calls
  | .destroyThread =>
      if pool.postsLeft = none then
        some { pool with
          mIsWorkerRun := false
          postsLeft := some n }
      else none
  | .postEmpty => pool.postEmpty

/-! ## The workers which wait -/

def isWaiting (pool : WorkerPool n m) (index : Fin n) : Bool := pool.worker index == .waiting

/-- How many workers are in `GetQueuedCompletionStatusEx`. -/
def waiting (pool : WorkerPool n m) : Nat := (List.finRange n).countP pool.isWaiting

theorem waiting_le (pool : WorkerPool n m) : pool.waiting ≤ n := by
  calc pool.waiting ≤ (List.finRange n).length := List.countP_le_length
    _ = n := List.length_finRange

theorem isWaiting_setWorker (pool : WorkerPool n m) (index : Fin n) (worker : Worker m) :
    (pool.setWorker index worker).isWaiting index = (worker == .waiting) := by
  rw [isWaiting, worker_setWorker_self]

/-- One worker changes the number by itself. -/
theorem waiting_setWorker (pool : WorkerPool n m) (index : Fin n) (worker : Worker m) :
    (pool.setWorker index worker).waiting + (pool.isWaiting index).toNat =
      pool.waiting + (worker == .waiting).toNat := by
  rw [← isWaiting_setWorker pool index worker]
  refine countP_of_agree (fun other different => ?_) (List.nodup_finRange n)
    (List.mem_finRange index)
  rw [isWaiting, isWaiting, worker_setWorker_of_ne _ _ different]

/-- A worker leaves its wait. -/
theorem waiting_of_leaves {pool : WorkerPool n m} {index : Fin n} {worker : Worker m}
    (waits : pool.worker index = .waiting) (leaves : worker ≠ .waiting) :
    (pool.setWorker index worker).waiting + 1 = pool.waiting := by
  have counted := pool.waiting_setWorker index worker
  have before : pool.isWaiting index = true := beq_iff_eq.mpr waits
  rwa [before, beq_false_of_ne leaves] at counted

/-- A worker changes outside of its wait. -/
theorem waiting_of_awake {pool : WorkerPool n m} {index : Fin n} {worker : Worker m}
    (awake : pool.worker index ≠ .waiting) (stays : worker ≠ .waiting) :
    (pool.setWorker index worker).waiting = pool.waiting := by
  have counted := pool.waiting_setWorker index worker
  have before : pool.isWaiting index = false := beq_false_of_ne awake
  rwa [before, beq_false_of_ne stays] at counted

/-- While somebody waits, the number is positive. -/
theorem waiting_pos_iff {pool : WorkerPool n m} :
    0 < pool.waiting ↔ ∃ index, pool.worker index = .waiting := by
  rw [waiting, List.countP_pos_iff]
  constructor
  · rintro ⟨index, _, waits⟩
    exact ⟨index, beq_iff_eq.mp waits⟩
  · rintro ⟨index, waits⟩
    exact ⟨index, List.mem_finRange index, beq_iff_eq.mpr waits⟩

/-! ## The steps -/

/-- The ways in which a step can happen, as far as waiting workers, entries and the flag
are concerned. -/
inductive StepCase (pool : WorkerPool n m) : Event n m → WorkerPool n m → Prop where
  | other (event : Event n m) (next : WorkerPool n m) (queue : next.queue = pool.queue)
      (postsLeft : next.postsLeft = pool.postsLeft)
      (stopped : pool.mIsWorkerRun = false → next.mIsWorkerRun = false)
      (waiting : next.waiting = pool.waiting) : StepCase pool event next
  | complete (operation : Operation m) (dwIoSize : Nat) (recvBuff : Bytes) :
      StepCase pool (.complete operation dwIoSize recvBuff)
        { pool with
          port := pool.port.dequeue operation
          queue := pool.queue ++ [.completion operation dwIoSize recvBuff] }
  | wait (index : Fin n) (running : pool.mIsWorkerRun = true) :
      StepCase pool (.check index) (pool.setWorker index .waiting)
  | dequeue (index : Fin n) (numEntriesRemoved : Nat) (waits : pool.worker index = .waiting)
      (some : 1 ≤ numEntriesRemoved) (available : numEntriesRemoved ≤ pool.queue.length) :
      StepCase pool (.dequeue index numEntriesRemoved) (pool.dequeue index numEntriesRemoved)
  | fail (index : Fin n) (abandoned : Bool) (next : WorkerPool n m)
      (queue : next.queue = pool.queue) (postsLeft : next.postsLeft = pool.postsLeft)
      (stopped : pool.mIsWorkerRun = false → next.mIsWorkerRun = false)
      (waiting : next.waiting + 1 = pool.waiting) :
      StepCase pool (.fail index abandoned) next
  | destroyThread (first : pool.postsLeft = none) :
      StepCase pool .destroyThread
        { pool with
          mIsWorkerRun := false
          postsLeft := some n }
  | postEmpty (left : Nat) (posting : pool.postsLeft = some (left + 1)) :
      StepCase pool .postEmpty
        { pool with
          queue := pool.queue ++ [.empty]
          postsLeft := some left }

theorem process_cases {pool next : WorkerPool n m} {index : Fin n} {calls : Winsock}
    (taken : pool.process index calls = some next) :
    StepCase pool (.process index calls) next := by
  unfold process at taken
  split at taken
  · rename_i done
    cases taken
    exact .other _ _ rfl rfl id
      (waiting_of_awake (fun waits => nomatch done.symm.trans waits) nofun)
  · rename_i entry rest busy
    have same : (pool.setWorker index (.processing rest)).waiting = pool.waiting :=
      waiting_of_awake (fun waits => nomatch busy.symm.trans waits) nofun
    cases entry with
    | completion operation dwIoSize recvBuff =>
        obtain ⟨port, _, rfl⟩ := Option.map_eq_some_iff.mp taken
        exact .other _ _ rfl rfl id same
    | empty =>
        cases taken
        exact .other _ _ rfl rfl (fun _ => rfl) same
  · cases taken

theorem step_cases {pool next : WorkerPool n m} {event : Event n m}
    (taken : step pool event = some next) : StepCase pool event next := by
  cases event with
  | call event =>
      change pool.call event = some next at taken
      unfold call at taken
      split at taken
      · cases taken
      · obtain ⟨port, _, rfl⟩ := Option.map_eq_some_iff.mp taken
        exact .other _ _ rfl rfl id rfl
  | complete operation dwIoSize recvBuff =>
      obtain ⟨_, completed⟩ := Option.ite_none_right_eq_some.mp taken
      cases completed
      exact .complete operation dwIoSize recvBuff
  | check index =>
      obtain ⟨checks, checked⟩ := Option.ite_none_right_eq_some.mp taken
      cases checked
      cases running : pool.mIsWorkerRun with
      | true => exact .wait index running
      | false =>
          exact .other _ _ rfl rfl (fun _ => running)
            (waiting_of_awake (fun waits => nomatch checks.symm.trans waits) nofun)
  | dequeue index numEntriesRemoved =>
      obtain ⟨⟨waits, some, most⟩, dequeued⟩ := Option.ite_none_right_eq_some.mp taken
      cases dequeued
      exact .dequeue index numEntriesRemoved waits some (Nat.le_trans most (Nat.min_le_right ..))
  | fail index abandoned =>
      obtain ⟨waits, failed⟩ := Option.ite_none_right_eq_some.mp taken
      cases failed
      cases abandoned with
      | true => exact .fail index true _ rfl rfl (fun _ => rfl) (waiting_of_leaves waits nofun)
      | false => exact .fail index false _ rfl rfl id (waiting_of_leaves waits nofun)
  | process index calls => exact process_cases taken
  | destroyThread =>
      obtain ⟨first, destroyed⟩ := Option.ite_none_right_eq_some.mp taken
      cases destroyed
      exact .destroyThread first
  | postEmpty =>
      change pool.postEmpty = some next at taken
      unfold postEmpty at taken
      split at taken
      · rename_i left posting
        cases taken
        exact .postEmpty left posting
      · cases taken

/-! ## Entries for the workers which wait -/

/-- `CreateWorkerThread`. -/
def createWorkerThread (n : Nat) (port : IOCompletionPort m) : WorkerPool n m where
  port := port

/-- All entries are posted and consumed and nobody processes any, but a worker is blocked:
the join of `DestroyThread` does not return. -/
def Stranded (pool : WorkerPool n m) : Prop :=
  pool.postsLeft = some 0 ∧ pool.queue = [] ∧
    (∀ index completionEntries, pool.worker index ≠ .processing completionEntries) ∧
    ∃ index, pool.worker index = .waiting

/-- From step 4 on a worker leaves an entry, queued or still to be posted, for every other
worker which waits. -/
def LeavesEnough (pool : WorkerPool n m) : Event n m → Prop
  | .dequeue _ numEntriesRemoved => ∀ left ∈ pool.postsLeft,
      pool.waiting - 1 ≤ pool.queue.length - numEntriesRemoved + left
  | _ => True

instance : (pool : WorkerPool n m) → (event : Event n m) → Decidable (pool.LeavesEnough event)
  | pool, .dequeue _ numEntriesRemoved => inferInstanceAs (Decidable (∀ left ∈ pool.postsLeft,
      pool.waiting - 1 ≤ pool.queue.length - numEntriesRemoved + left))
  | _, .call _ | _, .complete .. | _, .check _ | _, .fail .. | _, .process .. |
    _, .destroyThread | _, .postEmpty => isTrue trivial

/-- From step 4 on no worker begins to wait, and there is an entry for each which does. -/
structure Covered (pool : WorkerPool n m) : Prop where
  stopped : pool.postsLeft ≠ none → pool.mIsWorkerRun = false
  enough : ∀ left ∈ pool.postsLeft, pool.waiting ≤ pool.queue.length + left

theorem covered_createWorkerThread (n : Nat) (port : IOCompletionPort m) :
    (createWorkerThread n port).Covered :=
  ⟨fun posting => absurd rfl posting, fun _ member => nomatch member⟩

theorem covered_step {pool next : WorkerPool n m} {event : Event n m} (covered : pool.Covered)
    (leaves : pool.LeavesEnough event) (taken : step pool event = some next) :
    next.Covered := by
  cases step_cases taken with
  | other event next queue postsLeft stopped waiting =>
      refine ⟨fun posting => stopped (covered.stopped (postsLeft ▸ posting)), ?_⟩
      rw [queue, postsLeft, waiting]
      exact covered.enough
  | complete operation dwIoSize recvBuff =>
      refine ⟨covered.stopped, fun left member => ?_⟩
      have enough := covered.enough left member
      change pool.waiting ≤ (pool.queue ++ _).length + left
      rw [List.length_append]
      omega
  | wait index running =>
      have before : pool.postsLeft = none := by
        cases posting : pool.postsLeft with
        | none => rfl
        | some left =>
            have stopped := covered.stopped (fun none => nomatch posting.symm.trans none)
            exact absurd (running.symm.trans stopped) nofun
      exact ⟨fun posting => absurd before posting,
        fun left member => nomatch before.symm.trans (Option.mem_def.mp member)⟩
  | dequeue index numEntriesRemoved waits some available =>
      refine ⟨covered.stopped, fun left member => ?_⟩
      have others := leaves left member
      have left_wait : (pool.dequeue index numEntriesRemoved).waiting + 1 = pool.waiting :=
        waiting_of_leaves waits nofun
      change _ ≤ (pool.queue.drop numEntriesRemoved).length + left
      rw [List.length_drop]
      omega
  | fail index abandoned next queue postsLeft stopped waiting =>
      refine ⟨fun posting => stopped (covered.stopped (postsLeft ▸ posting)), ?_⟩
      rw [queue, postsLeft]
      intro left member
      have enough := covered.enough left member
      omega
  | destroyThread first =>
      refine ⟨fun _ => rfl, fun left member => ?_⟩
      cases member
      exact Nat.le_trans pool.waiting_le (Nat.le_add_left ..)
  | postEmpty left posting =>
      refine ⟨fun _ => covered.stopped (fun none => nomatch posting.symm.trans none), ?_⟩
      intro now member
      cases member
      have enough := covered.enough (left + 1) posting
      change pool.waiting ≤ (pool.queue ++ _).length + left
      rw [List.length_append, List.length_singleton]
      omega

theorem Covered.not_stranded {pool : WorkerPool n m} (covered : pool.Covered) :
    ¬ pool.Stranded := by
  rintro ⟨posted, empty, _, waits⟩
  have enough := covered.enough 0 posted
  rw [empty] at enough
  exact absurd (waiting_pos_iff.mpr waits) (Nat.not_lt.mpr enough)

/-- No worker is stranded in a run in which every worker leaves enough. -/
theorem not_stranded_of_leavesEnough (n : Nat) (port : IOCompletionPort m)
    (events : List (Event n m))
    (leaves : Execution.Throughout step LeavesEnough (createWorkerThread n port) events) :
    Execution.Always step (fun pool => ¬ pool.Stranded) (createWorkerThread n port) events :=
  (Execution.always_of_throughout
    (fun _ _ _ covered leaves taken => covered_step covered leaves taken)
    (covered_createWorkerThread n port) leaves).mono fun _ covered => covered.not_stranded

/-! ## A worker which takes too much -/

/-- From step 4 on there are more workers which wait than entries. -/
structure Short (pool : WorkerPool n m) : Prop where
  stopped : pool.mIsWorkerRun = false
  short : ∃ left ∈ pool.postsLeft, pool.queue.length + left < pool.waiting

/-- Whoever does not leave enough leaves too few. -/
theorem short_of_not_leavesEnough {pool next : WorkerPool n m} {index : Fin n}
    {numEntriesRemoved : Nat} (covered : pool.Covered)
    (greedy : ¬ pool.LeavesEnough (.dequeue index numEntriesRemoved))
    (taken : step pool (.dequeue index numEntriesRemoved) = some next) : next.Short := by
  obtain ⟨⟨waits, _, _⟩, dequeued⟩ := Option.ite_none_right_eq_some.mp taken
  cases dequeued
  simp only [LeavesEnough, not_forall, Nat.not_le] at greedy
  obtain ⟨left, member, fewer⟩ := greedy
  have left_wait : (pool.dequeue index numEntriesRemoved).waiting + 1 = pool.waiting :=
    waiting_of_leaves waits nofun
  refine ⟨covered.stopped (fun none => nomatch none.symm.trans member), left, member, ?_⟩
  change (pool.queue.drop numEntriesRemoved).length + left < _
  rw [List.length_drop]
  omega

/-- Nothing but a completion or a failure releases a worker then. -/
def Helpless : Event n m → Prop
  | .complete .. | .fail .. => False
  | _ => True

theorem short_step {pool next : WorkerPool n m} {event : Event n m} (short : pool.Short)
    (helpless : Helpless event) (taken : step pool event = some next) : next.Short := by
  obtain ⟨left, member, fewer⟩ := short.short
  cases step_cases taken with
  | other event next queue postsLeft stopped waiting =>
      refine ⟨stopped short.stopped, left, postsLeft ▸ member, ?_⟩
      rw [queue, waiting]
      exact fewer
  | complete operation dwIoSize recvBuff => exact helpless.elim
  | wait index running => exact nomatch running.symm.trans short.stopped
  | dequeue index numEntriesRemoved waits some available =>
      have left_wait : (pool.dequeue index numEntriesRemoved).waiting + 1 = pool.waiting :=
        waiting_of_leaves waits nofun
      refine ⟨short.stopped, left, member, ?_⟩
      change (pool.queue.drop numEntriesRemoved).length + left < _
      rw [List.length_drop]
      omega
  | fail index abandoned next queue postsLeft stopped waiting => exact helpless.elim
  | destroyThread first => exact nomatch first.symm.trans member
  | postEmpty now posting =>
      cases posting.symm.trans member
      refine ⟨short.stopped, now, rfl, ?_⟩
      change (pool.queue ++ _).length + now < pool.waiting
      rw [List.length_append, List.length_singleton]
      omega

/-- After a worker has not left enough, some worker waits for ever: unless I/O completes
or the call of the kernel fails, there is one in every later state. -/
theorem waits_of_short {pool : WorkerPool n m} (short : pool.Short) (events : List (Event n m))
    (helpless : ∀ event ∈ events, Helpless event) :
    Execution.Always step (fun pool => ∃ index, pool.worker index = .waiting) pool events :=
  (Execution.always_of_throughout
    (fun _ _ _ short helpless taken => short_step short helpless taken) short
    (Execution.throughout_of_forall helpless pool)).mono fun _ short => by
      obtain ⟨left, _, fewer⟩ := short.short
      exact waiting_pos_iff.mp (by omega)

/-! ## Two workers -/

/-- Both workers wait, and each takes one entry. -/
def onePerWorker : List (Event 2 1) :=
  [.check 0, .check 1, .destroyThread, .postEmpty, .postEmpty, .dequeue 0 1, .dequeue 1 1,
    .process 0 {}, .process 0 {}, .check 0, .process 1 {}, .process 1 {}, .check 1]

theorem onePerWorker_not_stranded :
    Execution.Always step (fun pool => ¬ pool.Stranded)
      (createWorkerThread 2 (IOCompletionPort.startServer 1)) onePerWorker :=
  not_stranded_of_leavesEnough 2 _ onePerWorker (by decide +kernel)

/-- The first worker takes both entries. -/
def bothToOneWorker : List (Event 2 1) :=
  [.check 0, .check 1, .destroyThread, .postEmpty, .postEmpty, .dequeue 0 2,
    .process 0 {}, .process 0 {}, .process 0 {}, .check 0]

theorem bothToOneWorker_stranded :
    ¬ Execution.Always step (fun pool => ¬ pool.Stranded)
      (createWorkerThread 2 (IOCompletionPort.startServer 1)) bothToOneWorker := by
  intro always
  have seen : (Execution.run? step (createWorkerThread 2 (IOCompletionPort.startServer 1))
      bothToOneWorker).map (fun last => (last.postsLeft, last.queue, last.worker 0,
        last.worker 1)) = some (some 0, [], .exited, .waiting) := by decide +kernel
  obtain ⟨last, released, observed⟩ := always.observed seen
  obtain ⟨posted, rest⟩ := Prod.mk.inj observed
  obtain ⟨empty, workers⟩ := Prod.mk.inj rest
  obtain ⟨exited, waits⟩ := Prod.mk.inj workers
  refine released ⟨posted, empty, fun index completionEntries processing => ?_, 1, waits⟩
  rcases Fin.exists_fin_two.mp ⟨index, rfl⟩ with rfl | rfl
  · exact nomatch exited.symm.trans processing
  · exact nomatch waits.symm.trans processing

end WorkerPool

end IOCPChatServer

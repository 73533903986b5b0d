import IOCPChatServer.ChatServer
import IOCPChatServer.Library.ConditionVariable

/-!
# Waking the logic thread

`ProcessPacket` waits on `mPacketEventCV` under `mLock`.  `ChatServer` lets it swap its
buffers whenever there is something to swap; here the wait is taken apart into its steps,
and every producer notifies in a step of its own after it has pushed.  `PushSystemPacket`
and `EnqueuePacketData` push under `mLock`, `PushResponse` pushes under `mResLock` only,
so a response may arrive, and be announced, between the test of the wait predicate and
the registration of the logic thread.

Any number of threads may call the three functions in any order and with any arguments.
-/

namespace IOCPChatServer

/-- A thread which notifies the logic thread. -/
inductive Producer where
  | ioThread (id : Nat)
  | redisWorker (id : Nat)
  deriving DecidableEq, Repr

/-- The shared state with the condition variable of the logic thread and `mLock`. -/
structure Monitor (n : Nat) where
  server : ChatServer n
  mPacketEventCV : ConditionVariable Producer := {}

namespace Monitor

variable {n : Nat}

def init (memory : Fin n → Bytes) : Monitor n where
  server := ChatServer.init memory

/-- The predicate of `mPacketEventCV.wait`. -/
def hasEvent (server : ChatServer n) : Bool :=
  !server.mSystemWriteBuffer.isEmpty || !server.mWriteBuffer.isEmpty ||
    !server.mResponseTask.isEmpty

/-- `PushResponse` under `mResLock`. -/
def pushResponse (server : ChatServer n) (task : Tagged (RedisTask n)) : ChatServer n :=
  { server with mResponseTask := server.mResponseTask ++ [task] }

/-- What can happen next.  The arguments of the pushes are the caller's; `setPacketData`
is the write of received bytes, which notifies nobody. -/
inductive Event (n : Nat) where
  | pushSystemPacket (thread : Producer) (index : Fin n) (packetId : PacketId)
  | setPacketData (index : Fin n) (connection : Nat) (data : Bytes)
  | enqueuePacketData (thread : Producer) (index : Fin n) (connection : Nat)
  | pushResponse (thread : Producer) (task : Tagged (RedisTask n))
  | notifyPacketEvent (thread : Producer)
  | spuriousWakeup
  | logic
  deriving DecidableEq

/-- The logic thread is at the top of the loop of `ProcessPacket`. -/
def atWait (server : ChatServer n) : Bool :=
  server.clearing.isNone && server.phase == .waiting

/-- The next step of the logic thread.  It holds `mLock` from `lock` to `register` or to
the end of the swap, and takes it for the steps of `ChatServer` which need it. -/
def logicStep (monitor : Monitor n) : Option (Monitor n) :=
  match monitor.mPacketEventCV.waiter with
  | .running =>
      if atWait monitor.server then
        some { monitor with mPacketEventCV := monitor.mPacketEventCV.lock }
      else monitor.server.logicStep.map fun server => { monitor with server := server }
  | .notified => some { monitor with mPacketEventCV := monitor.mPacketEventCV.lock }
  | .locked =>
      some { monitor with mPacketEventCV := monitor.mPacketEventCV.test (hasEvent monitor.server) }
  | .unready => some { monitor with mPacketEventCV := monitor.mPacketEventCV.register }
  | .ready => some ⟨monitor.server.swap, monitor.mPacketEventCV.unlock⟩
  | .waiting => none

/-- A thread which owes its notification does nothing else before it. -/
def step (monitor : Monitor n) : Event n → Option (Monitor n)
  | .pushSystemPacket thread index packetId =>
      if monitor.mPacketEventCV.owes thread || !monitor.mPacketEventCV.mutexFree then none
      else some ⟨monitor.server.pushSystemPacket index packetId,
        monitor.mPacketEventCV.owe thread⟩
  | .setPacketData index connection data =>
      some { monitor with server := monitor.server.setPacketData index connection data }
  | .enqueuePacketData thread index connection =>
      if monitor.mPacketEventCV.owes thread || !monitor.mPacketEventCV.mutexFree then none
      else some ⟨monitor.server.enqueuePacketData index connection,
        monitor.mPacketEventCV.owe thread⟩
  | .pushResponse thread task =>
      if monitor.mPacketEventCV.owes thread then none
      else some ⟨pushResponse monitor.server task, monitor.mPacketEventCV.owe thread⟩
  | .notifyPacketEvent thread =>
      if monitor.mPacketEventCV.owes thread then
        some { monitor with mPacketEventCV := monitor.mPacketEventCV.notifyOne thread }
      else none
  | .spuriousWakeup => some { monitor with mPacketEventCV := monitor.mPacketEventCV.wake }
  | .logic => monitor.logicStep

/-! ## The steps -/

/-- The ways in which a step can happen. -/
inductive StepCase (monitor : Monitor n) : Event n → Monitor n → Prop where
  | push (event : Event n) (server : ChatServer n) (thread : Producer) (other : event ≠ .logic)
      (free : monitor.mPacketEventCV.mutexFree = true)
      (clearing : server.clearing = monitor.server.clearing)
      (phase : server.phase = monitor.server.phase) :
      StepCase monitor event ⟨server, monitor.mPacketEventCV.owe thread⟩
  | setPacketData (index : Fin n) (connection : Nat) (data : Bytes) :
      StepCase monitor (.setPacketData index connection data)
        { monitor with server := monitor.server.setPacketData index connection data }
  | pushResponse (thread : Producer) (task : Tagged (RedisTask n)) :
      StepCase monitor (.pushResponse thread task)
        ⟨Monitor.pushResponse monitor.server task, monitor.mPacketEventCV.owe thread⟩
  | notifyPacketEvent (thread : Producer) :
      StepCase monitor (.notifyPacketEvent thread)
        { monitor with mPacketEventCV := monitor.mPacketEventCV.notifyOne thread }
  | spuriousWakeup :
      StepCase monitor .spuriousWakeup
        { monitor with mPacketEventCV := monitor.mPacketEventCV.wake }
  | lock (waiter : monitor.mPacketEventCV.waiter = .notified ∨
        monitor.mPacketEventCV.waiter = .running ∧ atWait monitor.server = true) :
      StepCase monitor .logic { monitor with mPacketEventCV := monitor.mPacketEventCV.lock }
  | run (server : ChatServer n) (waiter : monitor.mPacketEventCV.waiter = .running)
      (ran : monitor.server.logicStep = some server) :
      StepCase monitor .logic { monitor with server := server }
  | test (waiter : monitor.mPacketEventCV.waiter = .locked) :
      StepCase monitor .logic
        { monitor with mPacketEventCV := monitor.mPacketEventCV.test (hasEvent monitor.server) }
  | register (waiter : monitor.mPacketEventCV.waiter = .unready) :
      StepCase monitor .logic
        { monitor with mPacketEventCV := monitor.mPacketEventCV.register }
  | swap (waiter : monitor.mPacketEventCV.waiter = .ready) :
      StepCase monitor .logic ⟨monitor.server.swap, monitor.mPacketEventCV.unlock⟩

theorem logicStep_cases {monitor next : Monitor n} (taken : monitor.logicStep = some next) :
    StepCase monitor .logic next := by
  unfold logicStep at taken
  cases waiter : monitor.mPacketEventCV.waiter with
  | running =>
      simp only [waiter] at taken
      split at taken
      · rename_i top
        cases taken
        exact .lock (Or.inr ⟨waiter, top⟩)
      · obtain ⟨server, ran, rfl⟩ := Option.map_eq_some_iff.mp taken
        exact .run server waiter ran
  | notified =>
      simp only [waiter] at taken
      cases taken
      exact .lock (Or.inl waiter)
  | locked =>
      simp only [waiter] at taken
      cases taken
      exact .test waiter
  | unready =>
      simp only [waiter] at taken
      cases taken
      exact .register waiter
  | ready =>
      simp only [waiter] at taken
      cases taken
      exact .swap waiter
  | waiting =>
      simp only [waiter] at taken
      cases taken

theorem step_cases {monitor next : Monitor n} {event : Event n}
    (taken : step monitor event = some next) : StepCase monitor event next := by
  cases event with
  | pushSystemPacket thread index packetId =>
      obtain ⟨allowed, pushed⟩ := Option.ite_none_left_eq_some.mp taken
      cases pushed
      have free : monitor.mPacketEventCV.mutexFree = true := by
        rw [Bool.or_eq_true, not_or, Bool.not_eq_true', Bool.not_eq_false] at allowed
        exact allowed.2
      exact .push _ _ thread (fun logic => nomatch logic) free rfl rfl
  | setPacketData index connection data =>
      cases taken
      exact .setPacketData index connection data
  | enqueuePacketData thread index connection =>
      obtain ⟨allowed, pushed⟩ := Option.ite_none_left_eq_some.mp taken
      cases pushed
      have free : monitor.mPacketEventCV.mutexFree = true := by
        rw [Bool.or_eq_true, not_or, Bool.not_eq_true', Bool.not_eq_false] at allowed
        exact allowed.2
      exact .push _ _ thread (fun logic => nomatch logic) free rfl rfl
  | pushResponse thread task =>
      obtain ⟨_, pushed⟩ := Option.ite_none_left_eq_some.mp taken
      cases pushed
      exact .pushResponse thread task
  | notifyPacketEvent thread =>
      obtain ⟨_, notified⟩ := Option.ite_none_right_eq_some.mp taken
      cases notified
      exact .notifyPacketEvent thread
  | spuriousWakeup =>
      cases taken
      exact .spuriousWakeup
  | logic => exact logicStep_cases taken

/-! ## The wait and the server -/

/-- What the logic thread knows while it holds `mLock`: after a test which failed both
write buffers stay empty, after one which succeeded there stays something to swap. -/
structure Tested (monitor : Monitor n) : Prop where
  atWait : monitor.mPacketEventCV.waiter ≠ .running →
    monitor.server.clearing = none ∧ monitor.server.phase = .waiting
  ready : monitor.mPacketEventCV.waiter = .ready → hasEvent monitor.server = true
  unready : monitor.mPacketEventCV.waiter = .unready →
    monitor.server.mSystemWriteBuffer = [] ∧ monitor.server.mWriteBuffer = []

theorem tested_init (memory : Fin n → Bytes) : (init memory).Tested where
  atWait _ := ⟨rfl, rfl⟩
  ready waiter := nomatch waiter
  unready waiter := nomatch waiter

theorem atWait_eq_true {server : ChatServer n} (top : atWait server = true) :
    server.clearing = none ∧ server.phase = .waiting := by
  obtain ⟨quiet, phase⟩ := (Bool.and_eq_true ..).mp top
  exact ⟨Option.isNone_iff_eq_none.mp quiet, beq_iff_eq.mp phase⟩

/-- Responses are pushed without `mLock`; they only add to what there is to do. -/
theorem hasEvent_pushResponse (server : ChatServer n) (task : Tagged (RedisTask n)) :
    hasEvent (pushResponse server task) = true := by
  simp [hasEvent, pushResponse]

theorem hasEvent_eq_false {server : ChatServer n} (idle : hasEvent server = false) :
    server.mSystemWriteBuffer = [] ∧ server.mWriteBuffer = [] ∧
      server.mResponseTask = [] := by
  simpa [hasEvent, and_assoc] using idle

theorem tested_of_wake {monitor : Monitor n} (tested : monitor.Tested)
    {condition : ConditionVariable Producer}
    (woken : condition.waiter = monitor.mPacketEventCV.wake.waiter) :
    (Monitor.mk monitor.server condition).Tested where
  atWait waiter := tested.atWait fun running => by
    rw [woken, ConditionVariable.wake_of_awake (fun waits => nomatch running.symm.trans waits)]
      at waiter
    exact waiter running
  ready waiter :=
    tested.ready (ConditionVariable.waiter_of_wake (woken.symm.trans waiter) nofun)
  unready waiter :=
    tested.unready (ConditionVariable.waiter_of_wake (woken.symm.trans waiter) nofun)

theorem tested_step {monitor next : Monitor n} {event : Event n} (tested : monitor.Tested)
    (taken : step monitor event = some next) : next.Tested := by
  cases step_cases taken with
  | push _ server thread _ free clearing phase =>
      refine ⟨fun waiter => ?_, fun waiter => ?_, fun waiter => ?_⟩
      · rw [clearing, phase]
        exact tested.atWait waiter
      · change monitor.mPacketEventCV.waiter = _ at waiter
        simp [ConditionVariable.mutexFree, waiter] at free
      · change monitor.mPacketEventCV.waiter = _ at waiter
        simp [ConditionVariable.mutexFree, waiter] at free
  | setPacketData index connection data =>
      exact ⟨tested.atWait, tested.ready, tested.unready⟩
  | pushResponse thread task =>
      exact ⟨tested.atWait, fun _ => hasEvent_pushResponse monitor.server task, tested.unready⟩
  | notifyPacketEvent thread => exact tested_of_wake tested rfl
  | spuriousWakeup => exact tested_of_wake tested rfl
  | lock waiter =>
      refine ⟨fun _ => ?_, (fun waits => nomatch waits), (fun waits => nomatch waits)⟩
      rcases waiter with notified | ⟨_, top⟩
      · exact tested.atWait (fun running => nomatch notified.symm.trans running)
      · exact atWait_eq_true top
  | run server waiter ran =>
      exact ⟨fun waits => absurd waiter waits, (fun ready => nomatch waiter.symm.trans ready),
        (fun unready => nomatch waiter.symm.trans unready)⟩
  | test waiter =>
      have top := tested.atWait (fun running => nomatch waiter.symm.trans running)
      cases event : hasEvent monitor.server with
      | true =>
          exact ⟨fun _ => top, fun _ => event, (fun unready => nomatch unready)⟩
      | false =>
          obtain ⟨system, packets, _⟩ := hasEvent_eq_false event
          exact ⟨fun _ => top, (fun ready => nomatch ready), fun _ => ⟨system, packets⟩⟩
  | register waiter =>
      have top := tested.atWait (fun running => nomatch waiter.symm.trans running)
      exact ⟨fun _ => top, (fun ready => nomatch ready), (fun unready => nomatch unready)⟩
  | swap waiter =>
      exact ⟨fun running => absurd rfl running, (fun ready => nomatch ready),
        (fun unready => nomatch unready)⟩

/-- A step of the logic thread is one of its steps on the server, or leaves the server
as it is. -/
theorem logic_refines {monitor next : Monitor n} (tested : monitor.Tested)
    (taken : step monitor .logic = some next) :
    next.server = monitor.server ∨ monitor.server.logicStep = some next.server := by
  cases step_cases taken with
  | push _ server thread other free clearing phase => exact absurd rfl other
  | lock waiter => exact Or.inl rfl
  | run server waiter ran => exact Or.inr ran
  | test waiter => exact Or.inl rfl
  | register waiter => exact Or.inl rfl
  | swap waiter =>
      obtain ⟨quiet, phase⟩ := tested.atWait (fun running => nomatch waiter.symm.trans running)
      have event : ¬ (monitor.server.mSystemWriteBuffer.isEmpty &&
          monitor.server.mWriteBuffer.isEmpty && monitor.server.mResponseTask.isEmpty) = true := by
        have ready := tested.ready waiter
        simp only [hasEvent, Bool.or_eq_true, Bool.not_eq_true'] at ready
        simp only [Bool.and_eq_true, not_and, Bool.not_eq_true]
        grind
      right
      rw [ChatServer.logicStep, quiet]
      dsimp only
      rw [ChatServer.processPacket, phase]
      exact if_neg event

/-! ## Lost wakeups -/

/-- The logic thread is not blocked while one of its queues holds something which
nobody will announce any more. -/
def NoLostWakeup (monitor : Monitor n) : Prop :=
  ¬ monitor.mPacketEventCV.LostWakeup (hasEvent monitor.server = true)

/-- When the logic thread registers, no response has come in since its test, or some
thread has not announced what it pushed. -/
def RegistersInTime (monitor : Monitor n) : Event n → Prop
  | .logic => monitor.mPacketEventCV.waiter = .unready →
      monitor.server.mResponseTask = [] ∨
        ∃ thread, monitor.mPacketEventCV.owes thread = true
  | _ => True

theorem hasEvent_of_tested {monitor : Monitor n} (tested : monitor.Tested)
    (waiter : monitor.mPacketEventCV.waiter = .unready) :
    hasEvent monitor.server = true ↔ monitor.server.mResponseTask ≠ [] := by
  obtain ⟨system, packets⟩ := tested.unready waiter
  simp [hasEvent, system, packets]

theorem noLostWakeup_register_iff {monitor : Monitor n} (tested : monitor.Tested)
    (waiter : monitor.mPacketEventCV.waiter = .unready) :
    NoLostWakeup { monitor with mPacketEventCV := monitor.mPacketEventCV.register } ↔
      monitor.server.mResponseTask = [] ∨
        ∃ thread, monitor.mPacketEventCV.owes thread = true := by
  rw [NoLostWakeup, ConditionVariable.lostWakeup_register, hasEvent_of_tested tested waiter,
    not_and_or, not_not, or_comm]
  simp only [not_forall, Bool.not_eq_false]

/-- Only a registration can lose a wakeup, and it does unless it is in time. -/
theorem noLostWakeup_step_iff {monitor next : Monitor n} {event : Event n}
    (tested : monitor.Tested) (kept : monitor.NoLostWakeup)
    (taken : step monitor event = some next) :
    next.NoLostWakeup ↔ monitor.RegistersInTime event := by
  cases step_cases taken with
  | push _ server thread other free clearing phase =>
      have inTime : monitor.RegistersInTime event := by
        cases event with
        | logic => exact absurd rfl other
        | _ => trivial
      exact iff_of_true (ConditionVariable.not_lostWakeup_owe thread) inTime
  | setPacketData index connection data => exact iff_of_true kept trivial
  | pushResponse thread task =>
      exact iff_of_true (ConditionVariable.not_lostWakeup_owe thread) trivial
  | notifyPacketEvent thread =>
      exact iff_of_true (ConditionVariable.not_lostWakeup_notifyOne thread) trivial
  | spuriousWakeup =>
      exact iff_of_true
        (ConditionVariable.not_lostWakeup_of_awake ConditionVariable.wake_awake) trivial
  | lock waiter =>
      have awake : (monitor.mPacketEventCV.lock).waiter ≠ .waiting := nofun
      refine iff_of_true (ConditionVariable.not_lostWakeup_of_awake awake) fun unready => ?_
      rcases waiter with notified | ⟨running, _⟩
      · exact nomatch notified.symm.trans unready
      · exact nomatch running.symm.trans unready
  | run server waiter ran =>
      have awake : monitor.mPacketEventCV.waiter ≠ .waiting := by
        rw [waiter]
        nofun
      exact iff_of_true (ConditionVariable.not_lostWakeup_of_awake awake)
        (fun unready => nomatch waiter.symm.trans unready)
  | test waiter =>
      have awake : (monitor.mPacketEventCV.test (hasEvent monitor.server)).waiter ≠ .waiting := by
        cases event : hasEvent monitor.server with
        | true => nofun
        | false => nofun
      exact iff_of_true (ConditionVariable.not_lostWakeup_of_awake awake)
        (fun unready => nomatch waiter.symm.trans unready)
  | register waiter =>
      rw [noLostWakeup_register_iff tested waiter]
      exact ⟨fun inTime _ => inTime, fun inTime => inTime waiter⟩
  | swap waiter =>
      have awake : (monitor.mPacketEventCV.unlock).waiter ≠ .waiting := nofun
      exact iff_of_true (ConditionVariable.not_lostWakeup_of_awake awake)
        (fun unready => nomatch waiter.symm.trans unready)

/-- No wakeup is lost in a run exactly if each registration of the logic thread is in
time. -/
theorem noLostWakeup_iff_registersInTime (memory : Fin n → Bytes) (events : List (Event n)) :
    Execution.Always step NoLostWakeup (init memory) events ↔
      Execution.Throughout step RegistersInTime (init memory) events := by
  have awake : (init memory).mPacketEventCV.waiter ≠ .waiting := nofun
  exact Execution.always_iff_throughout (fun _ _ _ tested taken => tested_step tested taken)
    (fun _ _ _ tested kept taken => noLostWakeup_step_iff tested kept taken)
    (tested_init memory) (ConditionVariable.not_lostWakeup_of_awake awake) events

/-- The wait predicate has been tested when a Redis worker pushes the response for an
unknown ID, and its notification finds nobody registered. -/
def responseDuringTest : List (Event 1) :=
  [.logic, .logic,
    .pushResponse (.redisWorker 0)
      ⟨{ UserIndex := 0
         TaskID := .responseLogin
         pData := redisLoginRes ErrorCode.loginUserInvalidPW.code [97] }, 1⟩,
    .notifyPacketEvent (.redisWorker 0), .logic]

/-- The logic thread sleeps on a response which it was told of too early. -/
theorem responseDuringTest_lostWakeup :
    ¬ Execution.Always step NoLostWakeup (init fun _ => []) responseDuringTest := by
  intro always
  have seen : (Execution.run? step (init fun _ => []) responseDuringTest).map
      (fun last => (last.mPacketEventCV.waiter, last.mPacketEventCV.owes,
        hasEvent last.server)) =
      some (.waiting, Function.update (Function.update (fun _ => false) (.redisWorker 0) true)
        (.redisWorker 0) false, true) := rfl
  obtain ⟨last, kept, observed⟩ := always.observed seen
  obtain ⟨waits, rest⟩ := Prod.mk.inj observed
  obtain ⟨owes, event⟩ := Prod.mk.inj rest
  refine kept ⟨waits, fun thread => ?_, event⟩
  rw [owes, Function.update_idem, Function.update_eq_self_iff.mpr rfl]

end Monitor

end IOCPChatServer

import IOCPChatServer.Library.LossyFraming
import IOCPChatServer.Logic.SentPackets
import IOCPChatServer.Logic.ServiceRefinement

/-!
# What a client reads

The logic thread hands the packets for a client to `SendMsg` of its session, and
`TimeoutCheckThread` its pings.  A client which cuts what arrives by the `PacketLength` of the
headers reads the packets of the logic layer, in their order, but for those for which the pool
had no block.
-/

namespace IOCPChatServer

/-- The bytes are those of the packet. -/
def ServerPacket.CarriedBy (packet : ServerPacket) (message : Bytes) : Prop :=
  ∃ memory, message = packet.bytes memory

/-- The packets of the server in a stream of bytes. -/
def readServerPackets (stream : Bytes) : List ServerPacket :=
  (User.packetFormat.frames stream.length stream).filterMap readServerPacket

/-- The message which a thread has not put into the queue yet. -/
def SendMsgStage.message? : SendMsgStage → Option Bytes
  | .outside => none
  | .allocated message _ => some message
  | .copied message _ => some message

namespace SendingSession

variable {threadCount : Nat}

/-- The message which a thread hands to `SendMsg`. -/
def Event.message? (thread : Fin threadCount) : Event threadCount → Option Bytes
  | .sendMsg caller message => if caller = thread then some message else none
  | _ => none

/-- Only the other threads send pings, and they send nothing else. -/
def Event.PingsApart (logic : Fin threadCount) : Event threadCount → Prop
  | .sendMsg thread message => message = pingHeader ↔ thread ≠ logic
  | _ => True

instance (logic : Fin threadCount) (event : Event threadCount) :
    Decidable (event.PingsApart logic) :=
  match event with
  | .sendMsg _ _ => inferInstanceAs (Decidable (_ ↔ _))
  | .copyMemory _ | .push _ _ | .completion _ _ | .sendComplete | .pop _ | .otherAlloc
  | .otherWrite _ _ _ | .otherFree _ => isTrue trivial

/-- The messages which a thread hands to `SendMsg`, in order. -/
def messagesOf (thread : Fin threadCount) (events : List (Event threadCount)) : List Bytes :=
  events.filterMap (Event.message? thread)

/-- `SendMsg` of the thread finds a block. -/
def FindsBlock (thread : Fin threadCount) (state : SendingSession threadCount)
    (event : Event threadCount) : Prop :=
  event.message? thread ≠ none → state.pool.mFreeList ≠ []

instance (thread : Fin threadCount) (state : SendingSession threadCount)
    (event : Event threadCount) : Decidable (FindsBlock thread state event) :=
  inferInstanceAs (Decidable (_ → _))

/-- The messages of the logic thread which were accepted, and the one which it is sending. -/
def line (logic : Fin threadCount) (state : SendingSession threadCount) : List Bytes :=
  (state.accepted.map Prod.snd).filter (· ≠ pingHeader) ++
    (state.threads logic).message?.toList

/-- The messages on their way are pings, or of the logic thread. -/
def PingsApart (logic : Fin threadCount) (state : SendingSession threadCount) : Prop :=
  ∀ thread message, (state.threads thread).message? = some message →
    (message = pingHeader ↔ thread ≠ logic)

theorem pingsApart_start (logic : Fin threadCount) (poolSize : Nat) (mGeneration : UInt32) :
    (start threadCount poolSize mGeneration).PingsApart logic := fun _ _ none => nomatch none

/-! ## What a step does to the messages -/

/-- A message begins its way, is dropped for want of a block, is copied or is accepted. -/
inductive MessageCase (state : SendingSession threadCount) :
    Event threadCount → SendingSession threadCount → Prop where
  | drops (thread : Fin threadCount) (message : Bytes) (empty : state.pool.mFreeList = []) :
      MessageCase state (.sendMsg thread message) state
  | begins (thread : Fin threadCount) (message : Bytes) (pSendOvl : Nat)
      (next : SendingSession threadCount) (outside : state.threads thread = .outside)
      (some : state.pool.mFreeList ≠ []) (accepted : next.accepted = state.accepted)
      (threads : next.threads =
        Function.update state.threads thread (.allocated message pSendOvl)) :
      MessageCase state (.sendMsg thread message) next
  | copies (thread : Fin threadCount) (message : Bytes) (pSendOvl : Nat)
      (next : SendingSession threadCount)
      (allocated : state.threads thread = .allocated message pSendOvl)
      (accepted : next.accepted = state.accepted)
      (threads : next.threads =
        Function.update state.threads thread (.copied message pSendOvl)) :
      MessageCase state (.copyMemory thread) next
  | accepts (thread : Fin threadCount) (wsaSend : Bool) (message : Bytes) (pSendOvl : Nat)
      (next : SendingSession threadCount)
      (copied : state.threads thread = .copied message pSendOvl)
      (accepted : next.accepted = state.accepted ++ [(pSendOvl, message)])
      (threads : next.threads = Function.update state.threads thread .outside) :
      MessageCase state (.push thread wsaSend) next
  | other (event : Event threadCount) (next : SendingSession threadCount)
      (silent : ∀ thread, event.message? thread = none)
      (accepted : next.accepted = state.accepted) (threads : next.threads = state.threads) :
      MessageCase state event next

theorem sendIO_same (state : SendingSession threadCount) (wsaSend : Bool) :
    (state.sendIO wsaSend).accepted = state.accepted ∧
      (state.sendIO wsaSend).threads = state.threads := by
  unfold sendIO
  cases state.mSendDataqueue <;> exact ⟨rfl, rfl⟩

theorem messageCase_push {state : SendingSession threadCount} {thread : Fin threadCount}
    {message : Bytes} {pSendOvl : Nat} (copied : state.threads thread = .copied message pSendOvl)
    (wsaSend : Bool) :
    state.MessageCase (.push thread wsaSend) (state.push thread message pSendOvl wsaSend) := by
  have sent (pushed : SendingSession threadCount)
      (accepted : pushed.accepted = state.accepted ++ [(pSendOvl, message)])
      (threads : pushed.threads = Function.update state.threads thread .outside) :
      state.MessageCase (.push thread wsaSend) (pushed.sendIO wsaSend) :=
    .accepts thread wsaSend message pSendOvl _ copied
      ((pushed.sendIO_same wsaSend).1.trans accepted)
      ((pushed.sendIO_same wsaSend).2.trans threads)
  unfold push
  dsimp only
  split
  · exact sent _ rfl rfl
  · exact .accepts thread wsaSend message pSendOvl _ copied rfl rfl

theorem messageCase_sendMsg {state : SendingSession threadCount} {thread : Fin threadCount}
    (outside : state.threads thread = .outside) (message : Bytes) :
    state.MessageCase (.sendMsg thread message) (state.sendMsg thread message) := by
  unfold SendingSession.sendMsg ObjectPool.alloc
  cases free : state.pool.mFreeList.getLast? with
  | none => exact .drops thread message (List.getLast?_eq_none_iff.mp free)
  | some pSendOvl =>
      have some : state.pool.mFreeList ≠ [] := fun empty => by
        rw [empty] at free
        cases free
      exact .begins thread message pSendOvl _ outside some rfl rfl

theorem messageCase_pop (state : SendingSession threadCount) (wsaSend : Bool) :
    state.MessageCase (.pop wsaSend) (state.pop wsaSend) := by
  obtain ⟨accepted, threads⟩ := sendIO_same { state with
    mSendDataqueue := state.mSendDataqueue.tail
    popping := false } wsaSend
  unfold SendingSession.pop
  dsimp only
  split
  · exact .other _ _ (fun _ => rfl) rfl rfl
  · exact .other _ _ (fun _ => rfl) accepted threads

theorem messageCase_step {state next : SendingSession threadCount} {event : Event threadCount}
    (taken : state.step event = some next) : state.MessageCase event next := by
  cases event with
  | sendMsg thread message =>
      obtain ⟨outside, taken⟩ := Option.ite_none_right_eq_some.mp taken
      cases taken
      exact messageCase_sendMsg outside message
  | copyMemory thread =>
      simp only [SendingSession.step] at taken
      split at taken
      · rename_i message pSendOvl allocated
        obtain ⟨_, taken⟩ := Option.ite_none_right_eq_some.mp taken
        cases taken
        exact .copies thread message pSendOvl _ allocated rfl rfl
      · cases taken
  | push thread wsaSend =>
      simp only [SendingSession.step] at taken
      split at taken
      · rename_i message pSendOvl copied unlocked
        cases taken
        exact messageCase_push copied wsaSend
      · cases taken
  | completion block dwIoSize =>
      obtain ⟨_, taken⟩ := Option.ite_none_right_eq_some.mp taken
      unfold SendingSession.completion at taken
      split at taken
      · cases taken
      · dsimp only at taken
        split at taken <;> cases taken <;> exact .other _ _ (fun _ => rfl) rfl rfl
  | sendComplete =>
      obtain ⟨_, taken⟩ := Option.ite_none_right_eq_some.mp taken
      unfold SendingSession.sendComplete at taken
      split at taken
      · cases taken
      · cases taken
        exact .other _ _ (fun _ => rfl) rfl rfl
  | pop wsaSend =>
      obtain ⟨_, taken⟩ := Option.ite_none_right_eq_some.mp taken
      cases taken
      exact state.messageCase_pop wsaSend
  | otherAlloc =>
      obtain ⟨_, _, rfl⟩ := Option.map_eq_some_iff.mp taken
      exact .other _ _ (fun _ => rfl) rfl rfl
  | otherWrite block contents length =>
      obtain ⟨_, taken⟩ := Option.ite_none_right_eq_some.mp taken
      cases taken
      exact .other _ _ (fun _ => rfl) rfl rfl
  | otherFree block =>
      obtain ⟨_, taken⟩ := Option.ite_none_right_eq_some.mp taken
      cases taken
      exact .other _ _ (fun _ => rfl) rfl rfl

/-! ## The messages of the logic thread -/

/-- A thread which goes on with a message that it may send. -/
theorem PingsApart.update {logic : Fin threadCount} {state next : SendingSession threadCount}
    (apart : state.PingsApart logic) {thread : Fin threadCount} {stage : SendMsgStage}
    (threads : next.threads = Function.update state.threads thread stage)
    (goes : ∀ message, stage.message? = some message → (message = pingHeader ↔ thread ≠ logic)) :
    next.PingsApart logic := by
  intro other message sends
  rw [threads] at sends
  rcases eq_or_ne other thread with rfl | different
  · rw [Function.update_self] at sends
    exact goes message sends
  · rw [Function.update_of_ne different] at sends
    exact apart other message sends

theorem PingsApart.step {logic : Fin threadCount} {state next : SendingSession threadCount}
    {event : Event threadCount} (apart : state.PingsApart logic)
    (allowed : event.PingsApart logic) (taken : state.step event = some next) :
    next.PingsApart logic := by
  cases messageCase_step taken with
  | drops thread message empty => exact apart
  | begins thread message pSendOvl _ outside some accepted threads =>
      refine apart.update threads fun sent same => ?_
      cases same
      exact allowed
  | copies thread message pSendOvl _ allocated accepted threads =>
      refine apart.update threads fun sent same => ?_
      cases same
      exact apart thread message (congrArg SendMsgStage.message? allocated)
  | accepts thread wsaSend message pSendOvl _ copied accepted threads =>
      exact apart.update threads fun _ none => nomatch none
  | other _ _ silent accepted threads =>
      intro thread message sends
      rw [threads] at sends
      exact apart thread message sends

/-- What a step adds to the messages of the logic thread. -/
theorem line_step {logic : Fin threadCount} {state next : SendingSession threadCount}
    {event : Event threadCount} (apart : state.PingsApart logic)
    (taken : state.step event = some next) :
    next.line logic = state.line logic ++
      if state.pool.mFreeList = [] then [] else (event.message? logic).toList := by
  cases messageCase_step taken with
  | drops thread message empty => rw [if_pos empty, List.append_nil]
  | begins thread message pSendOvl _ outside some accepted threads =>
      rw [if_neg some, line, line, accepted, threads]
      rcases eq_or_ne thread logic with rfl | different
      · rw [Function.update_self, outside]
        simp [SendMsgStage.message?, Event.message?]
      · rw [Function.update_of_ne different.symm, Event.message?, if_neg different]
        exact (List.append_nil _).symm
  | copies thread message pSendOvl _ allocated accepted threads =>
      rw [line, line, accepted, threads, show Event.message? logic (.copyMemory thread) = none
        from rfl, Option.toList_none, ite_self, List.append_nil]
      rcases eq_or_ne thread logic with rfl | different
      · rw [Function.update_self, allocated]
        rfl
      · rw [Function.update_of_ne different.symm]
  | accepts thread wsaSend message pSendOvl _ copied accepted threads =>
      have sends : (state.threads thread).message? = some message :=
        congrArg SendMsgStage.message? copied
      have ping := apart thread message sends
      rw [line, line, accepted, threads, List.map_append, List.filter_append,
        show Event.message? logic (.push thread wsaSend) = none from rfl, Option.toList_none,
        ite_self, List.append_nil]
      rcases eq_or_ne thread logic with rfl | different
      · have packet : message ≠ pingHeader := fun same => ping.mp same rfl
        rw [Function.update_self, sends]
        simp [packet, SendMsgStage.message?]
      · rw [Function.update_of_ne different.symm]
        simp [ping.mpr different]
  | other _ _ silent accepted threads =>
      rw [line, line, accepted, threads, silent, Option.toList_none, ite_self, List.append_nil]

/-! ## Runs -/

/-- What a run adds to the messages of the logic thread: those for which there was a block. -/
theorem line_run {logic : Fin threadCount} {state last : SendingSession threadCount}
    {events : List (Event threadCount)} (apart : state.PingsApart logic)
    (allowed : ∀ event ∈ events, event.PingsApart logic)
    (completed : Execution.run? step state events = some last) :
    last.PingsApart logic ∧ ∃ kept, kept.Sublist (messagesOf logic events) ∧
      last.line logic = state.line logic ++ kept ∧
      (Execution.Throughout step (FindsBlock logic) state events →
        kept = messagesOf logic events) := by
  induction events generalizing state with
  | nil =>
      cases completed
      exact ⟨apart, [], List.Sublist.refl _, (List.append_nil _).symm, fun _ => rfl⟩
  | cons event rest ih =>
      obtain ⟨next, taken, remaining⟩ := Execution.run?_cons_some completed
      have nextApart := apart.step (allowed event List.mem_cons_self) taken
      obtain ⟨lastApart, kept, part, line, whole⟩ := ih nextApart
        (fun other member => allowed other (List.mem_cons_of_mem _ member)) remaining
      have added := line_step apart taken
      have split : messagesOf logic (event :: rest) =
          (event.message? logic).toList ++ messagesOf logic rest := by
        rw [messagesOf, messagesOf, List.filterMap_cons]
        cases event.message? logic <;> rfl
      refine ⟨lastApart, (if state.pool.mFreeList = [] then [] else
        (event.message? logic).toList) ++ kept, ?_, line.trans ?_, fun finds => ?_⟩
      · rw [split]
        refine List.Sublist.append ?_ part
        split_ifs
        · exact List.nil_sublist _
        · exact List.Sublist.refl _
      · rw [added, List.append_assoc]
      · obtain ⟨found, later⟩ := finds next taken
        rw [split, whole later]
        split_ifs with empty
        · have silent : event.message? logic = none := by
            by_contra sends
            exact found sends empty
          rw [silent]
          rfl
        · rfl

/-- Every state of a run with successful sends represents an outbox. -/
theorem always_represents (threadCount poolSize : Nat) (mGeneration : UInt32)
    {events : List (Event threadCount)} (sends : ∀ event ∈ events, event.Sends) :
    Execution.Always step (fun state => ∃ box, state.Represents poolSize box)
      (start threadCount poolSize mGeneration) events :=
  Execution.always_of_throughout (fun _ _ _ ⟨_, represents⟩ sends taken =>
      represents.step sends taken)
    ⟨_, start_represents threadCount poolSize mGeneration⟩
    (Execution.throughout_of_forall sends _)

end SendingSession

/-! ## What is read -/

theorem ServerPacket.CarriedBy.isFrame {packet : ServerPacket} {message : Bytes}
    (carried : packet.CarriedBy message) (fits : packet.Fits) :
    User.packetFormat.IsFrame message := by
  obtain ⟨memory, rfl⟩ := carried
  exact ServerPacket.isFrame fits memory

theorem ServerPacket.CarriedBy.read {packet : ServerPacket} {message : Bytes}
    (carried : packet.CarriedBy message) (fits : packet.Fits) :
    readServerPacket message = some packet := by
  obtain ⟨memory, rfl⟩ := carried
  exact ServerPacket.read_bytes fits memory

theorem readServerPacket_pingHeader : readServerPacket pingHeader = none := by decide

/-- The messages of packets are read as these packets. -/
theorem filterMap_carriedBy {packets : List ServerPacket} {messages : List Bytes}
    (carried : List.Forall₂ ServerPacket.CarriedBy packets messages)
    (fits : ∀ packet ∈ packets, packet.Fits) :
    messages.filterMap readServerPacket = packets := by
  induction carried with
  | nil => rfl
  | cons first rest ih =>
      have head := first.read (fits _ List.mem_cons_self)
      have tail := ih fun packet member => fits packet (List.mem_cons_of_mem _ member)
      rw [List.filterMap_cons, head, tail]

/-- Pings are not read as packets. -/
theorem filterMap_noPings (messages : List Bytes) :
    (messages.filter (· ≠ pingHeader)).filterMap readServerPacket =
      messages.filterMap readServerPacket := by
  induction messages with
  | nil => rfl
  | cons message rest ih =>
      by_cases ping : message = pingHeader
      · rw [List.filter_cons_of_neg (by simpa using ping), ih, List.filterMap_cons, ping,
          readServerPacket_pingHeader]
      · rw [List.filter_cons_of_pos (by simpa using ping), List.filterMap_cons,
          List.filterMap_cons, ih]

/-- A part of a stream of packets and pings is read as the packets which are complete in it. -/
theorem readServerPackets_eq {messages : List Bytes}
    (areFrames : ∀ message ∈ messages, User.packetFormat.IsFrame message) {received : Bytes}
    (arrived : received <+: messages.flatten) :
    readServerPackets received =
      (FrameFormat.complete messages received.length).filterMap readServerPacket := by
  have positive : 0 < User.packetFormat.header := by decide
  rw [readServerPackets,
    FrameFormat.frames_of_stream positive areFrames arrived (Nat.le_refl _)]

theorem isFrame_of_carriedBy {packets : List ServerPacket} {messages : List Bytes}
    (carried : List.Forall₂ ServerPacket.CarriedBy packets messages)
    (fits : ∀ packet ∈ packets, packet.Fits) :
    ∀ message ∈ messages, User.packetFormat.IsFrame message := by
  induction carried with
  | nil => exact fun _ member => absurd member List.not_mem_nil
  | cons first rest ih =>
      refine List.forall_mem_cons.mpr ⟨first.isFrame (fits _ List.mem_cons_self), ?_⟩
      exact ih fun packet member => fits packet (List.mem_cons_of_mem _ member)

/-- The accepted messages are those of the packets of the logic thread, and pings. -/
theorem isFrame_of_line {packets : List ServerPacket} {messages given : List Bytes}
    (carried : List.Forall₂ ServerPacket.CarriedBy packets given)
    (fits : ∀ packet ∈ packets, packet.Fits)
    (line : (messages.filter (· ≠ pingHeader)).Sublist given) :
    ∀ message ∈ messages, User.packetFormat.IsFrame message := by
  intro message member
  by_cases ping : message = pingHeader
  · rw [ping]
    exact isFrame_pingHeader
  · have sent := line.subset (List.mem_filter.mpr ⟨member, by simpa using ping⟩)
    exact isFrame_of_carriedBy carried fits message sent

namespace PacketManager

variable {n threadCount poolSize : Nat}

/-- The response to a login, and a ping in front of it. -/
def pingAndLogin : List (SendingSession.Event 2) :=
  [.sendMsg 1 pingHeader, .sendMsg 0 ((ServerPacket.loginResponse 0).bytes {}), .copyMemory 1,
    .copyMemory 0, .push 1 true, .push 0 true, .completion 1 5, .sendComplete, .pop true,
    .completion 0 7, .sendComplete, .pop true]

end PacketManager

end IOCPChatServer

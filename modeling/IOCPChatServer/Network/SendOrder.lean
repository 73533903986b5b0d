import IOCPChatServer.ClientSession
import IOCPChatServer.Library.Execution
import IOCPChatServer.Library.Outbox
import Mathlib

/-!
# The order of sends

`SendMsg` and `SendComplete` of one session during its first connection, run by any number of
threads, one critical section at a time.  `SendComplete` returns its block before it removes it
from the queue, so it takes two steps under `mSendLock`.  The pool is shared with the other
sessions, which may do anything with the blocks which they hold.  Here a block has all its
`MAX_SOCKBUF` bytes, and `wsaBufLen` is the `wsaBuf.len` of the blocks.

`accepted`, `passed` and `returned` are histories.
-/

namespace IOCPChatServer

theorem ObjectPool.alloc_spec {pool rest : ObjectPool} {block : Nat}
    (alloc : pool.alloc = some (block, rest)) :
    pool.mFreeList = rest.mFreeList ++ [block] ∧ rest.mAllBlocks = pool.mAllBlocks := by
  obtain ⟨last, final, same⟩ := Option.map_eq_some_iff.mp alloc
  cases same
  exact ⟨(List.dropLast_append_getLast? _ final).symm, rfl⟩

/-- `MAX_SOCKBUF` -/
def maxSockBuf : Nat := 1024

/-- Where a thread is in `SendMsg`. -/
inductive SendMsgStage where
  | outside
  | allocated (message : Bytes) (pSendOvl : Nat)
  | copied (message : Bytes) (pSendOvl : Nat)
  deriving DecidableEq, Repr

/-- The block of a message which is not in the queue yet. -/
def SendMsgStage.block? : SendMsgStage → Option Nat
  | .outside => none
  | .allocated _ pSendOvl => some pSendOvl
  | .copied _ pSendOvl => some pSendOvl

/-- A session, the pool and the threads which send.  `completing` counts the workers which have
a completion and wait for `mSendLock`; `popping` is the one which holds it after its `Free`. -/
structure SendingSession (threadCount : Nat) where
  pool : ObjectPool
  wsaBufLen : Nat → Nat := fun _ => 0
  mGeneration : UInt32
  mSendDataqueue : List Nat := []
  threads : Fin threadCount → SendMsgStage := fun _ => .outside
  outstanding : List Nat := []
  completing : Nat := 0
  popping : Bool := false
  others : List Nat := []
  accepted : List (Nat × Bytes) := []
  passed : List (Bytes × Nat) := []
  returned : List Nat := []

namespace SendingSession

variable {threadCount : Nat}

def setThread (state : SendingSession threadCount) (thread : Fin threadCount)
    (stage : SendMsgStage) : SendingSession threadCount :=
  { state with threads := Function.update state.threads thread stage }

def write (state : SendingSession threadCount) (block : Nat) (contents : SendOverlappedEx)
    (length : Nat) : SendingSession threadCount :=
  { state with
    pool := state.pool.write block contents
    wsaBufLen := Function.update state.wsaBufLen block length }

/-- What `WSASend` is given of a block. -/
def wsaBuf (state : SendingSession threadCount) (block : Nat) : Bytes × Nat :=
  ((state.pool.mAllBlocks block).buffer.take (state.wsaBufLen block), state.wsaBufLen block)

/-- `SendIO` -/
def sendIO (state : SendingSession threadCount) (wsaSend : Bool) : SendingSession threadCount :=
  match state.mSendDataqueue with
  | [] => state
  | sendOverlappedEx :: _ => { state with
      passed := state.passed ++ [state.wsaBuf sendOverlappedEx]
      outstanding :=
        if wsaSend then state.outstanding ++ [sendOverlappedEx] else state.outstanding }

/-- `SendMsg` as far as its `Alloc`; an exhausted pool makes it return `false`. -/
def sendMsg (state : SendingSession threadCount) (thread : Fin threadCount) (message : Bytes) :
    SendingSession threadCount :=
  match state.pool.alloc with
  | none => state
  | some (pSendOvl, pool) => { state with pool }.setThread thread (.allocated message pSendOvl)

/-- `SendMsg` fills its block.  A longer message is copied behind the buffer, with no result. -/
def copyMemory (state : SendingSession threadCount) (thread : Fin threadCount)
    (message : Bytes) (pSendOvl : Nat) : Option (SendingSession threadCount) :=
  if message.length ≤ maxSockBuf then
    let old := (state.pool.mAllBlocks pSendOvl).buffer
    some ((state.write pSendOvl
      { generation := state.mGeneration, buffer := message ++ old.drop message.length }
      message.length).setThread thread (.copied message pSendOvl))
  else none

/-- `SendMsg` under `mSendLock`. -/
def push (state : SendingSession threadCount) (thread : Fin threadCount)
    (message : Bytes) (pSendOvl : Nat) (wsaSend : Bool) : SendingSession threadCount :=
  let pushed := { state with
    mSendDataqueue := state.mSendDataqueue ++ [pSendOvl]
    accepted := state.accepted ++ [(pSendOvl, message)] }.setThread thread .outside
  if pushed.mSendDataqueue.length = 1 then pushed.sendIO wsaSend else pushed

/-- `Free` -/
def free (state : SendingSession threadCount) (block : Nat) : SendingSession threadCount :=
  { state with
    pool := state.pool.free block
    returned := state.returned ++ [block] }

/-- A worker takes the completion of a send.  One of no bytes ends the connection instead. -/
def completion (state : SendingSession threadCount) (block dwIoSize : Nat) :
    Option (SendingSession threadCount) :=
  if dwIoSize = 0 then none
  else
    let taken := { state with outstanding := state.outstanding.erase block }
    if (state.pool.mAllBlocks block).generation ≠ state.mGeneration then some (taken.free block)
    else some { taken with completing := state.completing + 1 }

/-- `SendComplete` takes `mSendLock` and frees the front; that of an empty queue has no
result. -/
def sendComplete (state : SendingSession threadCount) : Option (SendingSession threadCount) :=
  match state.mSendDataqueue with
  | [] => none
  | front :: _ => some { state.free front with
      completing := state.completing - 1
      popping := true }

/-- `SendComplete` removes the front and releases `mSendLock`. -/
def pop (state : SendingSession threadCount) (wsaSend : Bool) : SendingSession threadCount :=
  let popped := { state with
    mSendDataqueue := state.mSendDataqueue.tail
    popping := false }
  if popped.mSendDataqueue.isEmpty then popped else popped.sendIO wsaSend

inductive Event (threadCount : Nat) where
  | sendMsg (thread : Fin threadCount) (message : Bytes)
  | copyMemory (thread : Fin threadCount)
  | push (thread : Fin threadCount) (wsaSend : Bool)
  | completion (block dwIoSize : Nat)
  | sendComplete
  | pop (wsaSend : Bool)
  | otherAlloc
  | otherWrite (block : Nat) (contents : SendOverlappedEx) (length : Nat)
  | otherFree (block : Nat)
  deriving DecidableEq

def step (state : SendingSession threadCount) :
    Event threadCount → Option (SendingSession threadCount)
  | .sendMsg thread message =>
      if state.threads thread = .outside then some (state.sendMsg thread message) else none
  | .copyMemory thread =>
      match state.threads thread with
      | .allocated message pSendOvl => state.copyMemory thread message pSendOvl
      | _ => none
  | .push thread wsaSend =>
      match state.threads thread, state.popping with
      | .copied message pSendOvl, false => some (state.push thread message pSendOvl wsaSend)
      | _, _ => none
  | .completion block dwIoSize =>
      if block ∈ state.outstanding then state.completion block dwIoSize else none
  | .sendComplete =>
      if state.completing > 0 ∧ state.popping = false then state.sendComplete else none
  | .pop wsaSend => if state.popping then some (state.pop wsaSend) else none
  | .otherAlloc => state.pool.alloc.map fun (block, pool) =>
      { state with pool, others := state.others ++ [block] }
  | .otherWrite block contents length =>
      if block ∈ state.others then some (state.write block contents length) else none
  | .otherFree block =>
      if block ∈ state.others then
        some { state with pool := state.pool.free block, others := state.others.erase block }
      else none

/-- `WSASend` succeeds or is pending. -/
def Event.Sends : Event threadCount → Prop
  | .push _ wsaSend => wsaSend = true
  | .pop wsaSend => wsaSend = true
  | _ => True

instance (event : Event threadCount) : Decidable event.Sends := by
  cases event <;> unfold Event.Sends <;> infer_instance

/-- A session on its first connection, with a pool of which it holds no block. -/
def start (threadCount poolSize : Nat) (mGeneration : UInt32) : SendingSession threadCount where
  pool :=
    { ObjectPool.init poolSize with
      mAllBlocks := fun _ => { buffer := List.replicate maxSockBuf 0 } }
  mGeneration := mGeneration

/-! ## Blocks -/

/-- The blocks of the messages which are not in the queue yet. -/
def threadBlocks (state : SendingSession threadCount) : List Nat :=
  (List.finRange threadCount).filterMap fun thread => (state.threads thread).block?

/-- The blocks of the other threads. -/
def otherBlocks (state : SendingSession threadCount) (thread : Fin threadCount) : List Nat :=
  ((List.finRange threadCount).erase thread).filterMap fun other => (state.threads other).block?

/-- The blocks in the queue which were not returned. -/
def queued (state : SendingSession threadCount) : List Nat :=
  if state.popping then state.mSendDataqueue.tail else state.mSendDataqueue

/-- Wherever a block of the pool may be. -/
def places (state : SendingSession threadCount) : List Nat :=
  state.pool.mFreeList ++ (state.threadBlocks ++ (state.queued ++ state.others))

/-- The block has the bytes and the length of the message, and the generation of the session. -/
def Holds (state : SendingSession threadCount) (entry : Nat × Bytes) : Prop :=
  (state.pool.mAllBlocks entry.1).generation = state.mGeneration ∧
    state.wsaBuf entry.1 = (entry.2, entry.2.length)

theorem threadBlocks_perm (state : SendingSession threadCount) (thread : Fin threadCount) :
    state.threadBlocks.Perm ((state.threads thread).block?.toList ++ state.otherBlocks thread) := by
  have listed := List.perm_cons_erase (List.mem_finRange thread)
  have mapped := listed.filterMap fun other => (state.threads other).block?
  refine mapped.trans ?_
  rw [List.filterMap_cons]
  cases (state.threads thread).block? <;> exact List.Perm.refl _

theorem setThread_self (state : SendingSession threadCount) (thread : Fin threadCount)
    (stage : SendMsgStage) : (state.setThread thread stage).threads thread = stage :=
  Function.update_self ..

theorem setThread_of_ne (state : SendingSession threadCount) {thread other : Fin threadCount}
    (different : other ≠ thread) (stage : SendMsgStage) :
    (state.setThread thread stage).threads other = state.threads other :=
  Function.update_of_ne different ..

theorem otherBlocks_setThread (state : SendingSession threadCount) (thread : Fin threadCount)
    (stage : SendMsgStage) :
    (state.setThread thread stage).otherBlocks thread = state.otherBlocks thread := by
  refine List.filterMap_congr fun other member => ?_
  have different : other ≠ thread :=
    ((List.nodup_finRange threadCount).mem_erase_iff.mp member).1
  rw [setThread_of_ne state different]

/-- The blocks of the threads when one of them moves on. -/
theorem threadBlocks_setThread (state : SendingSession threadCount) (thread : Fin threadCount)
    (stage : SendMsgStage) :
    (state.setThread thread stage).threadBlocks.Perm
      (stage.block?.toList ++ state.otherBlocks thread) := by
  have split := (state.setThread thread stage).threadBlocks_perm thread
  rwa [otherBlocks_setThread, setThread_self] at split

/-- The places with the block of one thread in front of those of the others. -/
theorem places_perm (state : SendingSession threadCount) (thread : Fin threadCount) :
    state.places.Perm (state.pool.mFreeList ++ (((state.threads thread).block?.toList ++
      state.otherBlocks thread) ++ (state.queued ++ state.others))) :=
  ((state.threadBlocks_perm thread).append_right _).append_left _

theorem places_setThread (state : SendingSession threadCount) (thread : Fin threadCount)
    (stage : SendMsgStage) :
    (state.setThread thread stage).places.Perm (state.pool.mFreeList ++
      ((stage.block?.toList ++ state.otherBlocks thread) ++ (state.queued ++ state.others))) :=
  ((state.threadBlocks_setThread thread stage).append_right _).append_left _

theorem mem_threadBlocks {state : SendingSession threadCount} {thread : Fin threadCount}
    {block : Nat} (held : (state.threads thread).block? = some block) :
    block ∈ state.threadBlocks :=
  List.mem_filterMap.mpr ⟨thread, List.mem_finRange thread, held⟩

/-- Writing one block leaves what the others hold. -/
theorem Holds.write {state : SendingSession threadCount} {entry : Nat × Bytes}
    (holds : state.Holds entry) {block : Nat} (different : entry.1 ≠ block)
    (contents : SendOverlappedEx) (length : Nat) :
    (state.write block contents length).Holds entry := by
  simpa [Holds, wsaBuf, SendingSession.write, ObjectPool.write, different] using holds

/-! ## The queue as an outbox -/

/-- What `WSASend` is to be given for a message. -/
def wsaBufOf (entry : Nat × Bytes) : Bytes × Nat := (entry.2, entry.2.length)

/-- The pending entries whose blocks were not returned. -/
def unreturned (state : SendingSession threadCount) (box : Outbox (Nat × Bytes)) :
    List (Nat × Bytes) :=
  if state.popping then box.pending.tail else box.pending

/-- The queue holds the pending entries of the outbox, and every block is at one place. -/
structure Stores (poolSize : Nat) (state : SendingSession threadCount)
    (box : Outbox (Nat × Bytes)) : Prop where
  accepted : state.accepted = box.accepted
  queue : state.mSendDataqueue = box.pending.map Prod.fst
  returned : state.returned = (if state.popping then box.issued else box.done).map Prod.fst
  contents : ∀ entry ∈ state.unreturned box, state.Holds entry
  copied : ∀ thread message block, state.threads thread = .copied message block →
    state.Holds (block, message)
  places : state.places.Perm (List.range poolSize)

/-- The session sends the messages as the outbox issues them. -/
structure Represents (poolSize : Nat) (state : SendingSession threadCount)
    (box : Outbox (Nat × Bytes)) : Prop extends Stores poolSize state box where
  passed : state.passed = box.issued.map wsaBufOf
  single : state.outstanding.length + state.completing + state.popping.toNat =
    if box.pending = [] then 0 else 1
  front : ∀ block ∈ state.outstanding, state.mSendDataqueue.head? = some block

section Steps

variable {poolSize : Nat} {state : SendingSession threadCount} {box : Outbox (Nat × Bytes)}

theorem Stores.queued_eq (stores : state.Stores poolSize box) :
    state.queued = (state.unreturned box).map Prod.fst := by
  rw [queued, unreturned, stores.queue, ← List.map_tail]
  cases state.popping <;> rfl

/-- The block of a thread is at no other place. -/
theorem Stores.own_block (stores : state.Stores poolSize box)
    {thread : Fin threadCount} {block : Nat}
    (own : (state.threads thread).block? = some block) :
    block ∉ state.queued ∧
      ∀ other, other ≠ thread → (state.threads other).block? ≠ some block := by
  have apart := ((state.places_perm thread).symm.trans stores.places).nodup_iff.mpr
    List.nodup_range
  rw [own, List.append_assoc] at apart
  have fresh := (List.nodup_cons.mp (List.nodup_append.mp apart).2.1).1
  simp only [List.append_eq, List.mem_append, not_or, List.nil_append] at fresh
  refine ⟨fresh.2.1, fun other different held => fresh.1 ?_⟩
  exact List.mem_filterMap.mpr
    ⟨other, (List.mem_erase_of_ne different).mpr (List.mem_finRange other), held⟩

/-- A block of another session is at no place of this one. -/
theorem Stores.foreign_block (stores : state.Stores poolSize box) {block : Nat}
    (foreign : block ∈ state.others) :
    block ∉ state.queued ∧ ∀ thread, (state.threads thread).block? ≠ some block := by
  have apart := stores.places.nodup_iff.mpr List.nodup_range
  have held := (List.nodup_append.mp apart).2.1
  refine ⟨fun queued => ?_, fun thread own => ?_⟩
  · exact (List.nodup_append.mp (List.nodup_append.mp held).2.1).2.2 block queued block foreign rfl
  · exact (List.nodup_append.mp held).2.2 block (mem_threadBlocks own) block
      (List.mem_append_right _ foreign) rfl

/-- A block which is neither queued nor filled may be written. -/
theorem Represents.write (represents : state.Represents poolSize box) {block : Nat}
    (unqueued : block ∉ state.queued)
    (unfilled : ∀ thread message, state.threads thread ≠ .copied message block)
    (contents : SendOverlappedEx) (length : Nat) :
    (state.write block contents length).Represents poolSize box := by
  refine { represents with contents := fun entry member => ?_, copied := ?_ }
  · refine (represents.contents entry member).write (fun same => unqueued ?_) contents length
    rw [represents.queued_eq, ← same]
    exact List.mem_map_of_mem member
  · intro thread message filled stage
    refine (represents.copied thread message filled stage).write ?_ contents length
    rintro rfl
    exact unfilled thread message stage

/-- A thread moves on with its block. -/
theorem Represents.setThread (represents : state.Represents poolSize box)
    {thread : Fin threadCount} {stage : SendMsgStage}
    (same : stage.block? = (state.threads thread).block?)
    (filled : ∀ message block, stage = .copied message block → state.Holds (block, message)) :
    (state.setThread thread stage).Represents poolSize box := by
  refine { represents with copied := fun other message block copied => ?_, places := ?_ }
  · rcases eq_or_ne other thread with rfl | different
    · rw [setThread_self] at copied
      exact filled message block copied
    · rw [setThread_of_ne _ different] at copied
      exact represents.copied other message block copied
  · refine (state.places_setThread thread stage).trans ?_
    rw [same]
    exact (state.places_perm thread).symm.trans represents.places

theorem Represents.sendMsg (represents : state.Represents poolSize box)
    {thread : Fin threadCount} (outside : state.threads thread = .outside) (message : Bytes) :
    (state.sendMsg thread message).Represents poolSize box := by
  rw [SendingSession.sendMsg]
  cases alloc : state.pool.alloc with
  | none => exact represents
  | some allocation =>
    obtain ⟨pSendOvl, pool⟩ := allocation
    obtain ⟨free, blocks⟩ := ObjectPool.alloc_spec alloc
    have holds (entry : Nat × Bytes) (holds : state.Holds entry) :
        (({ state with pool }.setThread thread (.allocated message pSendOvl))).Holds entry := by
      simpa [Holds, wsaBuf, SendingSession.setThread, blocks] using holds
    refine { represents with contents := ?_, copied := ?_, places := ?_ }
    · exact fun entry member => holds entry (represents.contents entry member)
    · intro other otherMessage block stage
      rcases eq_or_ne other thread with rfl | different
      · rw [setThread_self] at stage
        cases stage
      · rw [setThread_of_ne _ different] at stage
        exact holds _ (represents.copied other otherMessage block stage)
    · refine (places_setThread { state with pool } thread (.allocated message pSendOvl)).trans ?_
      refine List.Perm.trans (List.Perm.of_eq ?_)
        ((state.places_perm thread).symm.trans represents.places)
      rw [outside, free, List.append_assoc pool.mFreeList]
      rfl

theorem Represents.copyMemory {next : SendingSession threadCount}
    (represents : state.Represents poolSize box) {thread : Fin threadCount} {message : Bytes}
    {pSendOvl : Nat} (allocated : state.threads thread = .allocated message pSendOvl)
    (taken : state.copyMemory thread message pSendOvl = some next) :
    next.Represents poolSize box := by
  obtain ⟨_, taken⟩ := Option.ite_none_right_eq_some.mp taken
  cases taken
  have own : (state.threads thread).block? = some pSendOvl := congrArg SendMsgStage.block? allocated
  obtain ⟨unqueued, apart⟩ := represents.own_block own
  refine (represents.write unqueued ?_ _ _).setThread ?_ ?_
  · intro other otherMessage copied
    rcases eq_or_ne other thread with rfl | different
    · rw [allocated] at copied
      cases copied
    · exact apart other different (by rw [copied]; rfl)
  · exact (congrArg SendMsgStage.block? allocated).symm
  · intro copiedMessage block copied
    cases copied
    simp [Holds, wsaBuf, SendingSession.write, ObjectPool.write]

/-- `SendIO` issues the first pending entry, when nothing else is under way. -/
theorem Stores.sendIO (stores : state.Stores poolSize box) (unlocked : state.popping = false)
    (some : box.pending ≠ []) (idle : state.outstanding = [] ∧ state.completing = 0)
    (passed : state.passed = box.done.map wsaBufOf) :
    (state.sendIO true).Represents poolSize box := by
  cases pending : box.pending with
  | nil => exact absurd pending some
  | cons entry rest =>
    have queue : state.mSendDataqueue = entry.1 :: rest.map Prod.fst := by
      rw [stores.queue, pending, List.map_cons]
    have holds : state.Holds entry := by
      refine stores.contents entry ?_
      rw [unreturned, unlocked, pending]
      exact List.mem_cons_self
    have sent : state.sendIO true = { state with
        passed := state.passed ++ [state.wsaBuf entry.1]
        outstanding := state.outstanding ++ [entry.1] } := by
      rw [SendingSession.sendIO, queue]
      rfl
    rw [sent]
    refine { stores with passed := ?_, single := ?_, front := ?_ }
    · rw [Outbox.issued_eq, pending, List.map_append, passed, holds.2]
      rfl
    · rw [idle.1, idle.2, unlocked, if_neg some]
      rfl
    · intro block member
      rw [idle.1] at member
      rw [List.mem_singleton.mp member, queue]
      rfl

/-- The queue after a push, before its `SendIO`. -/
theorem Stores.pushed (stores : state.Stores poolSize box)
    {thread : Fin threadCount} {message : Bytes} {pSendOvl : Nat}
    (copied : state.threads thread = .copied message pSendOvl) (unlocked : state.popping = false) :
    Stores poolSize ({ state with
      mSendDataqueue := state.mSendDataqueue ++ [pSendOvl]
      accepted := state.accepted ++ [(pSendOvl, message)] }.setThread thread .outside)
      (box.accept (pSendOvl, message)) := by
  have returned := stores.returned
  have contents := stores.contents
  rw [unlocked, if_neg Bool.false_ne_true] at returned
  rw [unreturned, unlocked, if_neg Bool.false_ne_true] at contents
  refine ⟨congrArg (· ++ [_]) stores.accepted, ?_, ?_, fun entry member => ?_, ?_, ?_⟩
  · rw [Outbox.pending_accept, List.map_append, ← stores.queue]
    rfl
  · simp only [setThread, unlocked, Bool.false_eq_true, if_false, Outbox.done_accept]
    exact returned
  · simp only [unreturned, setThread, unlocked, Bool.false_eq_true, if_false,
      Outbox.pending_accept] at member
    rcases List.mem_append.mp member with before | new
    · exact contents entry before
    · cases List.mem_singleton.mp new
      exact stores.copied thread message pSendOvl copied
  · intro other otherMessage block stage
    rcases eq_or_ne other thread with rfl | different
    · rw [setThread_self] at stage
      cases stage
    · rw [setThread_of_ne _ different] at stage
      exact stores.copied other otherMessage block stage
  · -- the block moves from the thread to the end of the queue
    have before := (state.places_perm thread).symm.trans stores.places
    refine (places_setThread _ thread .outside).trans (List.Perm.trans ?_ before)
    refine List.perm_iff_count.mpr fun block => ?_
    simp only [copied, queued, otherBlocks, unlocked, Bool.false_eq_true, if_false,
      SendMsgStage.block?, Option.toList, List.count_append, List.count_nil]
    omega

theorem Represents.push (represents : state.Represents poolSize box)
    {thread : Fin threadCount} {message : Bytes} {pSendOvl : Nat}
    (copied : state.threads thread = .copied message pSendOvl) (unlocked : state.popping = false) :
    (state.push thread message pSendOvl true).Represents poolSize
      (box.accept (pSendOvl, message)) := by
  have pushed := represents.toStores.pushed copied unlocked
  have length : (state.mSendDataqueue ++ [pSendOvl]).length = box.pending.length + 1 := by
    rw [List.length_append, represents.queue, List.length_map, List.length_singleton]
  have nonempty : (box.accept (pSendOvl, message)).pending ≠ [] := by
    rw [Outbox.pending_accept]
    exact List.append_ne_nil_of_right_ne_nil _ (List.cons_ne_nil _ _)
  have single := represents.single
  have passed := represents.passed
  by_cases settled : box.pending = []
  · have first : (state.mSendDataqueue ++ [pSendOvl]).length = 1 := by rw [length, settled]; rfl
    rw [if_pos settled] at single
    refine (congrArg (Represents poolSize · _) (if_pos first)).mpr ?_
    refine pushed.sendIO unlocked nonempty ⟨List.length_eq_zero_iff.mp ?_, ?_⟩ ?_
    · exact Nat.eq_zero_of_add_eq_zero_right (Nat.eq_zero_of_add_eq_zero_right single)
    · exact Nat.eq_zero_of_add_eq_zero_left (Nat.eq_zero_of_add_eq_zero_right single)
    · rw [Outbox.done_accept, Outbox.done_of_settled settled, ← Outbox.issued_of_settled settled]
      exact passed
  · have later : (state.mSendDataqueue ++ [pSendOvl]).length ≠ 1 := by
      rw [length]
      simpa using settled
    rw [if_neg settled] at single
    refine (congrArg (Represents poolSize · _) (if_neg later)).mpr ?_
    refine { pushed with passed := ?_, single := ?_, front := fun block member => ?_ }
    · rw [Outbox.issued_accept, if_neg settled]
      exact passed
    · rw [if_neg nonempty]
      exact single
    · exact List.mem_head?_append_of_mem_head? (represents.front block member)

/-- With an outstanding send no completion is being processed, and it is that of the front. -/
theorem Represents.of_outstanding (represents : state.Represents poolSize box) {block : Nat}
    (outstanding : block ∈ state.outstanding) :
    state.outstanding = [block] ∧ state.completing = 0 ∧ state.popping = false ∧
      ∃ entry rest, box.pending = entry :: rest ∧ entry.1 = block := by
  have single := represents.single
  have head := represents.front block outstanding
  have some := List.length_pos_of_mem outstanding
  rw [represents.queue] at head
  cases pending : box.pending with
  | nil => simp [pending] at head
  | cons entry rest =>
    rw [pending, if_neg (List.cons_ne_nil _ _)] at single
    have only : state.outstanding.length = 1 := by omega
    obtain ⟨other, one⟩ := List.length_eq_one_iff.mp only
    rw [one] at outstanding
    refine ⟨one.trans (congrArg ([·]) (List.mem_singleton.mp outstanding).symm), by omega, ?_,
      entry, rest, rfl, by simpa [pending] using head⟩
    cases unlocked : state.popping with
    | false => rfl
    | true =>
      rw [unlocked, only, Bool.toNat_true] at single
      omega

/-- A completion always finds the generation of the session. -/
theorem Represents.completion {next : SendingSession threadCount}
    (represents : state.Represents poolSize box) {block dwIoSize : Nat}
    (outstanding : block ∈ state.outstanding)
    (taken : state.completion block dwIoSize = some next) : next.Represents poolSize box := by
  obtain ⟨only, completing, unlocked, entry, rest, pending, rfl⟩ :=
    represents.of_outstanding outstanding
  have holds : state.Holds entry := by
    refine represents.contents entry ?_
    rw [unreturned, unlocked, pending]
    exact List.mem_cons_self
  have single := represents.single
  obtain ⟨_, taken⟩ := Option.ite_none_left_eq_some.mp taken
  rw [if_neg (not_not.mpr holds.1)] at taken
  cases taken
  have taken : state.outstanding.erase entry.1 = [] := by rw [only, List.erase_cons_head]
  refine { represents with single := ?_, front := fun block member => ?_ }
  · rw [taken, completing, unlocked, if_neg (by simp [pending])]
    rfl
  · rw [taken] at member
    exact absurd member List.not_mem_nil

theorem Represents.sendComplete {next : SendingSession threadCount}
    (represents : state.Represents poolSize box) (completing : state.completing > 0)
    (unlocked : state.popping = false) (taken : state.sendComplete = some next) :
    next.Represents poolSize box := by
  have single := represents.single
  have returned := represents.returned
  have contents := represents.contents
  have queue := represents.queue
  rw [unlocked, if_neg Bool.false_ne_true] at returned
  rw [unreturned, unlocked, if_neg Bool.false_ne_true] at contents
  cases pending : box.pending with
  | nil =>
    rw [pending, if_pos rfl] at single
    omega
  | cons entry rest =>
    rw [pending] at single queue contents
    rw [if_neg (List.cons_ne_nil _ _)] at single
    have idle : state.outstanding = [] := List.length_eq_zero_iff.mp (by omega)
    rw [SendingSession.sendComplete, queue, List.map_cons, Option.some.injEq] at taken
    subst taken
    refine { accepted := represents.accepted, queue := ?_, returned := ?_, contents := ?_,
             copied := represents.copied, places := ?_, passed := represents.passed,
             single := ?_, front := ?_ }
    · rw [pending]
      exact queue
    · rw [if_pos rfl, Outbox.issued_eq, pending, List.map_append, ← returned]
      rfl
    · intro other member
      rw [unreturned, if_pos rfl, pending] at member
      exact contents other (List.mem_cons_of_mem _ member)
    · -- the front moves from the queue to the free blocks
      refine List.Perm.trans (List.perm_iff_count.mpr fun block => ?_) represents.places
      simp only [places, threadBlocks, queued, free, ObjectPool.free, unlocked, queue, if_true,
        Bool.false_eq_true, if_false, List.map_cons, List.tail_cons, List.count_append,
        List.count_cons, List.count_nil]
      omega
    · rw [if_neg (by simp [pending])]
      simp only [free, idle, List.length_nil, Bool.toNat_true]
      omega
    · intro block member
      exact absurd (idle ▸ member) List.not_mem_nil

/-- Removing the front completes an entry. -/
theorem Represents.pop (represents : state.Represents poolSize box)
    (locked : state.popping = true) (some : box.pending ≠ []) :
    (state.pop true).Represents poolSize (box.complete some) := by
  have single := represents.single
  have returned := represents.returned
  have contents := represents.contents
  have places := represents.places
  rw [locked, if_neg some, Bool.toNat_true] at single
  rw [locked, if_pos rfl] at returned
  rw [unreturned, locked, if_pos rfl] at contents
  have idle : state.outstanding = [] ∧ state.completing = 0 :=
    ⟨List.length_eq_zero_iff.mp (by omega), by omega⟩
  have queue : state.mSendDataqueue.tail = (box.complete some).pending.map Prod.fst := by
    rw [Outbox.pending_complete, represents.queue, List.map_tail]
  have popped : Stores poolSize
      { state with mSendDataqueue := state.mSendDataqueue.tail, popping := false }
      (box.complete some) := by
    refine ⟨represents.accepted, queue, returned, ?_, represents.copied, ?_⟩
    · rw [unreturned, if_neg Bool.false_ne_true, Outbox.pending_complete]
      exact contents
    · rw [SendingSession.places, queued, locked, if_pos rfl] at places
      exact places
  have issued := Outbox.issued_complete some
  rw [← Outbox.pending_complete some] at issued
  by_cases settled : (box.complete some).pending = []
  · have empty : state.mSendDataqueue.tail.isEmpty = true := by rw [queue, settled]; rfl
    refine (congrArg (Represents poolSize · _) (if_pos empty)).mpr ?_
    refine { popped with passed := ?_, single := ?_, front := fun block member => ?_ }
    · rw [issued, settled]
      simpa using represents.passed
    · rw [if_pos settled]
      simp [idle]
    · exact absurd (idle.1 ▸ member) List.not_mem_nil
  · have more : ¬state.mSendDataqueue.tail.isEmpty = true := by
      rw [queue]
      simpa using settled
    refine (congrArg (Represents poolSize · _) (if_neg more)).mpr ?_
    exact popped.sendIO rfl settled idle represents.passed

theorem Represents.otherAlloc (represents : state.Represents poolSize box) {block : Nat}
    {pool : ObjectPool} (alloc : state.pool.alloc = some (block, pool)) :
    Represents poolSize { state with pool, others := state.others ++ [block] } box := by
  obtain ⟨free, blocks⟩ := ObjectPool.alloc_spec alloc
  have holds (entry : Nat × Bytes) (holds : state.Holds entry) :
      Holds { state with pool, others := state.others ++ [block] } entry := by
    simpa [Holds, wsaBuf, blocks] using holds
  refine { represents with contents := ?_, copied := ?_, places := ?_ }
  · exact fun entry member => holds entry (represents.contents entry member)
  · exact fun thread message filled stage =>
      holds _ (represents.copied thread message filled stage)
  · refine List.Perm.trans (List.perm_iff_count.mpr fun other => ?_) represents.places
    simp only [places, threadBlocks, queued, free, List.count_append]
    omega

theorem Represents.otherFree (represents : state.Represents poolSize box) {block : Nat}
    (foreign : block ∈ state.others) :
    Represents poolSize
      { state with pool := state.pool.free block, others := state.others.erase block } box := by
  refine { represents with places := ?_ }
  refine List.Perm.trans (List.perm_iff_count.mpr fun other => ?_) represents.places
  have erased := (List.perm_cons_erase foreign).count_eq other
  rw [List.count_cons] at erased
  simp only [places, threadBlocks, queued, ObjectPool.free, List.count_append, List.count_cons,
    List.count_nil]
  omega

end Steps

/-! ## Runs -/

variable {poolSize : Nat}

/-- A step of a session which represents an outbox. -/
theorem Represents.step {state next : SendingSession threadCount} {box : Outbox (Nat × Bytes)}
    {event : Event threadCount} (represents : state.Represents poolSize box)
    (sends : event.Sends) (taken : state.step event = some next) :
    ∃ box, next.Represents poolSize box := by
  cases event with
  | sendMsg thread message =>
      obtain ⟨outside, taken⟩ := Option.ite_none_right_eq_some.mp taken
      cases taken
      exact ⟨box, represents.sendMsg outside message⟩
  | copyMemory thread =>
      simp only [SendingSession.step] at taken
      cases stage : state.threads thread with
      | outside => simp [stage] at taken
      | allocated message pSendOvl =>
          simp only [stage] at taken
          exact ⟨box, represents.copyMemory stage taken⟩
      | copied message pSendOvl => simp [stage] at taken
  | push thread wsaSend =>
      cases (show wsaSend = true from sends)
      simp only [SendingSession.step] at taken
      split at taken
      · cases taken
        rename_i message pSendOvl copied unlocked
        exact ⟨_, represents.push copied unlocked⟩
      · cases taken
  | completion block dwIoSize =>
      obtain ⟨outstanding, taken⟩ := Option.ite_none_right_eq_some.mp taken
      exact ⟨box, represents.completion outstanding taken⟩
  | sendComplete =>
      obtain ⟨⟨completing, unlocked⟩, taken⟩ := Option.ite_none_right_eq_some.mp taken
      exact ⟨box, represents.sendComplete completing unlocked taken⟩
  | pop wsaSend =>
      cases (show wsaSend = true from sends)
      obtain ⟨locked, taken⟩ := Option.ite_none_right_eq_some.mp taken
      cases taken
      have some : box.pending ≠ [] := by
        intro settled
        have single := represents.single
        rw [locked, if_pos settled, Bool.toNat_true] at single
        omega
      exact ⟨_, represents.pop locked some⟩
  | otherAlloc =>
      obtain ⟨⟨block, pool⟩, alloc, rfl⟩ := Option.map_eq_some_iff.mp taken
      exact ⟨box, represents.otherAlloc alloc⟩
  | otherWrite block contents length =>
      obtain ⟨foreign, taken⟩ := Option.ite_none_right_eq_some.mp taken
      cases taken
      obtain ⟨unqueued, apart⟩ := represents.foreign_block foreign
      refine ⟨box, represents.write unqueued (fun thread message copied => ?_) contents length⟩
      exact apart thread (by rw [copied]; rfl)
  | otherFree block =>
      obtain ⟨foreign, taken⟩ := Option.ite_none_right_eq_some.mp taken
      cases taken
      exact ⟨box, represents.otherFree foreign⟩

theorem start_represents (threadCount poolSize : Nat) (mGeneration : UInt32) :
    (start threadCount poolSize mGeneration).Represents poolSize Outbox.empty where
  accepted := rfl
  queue := rfl
  passed := rfl
  returned := rfl
  single := rfl
  front := fun _ member => absurd member List.not_mem_nil
  contents := fun _ member => absurd member List.not_mem_nil
  copied := fun _ _ _ stage => nomatch stage
  places := by
    have none : (start threadCount poolSize mGeneration).threadBlocks = [] :=
      List.filterMap_eq_nil_iff.mpr fun _ _ => rfl
    rw [places, none]
    exact List.Perm.of_eq (List.append_nil _)

/-- At most one send is outstanding, the messages are passed in the order in which they were
accepted, and each block is returned in the same order.  When no completion is left, all of them
were passed and returned, and the session holds no block but those of the threads. -/
structure SendsInOrder (poolSize : Nat) (state : SendingSession threadCount) : Prop where
  single : state.outstanding.length ≤ 1
  passed : state.passed <+: state.accepted.map wsaBufOf
  returned : state.returned <+: state.accepted.map Prod.fst
  settled : state.outstanding = [] → state.completing = 0 → state.popping = false →
    state.passed = state.accepted.map wsaBufOf ∧
      state.returned = state.accepted.map Prod.fst ∧
      (state.pool.mFreeList ++ (state.threadBlocks ++ state.others)).Perm (List.range poolSize)

theorem Represents.sendsInOrder {state : SendingSession threadCount}
    {box : Outbox (Nat × Bytes)} (represents : state.Represents poolSize box) :
    state.SendsInOrder poolSize := by
  have single := represents.single
  refine ⟨?_, ?_, ?_, fun outstanding completing unlocked => ?_⟩
  · split at single
    · omega
    · omega
  · rw [represents.passed, represents.accepted]
    exact Outbox.issued_prefix.map _
  · rw [represents.returned, represents.accepted]
    split
    · exact Outbox.issued_prefix.map _
    · exact Outbox.done_prefix.map _
  · have settled : box.pending = [] := by
      by_contra some
      simp [outstanding, completing, unlocked, some] at single
    have places := represents.places
    rw [SendingSession.places, represents.queued_eq, unreturned, unlocked,
      if_neg Bool.false_ne_true, settled] at places
    refine ⟨?_, ?_, places⟩
    · rw [represents.passed, represents.accepted, Outbox.issued_of_settled settled]
    · rw [represents.returned, represents.accepted, unlocked, if_neg Bool.false_ne_true,
        Outbox.done_of_settled settled]

/-- While every `WSASend` succeeds, the messages of a first connection are sent in order. -/
theorem always_sendsInOrder (threadCount poolSize : Nat) (mGeneration : UInt32)
    (events : List (Event threadCount)) (sends : ∀ event ∈ events, event.Sends) :
    Execution.Always step (SendsInOrder poolSize) (start threadCount poolSize mGeneration)
      events := by
  have preserved (state : SendingSession threadCount) (event : Event threadCount)
      (next : SendingSession threadCount) (good : ∃ box, state.Represents poolSize box)
      (sends : event.Sends) (taken : state.step event = some next) :
      ∃ box, next.Represents poolSize box := by
    obtain ⟨box, represents⟩ := good
    exact represents.step sends taken
  have always := Execution.always_of_throughout preserved
    ⟨_, start_represents threadCount poolSize mGeneration⟩
    (Execution.throughout_of_forall sends _)
  exact always.mono fun state ⟨_, represents⟩ => represents.sendsInOrder

/-- Two threads send a message each; the second is queued behind the first. -/
def twoMessages : List (Event 2) :=
  [.sendMsg 0 [1, 2], .sendMsg 1 [3], .copyMemory 1, .copyMemory 0, .push 1 true, .push 0 true,
    .completion 0 1, .sendComplete, .pop true, .completion 1 2, .sendComplete, .pop true]

theorem twoMessages_sendsInOrder :
    Execution.Always step (SendsInOrder 2) (start 2 2 1) twoMessages ∧
      (Execution.run? step (start 2 2 1) twoMessages).map
          (fun last => (last.passed, last.returned)) =
        some ([([3], 1), ([1, 2], 2)], [0, 1]) :=
  ⟨always_sendsInOrder 2 2 1 twoMessages (by decide), by decide⟩

end SendingSession

end IOCPChatServer

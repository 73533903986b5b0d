import IOCPChatServer.Packet

/-!
# Client sessions

`ClientSession.h` and `ObjectPool.h` over a small model of the kernel: the overlapped
operations which were issued and whose completions no worker has dequeued.  What a
Winsock call answers is given by the caller, call by call.  A call on `INVALID_SOCKET`
fails whatever the answer.  The activity clock, the receive buffer's bytes and the
address printed by `AcceptCompletion` decide nothing here and are left out.
-/

namespace IOCPChatServer

/-- A socket handle; `none` is `INVALID_SOCKET`. -/
abbrev Socket := Nat

/-- The three kinds of return value of `CreateIoCompletionPort`. -/
inductive Handle where
  | null
  | invalidHandleValue
  | valid
  deriving DecidableEq, Repr

/-- The answers to the Winsock calls made while one event is processed, at most one
call of each.  For the overlapped calls success includes `ERROR_IO_PENDING`. -/
structure Winsock where
  setsockopt : Bool := true
  createIoCompletionPort : Handle := .valid
  wsaRecv : Bool := true
  wsaSend : Bool := true
  wsaSocket : Bool := true
  acceptEx : Bool := true
  deriving DecidableEq, Repr

/-- An overlapped operation whose completion has not been dequeued.  A send block is
given by its position in the pool. -/
inductive Operation (n : Nat) where
  | accept (session : Fin n)
  | recv (session : Fin n) (socket : Socket)
  | send (session : Fin n) (socket : Socket) (block : Nat)
  deriving DecidableEq, Repr

instance (n : Nat) : LawfulBEq (Operation n) := inferInstance

structure Kernel (n : Nat) where
  outstanding : List (Operation n) := []
  nextSocket : Socket := 0
  deriving DecidableEq

def Kernel.issue {n : Nat} (kernel : Kernel n) (operation : Operation n) : Kernel n :=
  { kernel with outstanding := kernel.outstanding ++ [operation] }

/-! ## ObjectPool.h -/

structure SendOverlappedEx where
  generation : UInt32 := 0
  buffer : Bytes := []
  deriving DecidableEq

structure ObjectPool where
  mAllBlocks : Nat → SendOverlappedEx := fun _ => {}
  mFreeList : List Nat := []

namespace ObjectPool

def init (poolSize : Nat) : ObjectPool where
  mFreeList := List.range poolSize

def alloc (pool : ObjectPool) : Option (Nat × ObjectPool) :=
  pool.mFreeList.getLast?.map fun block =>
    (block, { pool with mFreeList := pool.mFreeList.dropLast })

def free (pool : ObjectPool) (block : Nat) : ObjectPool :=
  { pool with mFreeList := pool.mFreeList ++ [block] }

def write (pool : ObjectPool) (block : Nat) (contents : SendOverlappedEx) : ObjectPool :=
  { pool with
    mAllBlocks := fun other => if other = block then contents else pool.mAllBlocks other }

end ObjectPool

/-! ## ClientSession.h -/

/-- `class ClientSession`; `Init` sets `mIndex` once, so it is a parameter.
`recvGeneration` is `m_stRecvOverlappedEx.generation`. -/
structure ClientSession (n : Nat) (mIndex : Fin n) where
  m_socketClient : Option Socket := none
  recvGeneration : UInt32 := 0
  mSendDataqueue : List Nat := []
  mIsConnected : Bool := false
  mGeneration : UInt32 := 0
  deriving DecidableEq

namespace ClientSession

variable {n : Nat} {mIndex : Fin n}

def closed (session : ClientSession n mIndex) : ClientSession n mIndex :=
  { session with
    mIsConnected := false
    m_socketClient := none }

def bindRecv (session : ClientSession n mIndex) (kernel : Kernel n) (calls : Winsock) :
    Bool × ClientSession n mIndex × Kernel n :=
  let tagged := { session with recvGeneration := session.mGeneration }
  match session.m_socketClient, calls.wsaRecv with
  | some socket, true => (true, tagged, kernel.issue (.recv mIndex socket))
  | _, _ => (false, tagged.closed, kernel)

/-- `CreateIoCompletionPort` reports failure by `NULL`, which is not what is tested. -/
def bindIOCompletionPort (calls : Winsock) : Bool :=
  calls.createIoCompletionPort ≠ .invalidHandleValue

def onConnect (session : ClientSession n mIndex) (kernel : Kernel n) (calls : Winsock) :
    Bool × ClientSession n mIndex × Kernel n :=
  let connected := { session with
    mIsConnected := true
    mGeneration := session.mGeneration + 1 }
  if bindIOCompletionPort calls then connected.bindRecv kernel calls
  else (false, connected, kernel)

def acceptCompletion (session : ClientSession n mIndex) (kernel : Kernel n) (calls : Winsock) :
    Bool × ClientSession n mIndex × Kernel n :=
  if session.m_socketClient = none ∨ calls.setsockopt = false then (false, session, kernel)
  else session.onConnect kernel calls

def postImmediateAccept (session : ClientSession n mIndex) (kernel : Kernel n) (calls : Winsock) :
    Bool × ClientSession n mIndex × Kernel n :=
  if calls.wsaSocket then
    let opened := { session with m_socketClient := some kernel.nextSocket }
    let kernel := { kernel with nextSocket := kernel.nextSocket + 1 }
    if calls.acceptEx then (true, opened, kernel.issue (.accept mIndex))
    else (false, opened, kernel)
  else (false, { session with m_socketClient := none }, kernel)

/-- `SendIO`: one `WSASend` for the front block. -/
def sendIO (session : ClientSession n mIndex) (kernel : Kernel n) (calls : Winsock) : Kernel n :=
  match session.mSendDataqueue, session.m_socketClient, calls.wsaSend with
  | block :: _, some socket, true => kernel.issue (.send mIndex socket block)
  | _, _, _ => kernel

def sendMsg (session : ClientSession n mIndex) (pool : ObjectPool) (kernel : Kernel n)
    (message : Bytes) (calls : Winsock) : Bool × ClientSession n mIndex × ObjectPool × Kernel n :=
  match pool.alloc with
  | none => (false, session, pool, kernel)
  | some (block, rest) =>
      let pool := rest.write block { generation := session.mGeneration, buffer := message }
      let queued := { session with mSendDataqueue := session.mSendDataqueue ++ [block] }
      (true, queued, pool,
        if queued.mSendDataqueue.length = 1 then queued.sendIO kernel calls else kernel)

/-- `SendComplete`; `front()` of an empty queue is undefined and has no result. -/
def sendComplete (session : ClientSession n mIndex) (pool : ObjectPool) (kernel : Kernel n)
    (calls : Winsock) : Option (ClientSession n mIndex × ObjectPool × Kernel n) :=
  match session.mSendDataqueue with
  | [] => none
  | block :: rest =>
      let popped := { session with mSendDataqueue := rest }
      some (popped, pool.free block,
        if rest.isEmpty then kernel else popped.sendIO kernel calls)

end ClientSession

end IOCPChatServer

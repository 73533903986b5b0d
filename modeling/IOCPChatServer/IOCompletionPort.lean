import IOCPChatServer.ClientSession
import Mathlib

/-!
# The completion port

`IOCP.h`: the accept loop of `StartServer`, `SendMsg`, and the body of `WorkerThread`
for one dequeued completion.  An event is one of these as a whole: one round of the accept
loop, one call of `SendMsg` with everything it does under and around `mSendLock`, or one
completion from its dequeuing to the end of its branch, with the calls of `CloseSocket`,
`AcceptCompletion` and `BindRecv` in it.  The events come in any order and any outstanding
operation may complete with any size, so a run is any sequence of completions, sends and
accepts, for any behaviour of clients and network, but it does not interleave two events:
what two threads do inside two calls at once is not described here.  The states are those
between events.  `SendMsg` in single steps, interleaved by any number of threads, is in
`Network.SendOrder`.

Shutdown is not modelled, nor is the timeout scan, whose calls are `SendMsg` and a
`shutdown` after which the kernel completes the session's operations.
-/

namespace IOCPChatServer

/-- A call of the virtual functions `OnConnect`, `OnClose` and `OnReceive`. -/
inductive Callback (n : Nat) where
  | onConnect (clientIndex : Fin n)
  | onClose (clientIndex : Fin n)
  | onReceive (clientIndex : Fin n) (data : Bytes)
  deriving DecidableEq, Repr

/-- `class IOCompletionPort` with the kernel, the calls it made of the virtual
functions, and the iterations which the accept loop of `StartServer` has left. -/
structure IOCompletionPort (n : Nat) where
  mClientInfos : (index : Fin n) → ClientSession n index
  mFreeSessionList : List (Fin n)
  mClientCnt : Int := 0
  mSendBufferPool : ObjectPool
  kernel : Kernel n := {}
  callbacks : List (Callback n) := []
  acceptLoop : Nat := 0

namespace IOCompletionPort

variable {n : Nat}

/-- `MAX_PENDING_ACCEPT`. -/
def maxPendingAccept : Nat := 100

/-- `CreateClient`, and the accept loop of `StartServer` before its first iteration.
The list is filled from the last index down, so that index 0 is popped first. -/
def startServer (n : Nat) : IOCompletionPort n where
  mClientInfos := fun _ => {}
  mFreeSessionList := (List.finRange n).reverse
  mSendBufferPool := ObjectPool.init (n * 4)
  acceptLoop := maxPendingAccept

/-- `GetClientInfo`. -/
def client (port : IOCompletionPort n) (index : Fin n) : ClientSession n index :=
  port.mClientInfos index

def setClient (port : IOCompletionPort n) (index : Fin n) (session : ClientSession n index) :
    IOCompletionPort n :=
  { port with mClientInfos := Function.update port.mClientInfos index session }

def setKernel (port : IOCompletionPort n) (kernel : Kernel n) : IOCompletionPort n :=
  { port with kernel := kernel }

def call (port : IOCompletionPort n) (callback : Callback n) : IOCompletionPort n :=
  { port with callbacks := port.callbacks ++ [callback] }

@[simp]
theorem client_setClient_self (port : IOCompletionPort n) (index : Fin n)
    (session : ClientSession n index) : (port.setClient index session).client index = session :=
  Function.update_self ..

theorem client_setClient_of_ne (port : IOCompletionPort n) {index other : Fin n}
    (session : ClientSession n index) (different : other ≠ index) :
    (port.setClient index session).client other = port.client other :=
  Function.update_of_ne different ..

@[simp]
theorem client_setKernel (port : IOCompletionPort n) (kernel : Kernel n) (index : Fin n) :
    (port.setKernel kernel).client index = port.client index := rfl

/-- `PopFreeSessionIndex`: the last index of the list, or none. -/
def popFreeSessionIndex (port : IOCompletionPort n) :
    Option (Fin n) × IOCompletionPort n :=
  (port.mFreeSessionList.getLast?,
    { port with mFreeSessionList := port.mFreeSessionList.dropLast })

def pushFreeSessionIndex (port : IOCompletionPort n) (index : Fin n) :
    IOCompletionPort n :=
  { port with mFreeSessionList := port.mFreeSessionList ++ [index] }

/-- `CloseSocket`: nothing happens to a session which is not connected. -/
def closeSocket (port : IOCompletionPort n) (index : Fin n) : IOCompletionPort n :=
  if (port.client index).mIsConnected = false then port
  else
    let closed := (port.setClient index (port.client index).closed).call (.onClose index)
    let returned := closed.pushFreeSessionIndex index
    { returned with mClientCnt := returned.mClientCnt - 1 }

/-- `PopFreeSessionIndex` and `PostImmediateAccept`, whose result nobody looks at. -/
def postNextAccept (port : IOCompletionPort n) (calls : Winsock) : IOCompletionPort n :=
  match port.popFreeSessionIndex with
  | (none, port) => port
  | (some index, port) =>
      let posted := (port.client index).postImmediateAccept port.kernel calls
      (port.setClient index posted.2.1).setKernel posted.2.2

/-- The `ACCEPT` branch of `WorkerThread`. -/
def completeAccept (port : IOCompletionPort n) (index : Fin n) (calls : Winsock) :
    IOCompletionPort n :=
  let accepted := (port.client index).acceptCompletion port.kernel calls
  let answered := (port.setClient index accepted.2.1).setKernel accepted.2.2
  let handled :=
    if accepted.1 then
      { answered with mClientCnt := answered.mClientCnt + 1 }.call (.onConnect index)
    else answered.closeSocket index
  handled.postNextAccept calls

/-- The `RECV` branch of `WorkerThread`. -/
def completeRecv (port : IOCompletionPort n) (index : Fin n) (data : Bytes)
    (calls : Winsock) : IOCompletionPort n :=
  if (port.client index).recvGeneration ≠ (port.client index).mGeneration then port
  else
    let received := port.call (.onReceive index data)
    let bound := (received.client index).bindRecv received.kernel calls
    (received.setClient index bound.2.1).setKernel bound.2.2

/-- The `SEND` branch of `WorkerThread`. -/
def completeSend (port : IOCompletionPort n) (index : Fin n) (block : Nat)
    (calls : Winsock) : Option (IOCompletionPort n) :=
  if (port.mSendBufferPool.mAllBlocks block).generation ≠ (port.client index).mGeneration
  then some { port with mSendBufferPool := port.mSendBufferPool.free block }
  else
    ((port.client index).sendComplete port.mSendBufferPool port.kernel calls).map fun sent =>
      { (port.setClient index sent.1).setKernel sent.2.2 with mSendBufferPool := sent.2.1 }

/-- `SendMsg`. -/
def sendMsg (port : IOCompletionPort n) (index : Fin n) (message : Bytes)
    (calls : Winsock) : IOCompletionPort n :=
  let sent := (port.client index).sendMsg port.mSendBufferPool port.kernel message calls
  { (port.setClient index sent.2.1).setKernel sent.2.2.2 with
    mSendBufferPool := sent.2.2.1 }

/-- What `WorkerThread` does with one dequeued completion. -/
def complete (port : IOCompletionPort n) (operation : Operation n) (dwIoSize : Nat)
    (recvBuff : Bytes) (calls : Winsock) : Option (IOCompletionPort n) :=
  match operation with
  | .accept index => some (port.completeAccept index calls)
  | .recv index _ =>
      if dwIoSize = 0 then some (port.closeSocket index)
      else some (port.completeRecv index (recvBuff.take dwIoSize) calls)
  | .send index _ block =>
      if dwIoSize = 0 then some (port.closeSocket index)
      else port.completeSend index block calls

/-- `GetQueuedCompletionStatusEx` hands out one completion. -/
def dequeue (port : IOCompletionPort n) (operation : Operation n) : IOCompletionPort n :=
  port.setKernel { port.kernel with
    outstanding := port.kernel.outstanding.erase operation }

/-- What can happen next. -/
inductive Event (n : Nat) where
  | acceptLoop (calls : Winsock)
  | sendMsg (index : Fin n) (message : Bytes) (calls : Winsock)
  | complete (operation : Operation n) (dwIoSize : Nat) (recvBuff : Bytes) (calls : Winsock)
  deriving DecidableEq, Repr

/-- One event; only an outstanding operation completes. -/
def step (port : IOCompletionPort n) : Event n → Option (IOCompletionPort n)
  | .acceptLoop calls =>
      match port.acceptLoop with
      | 0 => none
      | left + 1 => some ({ port with acceptLoop := left }.postNextAccept calls)
  | .sendMsg index message calls => some (port.sendMsg index message calls)
  | .complete operation dwIoSize recvBuff calls =>
      if operation ∈ port.kernel.outstanding then
        (port.dequeue operation).complete operation dwIoSize recvBuff calls
      else none

end IOCompletionPort

end IOCPChatServer

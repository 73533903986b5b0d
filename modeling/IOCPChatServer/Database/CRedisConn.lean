import IOCPChatServer.Database.RedisManager
import IOCPChatServer.Hiredis.Context

/-!
# The Redis workers' connection

`CRedisConn::get` over the blocking connection, and `TaskProcessThread` with it for the login
requests which one worker takes.  However the socket splits what is written and read, the
worker's verdicts are those of the values which the server keeps (`taskProcess_eq`).

`get` reads `reply->type` also when there is no reply, and `reply->str` also when the reply
has no text; a result `none` stands for these, as for the calls which do not return.
-/

namespace IOCPChatServer

open PrefixTree (Spelled)
open Hiredis

/-- `CRedisConn`.  `_redCtx` is `none` for a null pointer. -/
structure CRedisConn where
  _connected : Bool := false
  _redCtx : Option RedisContext := none

namespace CRedisConn

/-- What a call leaves behind. -/
structure Called (α : Type) where
  value : α
  conn : CRedisConn
  sends : List Sent
  recvs : List Received

/-- `reply->str` as a C string; `none` is a null pointer. -/
def str : RedisReply → Option Bytes
  | .leaf (.error str) => some str
  | .leaf (.status str) => some str
  | .leaf (.string str) => some str
  | .leaf (.double str) => some str
  | _ => none

/-- What `get` makes of its reply: whether it succeeds and the value, which is `none` when it
is not written. -/
def got : RedisReply → Option (Option Bytes)
  | .leaf (.error _) => some none
  | .leaf .nil => some none
  | reply => (str reply).map fun str => some (cString str)

/-- `get`. -/
def get (library : CLibrary) (conn : CRedisConn) (key : Bytes) (sends : List Sent)
    (recvs : List Received) : Option (Called (Option Bytes)) :=
  match conn._connected, conn._redCtx with
  | true, some context => do
      let returned ← context.redisvCommand library getFormat [.string key] sends recvs
      let reply ← returned.value
      let value ← got reply
      pure {
        value
        conn := { conn with _redCtx := some returned.context }
        sends := returned.sends
        recvs := returned.recvs }
  | _, _ => some ⟨none, conn, sends, recvs⟩

/-- The login requests which a worker takes, one after another: its responses. -/
def taskProcess {n : Nat} (library : CLibrary) :
    CRedisConn → List (RedisTask n) → List Sent → List Received →
      Option (Called (List (RedisTask n)))
  | conn, [], sends, recvs => some ⟨[], conn, sends, recvs⟩
  | conn, task :: later, sends, recvs => do
      let called ← conn.get library task.loginUserID sends recvs
      let response ← ChatServer.redisAnswer task called.value
      let rest ← taskProcess library called.conn later called.sends called.recvs
      pure { rest with value := response :: rest.value }

/-- Nothing waits on the connection. -/
structure Ready (conn : CRedisConn) (context : RedisContext) : Prop where
  connected : conn._connected = true
  redCtx : conn._redCtx = some context
  ready : context.Ready

/-- A key, the server's reply to it, and how the socket carries both. -/
structure Exchange (library : CLibrary) where
  key : Bytes
  reply : RedisReply
  value : Option Bytes
  letters : Bytes
  sends : List Sent
  recvs : List Received
  noNul : cString key = key
  short : (wire (getArgv key)).length < 2 ^ 31
  text : got reply = some value
  spelled : Spelled (Lexeme library) 0 reply letters
  fits : letters.length ≤ capacity
  flushes : RedisContext.Flushes (wire (getArgv key)) sends
  delivers : RedisContext.Delivers letters recvs

/-- One call of `get`. -/
theorem get_eq {library : CLibrary} (counts : library.CountsElements) {conn : CRedisConn}
    {context : RedisContext} (ready : conn.Ready context) (exchange : Exchange library)
    (moreSends : List Sent) (moreRecvs : List Received) :
    ∃ next nextContext, conn.get library exchange.key (exchange.sends ++ moreSends)
        (exchange.recvs ++ moreRecvs) = some ⟨exchange.value, next, moreSends, moreRecvs⟩ ∧
      next.Ready nextContext ∧
      nextContext.sent = context.sent ++ wire (getArgv exchange.key) := by
  obtain ⟨connected, redCtx⟩ := conn
  obtain ⟨isConnected, isContext, contextReady⟩ := ready
  dsimp only at isConnected isContext
  subst isConnected isContext
  obtain ⟨next, replied, nextReady, sent⟩ := RedisContext.redisGetReply_eq counts contextReady
    exchange.flushes exchange.delivers exchange.spelled exchange.fits moreSends moreRecvs
  refine ⟨{ _connected := true, _redCtx := some next }, next, ?_, ⟨rfl, rfl, nextReady⟩, sent⟩
  have counted : toInt (wire (getArgv exchange.key)).length =
      (wire (getArgv exchange.key)).length :=
    toInt_eq (Int.natCast_nonneg _) (by exact_mod_cast exchange.short)
  simp only [get, RedisContext.redisvCommand, redisvFormatCommand_get, exchange.noNul,
    Option.bind_eq_bind, Option.bind_some, counted, if_true, replied, exchange.text]
  rfl

/-- A login request and the exchange about its user. -/
structure LoginExchange (library : CLibrary) (n : Nat) extends Exchange library where
  task : RedisTask n
  login : task.IsLoginRequest
  named : key = task.loginUserID

/-- The response of a worker which was given the value of the exchange. -/
def LoginExchange.Answered {library : CLibrary} {n : Nat} (exchange : LoginExchange library n)
    (response : RedisTask n) : Prop :=
  (⟨0, exchange.task, fun _ => exchange.value, response⟩ : LoginAnswer 1 n).Corresponds

/-- The user `a` with the password `p`, whose value comes in two pieces. -/
def exampleExchange : LoginExchange .small 1 where
  key := text ['a']
  reply := stringReply (text ['p'])
  value := some (text ['p'])
  letters := text ['$', '1', '\r'] ++ text ['\n', 'p', '\r', '\n']
  sends := [.count 4, .count 100]
  recvs := [.data (text ['$', '1', '\r']), .interrupted, .data (text ['\n', 'p', '\r', '\n'])]
  noNul := rfl
  short := by decide
  text := rfl
  spelled := @spelled_bulk .small 0 (text ['p']) (by decide)
  fits := by decide
  flushes := .more (by decide) 4 (.more (by decide) 100 .done)
  delivers := .more (List.cons_ne_nil _ _) (.interrupted (.last (List.cons_ne_nil _ _)))
  task := {
    UserIndex := 0
    TaskID := .requestLogin
    pData := redisLoginReq (text ['a'] ++ List.replicate 32 0) (text ['p'] ++ List.replicate 32 0) }
  login := by decide
  named := rfl

end CRedisConn

end IOCPChatServer

import IOCPChatServer.Hiredis.Command

/-!
# A blocking connection to the Redis server

`redisContext` with `redisNetRead`, `redisNetWrite` of `net.c` and `redisBufferRead`,
`redisBufferWrite`, `redisGetReply`, `redisvCommand` of `hiredis.c`, for a context with
`REDIS_BLOCK`.  What the calls of `send` and `recv` return is an input.  A result `none`
stands for a call which never returns, or copies bytes from behind a buffer.
-/

namespace IOCPChatServer

namespace Hiredis

open PrefixTree (Spelled SpelledAll)
open Resumable (Reading)

/-- What a call of `send` returns. -/
inductive Sent where
  | count (nwritten : Nat)
  | interrupted
  | failed
  deriving DecidableEq, Repr

/-- What a call of `recv` returns. -/
inductive Received where
  | data (buf : Bytes)
  | interrupted
  | timedOut
  | closed
  | failed
  deriving DecidableEq, Repr

/-- `err` of a context. -/
inductive ContextError where
  | io
  | eof
  | timeout
  | protocol (error : ReaderError)
  | other
  deriving DecidableEq, Repr

/-- `redisContext`.  `sent` is what the server was sent, a history. -/
structure RedisContext where
  err : Option ContextError := none
  obuf : Bytes := []
  reader : RedisReader := {}
  sent : Bytes := []

namespace RedisContext

/-- `redisBufferWrite` with the result of `redisNetWrite`; the result tells `REDIS_OK`.  An
interrupted `send` is -1 for the caller, though no error is set. -/
def redisBufferWrite (context : RedisContext) : Sent → Bool × RedisContext
  | .count nwritten =>
      (true, { context with
        obuf := context.obuf.drop nwritten
        sent := context.sent ++ context.obuf.take nwritten })
  | .interrupted => (false, context)
  | .failed => (false, { context with err := some .io })

/-- The loop of `redisGetReply` which writes until the output buffer is empty. -/
def flush (context : RedisContext) (sends : List Sent) :
    Option (Bool × RedisContext × List Sent) :=
  if context.err.isSome then some (false, context, sends)
  else if context.obuf.isEmpty then some (true, context, sends)
  else
    match sends with
    | [] => none
    | result :: sends =>
        let written := context.redisBufferWrite result
        if written.1 then written.2.flush sends else some (false, written.2, sends)

/-- `redisBufferRead` with the result of `redisNetRead`; the result tells `REDIS_OK`. -/
def redisBufferRead (context : RedisContext) : Received → Bool × RedisContext
  | .data buf => (true, { context with reader := context.reader.redisReaderFeed buf })
  | .interrupted => (true, context)
  | .timedOut => (false, { context with err := some .timeout })
  | .closed => (false, { context with err := some .eof })
  | .failed => (false, { context with err := some .io })

/-- `redisGetReplyFromReader`; a first component `none` is `REDIS_ERR`. -/
def redisGetReplyFromReader (library : CLibrary) (context : RedisContext) :
    Option (Option (Option RedisReply) × RedisContext) :=
  (context.reader.redisReaderGetReply library).map fun (reply, reader) =>
    match reader.err with
    | some error => (none, { context with
        reader
        err := some (.protocol error) })
    | none => (some reply, { context with reader })

/-- The loop of `redisGetReply` which reads until there is a reply; `none` for the reply is
`REDIS_ERR`. -/
def awaitReply (library : CLibrary) (context : RedisContext) (recvs : List Received) :
    Option (Option RedisReply × RedisContext × List Received) :=
  if context.err.isSome then some (none, context, recvs)
  else
    match recvs with
    | [] => none
    | result :: recvs =>
        let fed := context.redisBufferRead result
        if fed.1 then
          match fed.2.redisGetReplyFromReader library with
          | none => none
          | some (none, context) => some (none, context, recvs)
          | some (some (some reply), context) => some (some reply, context, recvs)
          | some (some none, context) => context.awaitReply library recvs
        else some (none, fed.2, recvs)

/-- What comes back from a call which uses the socket. -/
structure Returned (α : Type) where
  value : α
  context : RedisContext
  sends : List Sent
  recvs : List Received

/-- `redisGetReply`; the reply is `none` for `REDIS_ERR`. -/
def redisGetReply (library : CLibrary) (context : RedisContext) (sends : List Sent)
    (recvs : List Received) : Option (Returned (Option RedisReply)) := do
  let (pending, context) ← context.redisGetReplyFromReader library
  match pending with
  | none => pure ⟨none, context, sends, recvs⟩
  | some (some reply) => pure ⟨some reply, context, sends, recvs⟩
  | some none =>
      let (done, context, sends) ← context.flush sends
      if done then
        let (reply, context, recvs) ← context.awaitReply library recvs
        pure ⟨reply, context, sends, recvs⟩
      else pure ⟨none, context, sends, recvs⟩

/-- `__redisAppendCommand`. -/
def redisAppendCommand (context : RedisContext) (cmd : Bytes) : RedisContext :=
  { context with obuf := context.obuf ++ cmd }

/-- `redisvCommand`; the reply is `none` for `NULL`. -/
def redisvCommand (library : CLibrary) (context : RedisContext) (format : Bytes)
    (ap : List VaArg) (sends : List Sent) (recvs : List Received) :
    Option (Returned (Option RedisReply)) := do
  let (cmd, len) ← redisvFormatCommand format ap
  if len = cmd.length then
    (context.redisAppendCommand cmd).redisGetReply library sends recvs
  else none

/-! ## One command, one reply -/

/-- The calls of `send` which write all bytes of the output buffer. -/
inductive Flushes : Bytes → List Sent → Prop where
  | done : Flushes [] []
  | more {obuf : Bytes} (some : obuf ≠ []) (nwritten : Nat) {sends : List Sent}
      (later : Flushes (obuf.drop nwritten) sends) : Flushes obuf (.count nwritten :: sends)

/-- The calls of `recv` which bring some bytes, the last of them with the last call. -/
inductive Delivers : Bytes → List Received → Prop where
  | last {buf : Bytes} (some : buf ≠ []) : Delivers buf [.data buf]
  | more {buf rest : Bytes} (some : buf ≠ []) {recvs : List Received}
      (later : Delivers rest recvs) : Delivers (buf ++ rest) (.data buf :: recvs)
  | interrupted {buf : Bytes} {recvs : List Received} (later : Delivers buf recvs) :
      Delivers buf (.interrupted :: recvs)

theorem Delivers.ne_nil {buf : Bytes} {recvs : List Received} (delivers : Delivers buf recvs) :
    buf ≠ [] := by
  induction delivers with
  | last some => exact some
  | more some later ih => exact List.append_ne_nil_of_left_ne_nil some _
  | interrupted later ih => exact ih

/-- The connection between two commands: everything was sent and every reply was taken. -/
structure Ready (context : RedisContext) : Prop where
  good : context.err = none
  flushed : context.obuf = []
  represents : Represents context.reader (.parsing [] none)
  nothing : context.reader.unread = []

theorem ready_init : Ready {} := ⟨rfl, rfl, represents_init, rfl⟩

theorem flush_eq {obuf : Bytes} {sends : List Sent} (flushes : Flushes obuf sends)
    (reader : RedisReader) (sent : Bytes) (more : List Sent) :
    ({ obuf, reader, sent } : RedisContext).flush (sends ++ more) =
      some (true, { reader, sent := sent ++ obuf }, more) := by
  induction flushes generalizing sent with
  | done =>
      rw [List.append_nil, List.nil_append]
      unfold flush
      rfl
  | more nonempty nwritten later ih =>
      have notEmpty := List.isEmpty_eq_false_iff.mpr nonempty
      unfold flush
      simp only [Option.isSome_none, Bool.false_eq_true, if_false, notEmpty, List.cons_append,
        redisBufferWrite, if_true]
      rw [ih, List.append_assoc, List.take_append_drop]

/-- Between two replies there is nothing to read. -/
theorem eq_nil_of_reading {library : CLibrary} (counts : library.CountsElements) {input : Bytes}
    (read : reading library (.parsing [] none) input = ⟨.parsing [] none, [], []⟩) :
    input = [] := by
  obtain ⟨items, letters, tail, spelling⟩ :=
    (exists_spelling counts _ input Mode.Sound.init).1 [] none rfl
  rw [read] at spelling
  obtain ⟨alone, behind⟩ := spelling.left [] none rfl
  have pushed := PrefixTree.pushAll_pending [] items
  rw [← spelling.outputs, ← alone] at pushed
  have none_pushed : items = [] := pushed
  subst none_pushed
  have input := spelling.input
  rw [behind, show letters = [] from spelling.spelled] at input
  exact input

/-- `redisGetReplyFromReader` by what the machine reads. -/
inductive ReaderCase (library : CLibrary) (context : RedisContext)
    (whole : Reading Mode UInt8 RedisReply) : Prop where
  | waits (reader : RedisReader) (stack : ReplyStack) (type : Option ReplyType)
      (took : context.redisGetReplyFromReader library = some (some none, { context with reader }))
      (represents : Represents reader (.parsing stack type))
      (same : whole = ⟨.parsing stack type, reader.unread, []⟩)
  | yields (reader : RedisReader) (reply : RedisReply)
      (took : context.redisGetReplyFromReader library =
        some (some (some reply), { context with reader }))
      (represents : Represents reader (.parsing [] none))
      (same : whole = { reading library (.parsing [] none) reader.unread with
        outputs := reply :: (reading library (.parsing [] none) reader.unread).outputs })

/-- Unless the parser fails or loses its way, there is a reply or it waits. -/
theorem readerCase_of_represents {library : CLibrary} (counts : library.CountsElements)
    (context : RedisContext) {mode : Mode} (represents : Represents context.reader mode)
    (fits : context.reader.unread.length ≤ capacity)
    (parses : ∃ stack type, (reading library mode context.reader.unread).state =
      .parsing stack type) :
    ReaderCase library context (reading library mode context.reader.unread) := by
  have outcome := replyCase_redisReaderGetReply counts represents fits
  obtain ⟨stack, type, parses⟩ := parses
  generalize reading library mode context.reader.unread = whole at outcome parses ⊢
  have took {result : Option (Option RedisReply × RedisReader)}
      (same : context.reader.redisReaderGetReply library = result) :
      context.redisGetReplyFromReader library = result.map fun (reply, reader) =>
        match reader.err with
        | some error => (none, { context with
            reader
            err := some (.protocol error) })
        | none => (some reply, { context with reader }) := by
    rw [redisGetReplyFromReader, same]
  generalize found : context.reader.redisReaderGetReply library = result at outcome
  cases outcome with
  | waits next represents same =>
      rw [parses] at represents same
      have good : next.err = none := by cases represents <;> assumption
      refine .waits next stack type ((took found).trans ?_) represents same
      simp only [Option.map_some, good]
  | overrun same =>
      rw [same] at parses
      cases parses
  | yields next reply represents shorter same =>
      have good : next.err = none := by cases represents <;> assumption
      refine .yields next reply ((took found).trans ?_) represents same
      simp only [Option.map_some, good]

/-- Nothing is left behind the last reply. -/
theorem last_reply {library : CLibrary} (counts : library.CountsElements) {rest : Bytes}
    {reply expected : RedisReply}
    (same : ({ reading library (.parsing [] none) rest with
        outputs := reply :: (reading library (.parsing [] none) rest).outputs } :
          Reading Mode UInt8 RedisReply) = ⟨.parsing [] none, [], [expected]⟩) :
    reply = expected ∧ rest = [] := by
  obtain ⟨state, left, outputs⟩ := Reading.mk.inj same
  obtain ⟨first, others⟩ := List.cons.inj outputs
  refine ⟨first, eq_nil_of_reading counts ?_⟩
  generalize reading library (.parsing [] none) rest = whole at state left others ⊢
  obtain ⟨_, _, _⟩ := whole
  dsimp only at state left others
  rw [state, left, others]

/-- The call which brings the end of the reply returns it, and no call before. -/
theorem awaitReply_eq {library : CLibrary} (counts : library.CountsElements) {buf : Bytes}
    {recvs : List Received} (delivers : Delivers buf recvs) {reader : RedisReader}
    {stack : ReplyStack} {type : Option ReplyType}
    (represents : Represents reader (.parsing stack type))
    (waits : reading library (.parsing stack type) reader.unread =
      ⟨.parsing stack type, reader.unread, []⟩)
    (fits : (reader.unread ++ buf).length ≤ capacity) {reply : RedisReply}
    (read : reading library (.parsing stack type) (reader.unread ++ buf) =
      ⟨.parsing [] none, [], [reply]⟩) (sent : Bytes) (more : List Received) :
    ∃ next, ({ reader, sent } : RedisContext).awaitReply library (recvs ++ more) =
        some (some reply, { reader := next, sent }, more) ∧
      Represents next (.parsing [] none) ∧ next.unread = [] := by
  induction delivers generalizing reader stack type with
  | @last buf nonempty =>
      obtain ⟨fed, unread⟩ := represents_feed represents buf
      rw [← unread] at fits read
      have outcome := readerCase_of_represents counts
        { reader := reader.redisReaderFeed buf, sent } fed fits ⟨[], none, by rw [read]⟩
      rw [read] at outcome
      cases outcome with
      | waits next stack type took represents same => cases (Reading.mk.inj same).2.2
      | yields next other took represents same =>
          obtain ⟨rfl, empty⟩ := last_reply counts same.symm
          refine ⟨next, ?_, represents, empty⟩
          rw [List.singleton_append]
          unfold awaitReply
          simp only [Option.isSome_none, Bool.false_eq_true, if_false, redisBufferRead, if_true,
            took]
  | @more buf rest nonempty recvs later ih =>
      obtain ⟨fed, unread⟩ := represents_feed represents buf
      rw [← List.append_assoc, ← unread] at fits read
      rw [reading_append] at read
      have front : (reader.redisReaderFeed buf).unread.length ≤ capacity :=
        (List.length_append ▸ Nat.le_add_right _ _ : _ ≤ _).trans fits
      -- the parser does not fail before the end of the reply
      have parses : ∃ stack' type', (reading library (.parsing stack type)
          (reader.redisReaderFeed buf).unread).state = .parsing stack' type' := by
        generalize reading library (.parsing stack type) _ = whole at read
        cases state : whole.state with
        | parsing stack type => exact ⟨stack, type, rfl⟩
        | failed error =>
            rw [state, reading_failed] at read
            cases (Reading.mk.inj read).1
        | overrun =>
            rw [state, reading_overrun] at read
            cases (Reading.mk.inj read).1
      have outcome := readerCase_of_represents counts
        { reader := reader.redisReaderFeed buf, sent } fed front parses
      have stops := reading_stops library (.parsing stack type) (reader.redisReaderFeed buf).unread
      have suffix : (reading library (.parsing stack type)
          (reader.redisReaderFeed buf).unread).rest.length ≤ _ :=
        ((lawful_next library).read_suffix _ _).length_le
      generalize reading library (.parsing stack type) _ = whole at read outcome stops suffix
      cases outcome with
      | waits next stack type took represents same =>
          subst same
          have shorter : (next.unread ++ rest).length ≤ capacity := by
            rw [List.length_append] at fits ⊢
            exact (Nat.add_le_add_right suffix _).trans fits
          obtain ⟨last, awaited, done⟩ := ih represents stops shorter read
          refine ⟨last, ?_, done⟩
          rw [List.cons_append]
          unfold awaitReply
          simp only [Option.isSome_none, Bool.false_eq_true, if_false, redisBufferRead, if_true,
            took]
          exact awaited
      | yields next other took represents same =>
          -- a reply before the end leaves nothing for the rest
          exfalso
          rw [same] at read
          obtain ⟨state, left, outputs⟩ := Reading.mk.inj read
          obtain ⟨_, others⟩ := List.cons.inj outputs
          have behind : reading library (.parsing [] none) (next.unread ++ rest) =
              ⟨.parsing [] none, [], []⟩ := by
            rw [reading_append]
            generalize reading library (.parsing [] none) next.unread = inner
              at state left others ⊢
            dsimp only [Reading.andThen] at state left others ⊢
            rw [state, left]
            exact congrArg (Reading.mk _ _) others
          have empty := eq_nil_of_reading counts behind
          exact later.ne_nil (List.append_eq_nil_iff.mp empty).2
  | @interrupted buf recvs later ih =>
      have fitsUnread : reader.unread.length ≤ capacity := by
        rw [List.length_append] at fits
        omega
      have outcome := readerCase_of_represents counts { reader, sent } represents fitsUnread
        ⟨stack, type, by rw [waits]⟩
      rw [waits] at outcome
      cases outcome with
      | yields next other took represents same => cases (Reading.mk.inj same).2.2
      | waits next stack type took represents same =>
          obtain ⟨mode, unread, _⟩ := Reading.mk.inj same
          rw [mode, unread] at waits read
          rw [unread] at fits
          obtain ⟨last, awaited, done⟩ := ih represents waits fits read
          refine ⟨last, ?_, done⟩
          rw [List.cons_append]
          unfold awaitReply
          simp only [Option.isSome_none, Bool.false_eq_true, if_false, redisBufferRead, if_true,
            took]
          exact awaited

/-- A command is sent and its reply is taken, however the socket splits them. -/
theorem redisGetReply_eq {library : CLibrary} (counts : library.CountsElements)
    {context : RedisContext} (ready : Ready context) {cmd : Bytes} {sends : List Sent}
    (flushes : Flushes cmd sends) {reply : RedisReply} {buf : Bytes} {recvs : List Received}
    (delivers : Delivers buf recvs) (spelled : Spelled (Lexeme library) 0 reply buf)
    (fits : buf.length ≤ capacity) (moreSends : List Sent) (moreRecvs : List Received) :
    ∃ next, (context.redisAppendCommand cmd).redisGetReply library (sends ++ moreSends)
        (recvs ++ moreRecvs) = some ⟨some reply, next, moreSends, moreRecvs⟩ ∧
      Ready next ∧ next.sent = context.sent ++ cmd := by
  obtain ⟨err, obuf, reader, sent⟩ := context
  obtain ⟨good, flushed, represents, nothing⟩ := ready
  dsimp only at good flushed represents nothing
  subst good flushed
  have blank := reading_nil library (.parsing [] none)
  have whole : reading library (.parsing [] none) buf = ⟨.parsing [] none, [], [reply]⟩ :=
    reading_spelledAll counts ⟨buf, [], (List.append_nil _).symm, spelled, rfl⟩
  have outcome := readerCase_of_represents counts { obuf := cmd, reader, sent } represents
    (by rw [nothing]; exact Nat.zero_le _) ⟨[], none, by rw [nothing, blank]⟩
  rw [nothing, blank] at outcome
  cases outcome with
  | yields next other took represents same => cases (Reading.mk.inj same).2.2
  | waits next stack type took represents same =>
      obtain ⟨mode, unread, _⟩ := Reading.mk.inj same
      cases mode
      obtain ⟨last, awaited, between, empty⟩ := awaitReply_eq counts delivers represents
        (by rw [← unread, blank]) (by rwa [← unread, List.nil_append])
        (by rwa [← unread, List.nil_append]) (sent ++ cmd) moreRecvs
      refine ⟨{ reader := last, sent := sent ++ cmd }, ?_, ⟨rfl, rfl, between, empty⟩, rfl⟩
      unfold redisGetReply
      rw [redisAppendCommand, List.nil_append, took]
      simp only [Option.bind_eq_bind, Option.bind_some, flush_eq flushes, if_true, awaited]
      rfl

end RedisContext

end Hiredis

end IOCPChatServer

import IOCPChatServer.Hiredis.Numbers
import IOCPChatServer.Library.PrefixTree

/-!
# The reply parser of hiredis

`redisReader` of `hiredis/read.c` with the object functions of `hiredis.c`.  The buffer grows
by `redisReaderFeed`; `redisReaderGetReply` parses what is there and keeps the tasks which
wait for more.  A list holds the tasks up to `ridx`, the current one first; `obj` has the
elements which are already there, and an aggregate reaches its parent's `element[idx]` when
it is finished.  `size_t` and pointers have 64 bits, `unsigned long` and `int` have 32.

What the parser asks of the C library is a parameter.  A result `none` stands for a copy of
bytes which are not in the buffer.
-/

namespace IOCPChatServer

namespace Hiredis

/-- The aggregate types of `REDIS_REPLY_*`. -/
inductive AggregateType where
  | array
  | map
  | set
  deriving DecidableEq, Repr

/-- The types which `processItem` assigns. -/
inductive ReplyType where
  | error
  | status
  | integer
  | double
  | nil
  | bool
  | string
  | aggregate (type : AggregateType)
  deriving DecidableEq, Repr

/-- A `redisReply` without elements.  `dval` is left out. -/
inductive ScalarReply where
  | error (str : Bytes)
  | status (str : Bytes)
  | string (str : Bytes)
  | integer (integer : Int)
  | double (str : Bytes)
  | nil
  | bool (integer : Bool)
  deriving DecidableEq, Repr

/-- `redisReply`. -/
abbrev RedisReply := PrefixTree ScalarReply AggregateType

/-- What the parser needs from the C library: whether `calloc` grants so many pointers, and
whether `strtod` reads the whole C string as a number. -/
structure CLibrary where
  calloc : Nat → Bool
  strtod : Bytes → Bool

/-- The errors of the parser. -/
inductive ReaderError where
  | replyTypeByte (byte : UInt8)
  | badInteger
  | doubleTooLarge
  | badDouble
  | badBulkLength
  | bulkLengthOutOfRange
  | nestedTooDeep
  | badMultiBulkLength
  | multiBulkLengthOutOfRange
  | outOfMemory
  deriving DecidableEq, Repr

/-- `redisReadTask`; a type of -1 is `none`, and the parent is the next task of the stack. -/
structure RedisReadTask where
  type : Option ReplyType := none
  elements : Int := -1
  idx : Int := -1
  obj : List RedisReply := []

/-- `redisReader`.  `len` is the length of `buf`. -/
structure RedisReader where
  err : Option ReaderError := none
  buf : Bytes := []
  pos : Nat := 0
  rstack : List RedisReadTask := []
  reply : Option RedisReply := none

namespace RedisReader

/-- The bytes which were not parsed. -/
def unread (reader : RedisReader) : Bytes := reader.buf.drop reader.pos

/-- `__redisReaderSetError`. -/
def setError (error : ReaderError) : RedisReader := { err := some error }

/-- `readLine`. -/
def readLine (reader : RedisReader) : Option (Bytes × RedisReader) :=
  (seekNewline reader.unread).map fun len =>
    (reader.unread.take len, { reader with pos := reader.pos + (len + 2) })

/-- The object of an aggregate. -/
def object (task : RedisReadTask) : RedisReply :=
  match task.type with
  | some (.aggregate type) => .node type task.obj
  | _ => .leaf .nil

/-- The object of the current task is stored in its parent, and `moveToNextTask` follows: the
reply if it was the last task, and the tasks which are left. -/
def moveToNextTask (obj : RedisReply) (cur : RedisReadTask) :
    List RedisReadTask → Option RedisReply × List RedisReadTask
  | [] => (some obj, [])
  | prv :: below =>
      let stored := { prv with obj := prv.obj ++ [obj] }
      if cur.idx = prv.elements - 1 then moveToNextTask (object stored) stored below
      else (none, { idx := cur.idx + 1 } :: stored :: below)

/-- An object was created for the current task. -/
def created (reader : RedisReader) (cur : RedisReadTask) (below : List RedisReadTask)
    (obj : RedisReply) : RedisReader :=
  let moved := moveToNextTask obj cur below
  { reader with
    rstack := moved.2
    reply := moved.1.or reader.reply }

/-- `strcasecmp` with a text in lower case. -/
def equalsLower (buf lower : Bytes) : Bool :=
  buf.map (fun byte => if 65 ≤ byte.toNat ∧ byte.toNat ≤ 90 then byte + 32 else byte) == lower

/-- The test of a double's text in `processLineItem`. -/
def isDouble (library : CLibrary) (line : Bytes) : Bool :=
  equalsLower (cString line) (text [',', 'i', 'n', 'f']) ||
    equalsLower (cString line) (text [',', '-', 'i', 'n', 'f']) || library.strtod (cString line)

/-- `sizeof(buf)` in `processLineItem`. -/
def doubleSize : Nat := 326

/-- The object of a line of the given type, or an error. -/
def lineObject (library : CLibrary) (type : ReplyType) (line : Bytes) :
    Except ReaderError ScalarReply :=
  match type with
  | .integer =>
      match string2ll line with
      | none => .error .badInteger
      | some v => .ok (.integer v)
  | .double =>
      if doubleSize ≤ line.length then .error .doubleTooLarge
      else if isDouble library line then .ok (.double line)
      else .error .badDouble
  | .nil => .ok .nil
  | .bool => .ok (.bool (line.head? == some 116 || line.head? == some 84))
  | .error => .ok (.error line)
  | _ => .ok (.status line)

/-- `processLineItem`; the result tells `REDIS_OK`. -/
def processLineItem (library : CLibrary) (reader : RedisReader) (type : ReplyType)
    (cur : RedisReadTask) (below : List RedisReadTask) : Bool × RedisReader :=
  match reader.readLine with
  | none => (false, reader)
  | some (line, after) =>
      match lineObject library type line with
      | .error error => (false, setError error)
      | .ok obj => (true, after.created cur below (.leaf obj))

/-- `processBulkItem`.  `bytelen` is an `unsigned long`. -/
def processBulkItem (reader : RedisReader) (cur : RedisReadTask) (below : List RedisReadTask) :
    Option (Bool × RedisReader) :=
  match seekNewline reader.unread with
  | none => some (false, reader)
  | some position =>
      match string2ll (reader.unread.take position) with
      | none => some (false, setError .badBulkLength)
      | some len =>
          if len < -1 then some (false, setError .bulkLengthOutOfRange)
          else if len = -1 then
            some (true, { reader with pos := reader.pos + (position + 2) }.created cur below
              (.leaf .nil))
          else
            let bytelen := (position + 2 + (len.toNat + 2)) % 2 ^ 32
            if reader.pos + bytelen ≤ reader.buf.length then
              let behind := reader.unread.drop (position + 2)
              if len.toNat ≤ behind.length then
                some (true, { reader with pos := reader.pos + bytelen }.created cur below
                  (.leaf (.string (behind.take len.toNat))))
              else none
            else some (false, reader)

/-- `processAggregateItem`.  `elements` of the task is an `int`. -/
def processAggregateItem (library : CLibrary) (reader : RedisReader) (type : AggregateType)
    (cur : RedisReadTask) (below : List RedisReadTask) : Bool × RedisReader :=
  if below.length = 8 then (false, setError .nestedTooDeep)
  else
    match reader.readLine with
    | none => (false, reader)
    | some (line, after) =>
        match string2ll line with
        | none => (false, setError .badMultiBulkLength)
        | some announced =>
            if announced < -1 then (false, setError .multiBulkLengthOutOfRange)
            else if announced = -1 then (true, after.created cur below (.leaf .nil))
            else
              let elements := if type = .map then announced.toNat * 2 else announced.toNat
              if 0 < elements then
                if library.calloc elements then
                  (true, { after with
                    rstack := { idx := 0 } ::
                      { cur with elements := toInt elements, obj := [] } :: below })
                else (false, setError .outOfMemory)
              else (true, after.created cur below (.node type []))

/-- The type byte of an item. -/
def replyType (byte : UInt8) : Option ReplyType :=
  [(UInt8.ofNat 45, ReplyType.error), (43, .status), (58, .integer), (44, .double), (95, .nil),
    (36, .string), (42, .aggregate .array), (37, .aggregate .map), (126, .aggregate .set),
    (35, .bool)].lookup byte

/-- The item of the current task, whose type is known. -/
def processTyped (library : CLibrary) (reader : RedisReader) (type : ReplyType)
    (cur : RedisReadTask) (below : List RedisReadTask) : Option (Bool × RedisReader) :=
  match type with
  | .string => reader.processBulkItem cur below
  | .aggregate type => some (reader.processAggregateItem library type cur below)
  | type => some (reader.processLineItem library type cur below)

/-- `processItem`. -/
def processItem (library : CLibrary) (reader : RedisReader) : Option (Bool × RedisReader) :=
  match reader.rstack with
  | [] => some (false, reader)
  | cur :: below =>
      match cur.type with
      | some type => reader.processTyped library type cur below
      | none =>
          match reader.unread with
          | [] => some (false, reader)
          | byte :: _ =>
              match replyType byte with
              | none => some (false, setError (.replyTypeByte byte))
              | some type =>
                  { reader with
                    pos := reader.pos + 1
                    rstack := { cur with type := some type } :: below }.processTyped library type
                    { cur with type := some type } below

/-- `redisReaderFeed`; nothing is fed to a reader in error. -/
def redisReaderFeed (reader : RedisReader) (buf : Bytes) : RedisReader :=
  if reader.err.isSome then reader else { reader with buf := reader.buf ++ buf }

/-- The loop of `redisReaderGetReply`; every item which is complete has a byte at least. -/
def processItems (library : CLibrary) : Nat → RedisReader → Option RedisReader
  | 0, reader => some reader
  | fuel + 1, reader =>
      if reader.rstack.isEmpty then some reader
      else
        match reader.processItem library with
        | none => none
        | some (true, next) => processItems library fuel next
        | some (false, next) => some next

/-- The consumed part of the buffer is discarded when there is enough of it. -/
def discard (reader : RedisReader) : RedisReader :=
  if 1024 ≤ reader.pos then { reader with buf := reader.unread, pos := 0 } else reader

/-- `redisReaderGetReply`; the reply is `none` for `NULL`, and an error is `err`. -/
def redisReaderGetReply (library : CLibrary) (reader : RedisReader) :
    Option (Option RedisReply × RedisReader) :=
  if reader.err.isSome || reader.buf.isEmpty then some (none, reader)
  else
    let begun := if reader.rstack.isEmpty then { reader with rstack := [{}] } else reader
    (begun.processItems library (begun.unread.length + 1)).map fun after =>
      if after.err.isSome then (none, after)
      else
        let discarded := after.discard
        if discarded.rstack.isEmpty then (discarded.reply, { discarded with reply := none })
        else (none, discarded)

/-! ## Use of the reader -/

/-- `redisReaderGetReply` until there is no reply. -/
def replies (library : CLibrary) : Nat → RedisReader → Option (List RedisReply × RedisReader)
  | 0, reader => some ([], reader)
  | fuel + 1, reader =>
      match reader.redisReaderGetReply library with
      | none => none
      | some (none, after) => some ([], after)
      | some (some reply, after) =>
          (replies library fuel after).map fun later => (reply :: later.1, later.2)

/-- The chunks are fed one after another, and after each all replies are taken. -/
def receive (library : CLibrary) :
    RedisReader → List Bytes → Option (List RedisReply × RedisReader)
  | reader, [] => some ([], reader)
  | reader, chunk :: later => do
      let fed := reader.redisReaderFeed chunk
      let now ← fed.replies library (fed.unread.length + 1)
      let rest ← receive library now.2 later
      pure (now.1 ++ rest.1, rest.2)

end RedisReader

end Hiredis

end IOCPChatServer

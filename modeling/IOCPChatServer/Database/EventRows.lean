import IOCPChatServer.Network.PacketLayout

/-!
# The event structures and their rows

A handler of the logic thread packs an event into a structure of `MySQLTaskDefine.h` and
copies the structure into the task.  A handler of `MysqlManager.h` casts the data of the
task back and binds the fields to the parameters of its `INSERT`.  A structure whose values
fit into its fields arrives in its table as the values which were packed.
-/

namespace IOCPChatServer

/-! ## Fields -/

/-- The four bytes of a `UINT32` field. -/
def u32Bytes (value : Nat) : Bytes := u16Bytes value ++ u16Bytes (value / 65536)

/-- The eight bytes of a `UINT64` field. -/
def u64Bytes (value : Nat) : Bytes := u32Bytes value ++ u32Bytes (value / 2 ^ 32)

/-- The four bytes of an `INT32` field. -/
def i32Bytes (value : Int) : Bytes := u32Bytes (value % 2 ^ 32).toNat

def u32 (bytes : Bytes) (offset : Nat) : Nat :=
  u16 bytes offset + 65536 * u16 bytes (offset + 2)

def u64 (bytes : Bytes) (offset : Nat) : Nat :=
  u32 bytes offset + 2 ^ 32 * u32 bytes (offset + 4)

/-- A field behind others is read at its offset. -/
theorem u16_behind (front rest : Bytes) (offset : Nat) :
    u16 (front ++ rest) (front.length + offset) = u16 rest offset := by
  have byte (position : Nat) :
      (front ++ rest).getD (front.length + position) 0 = rest.getD position 0 := by
    rw [List.getD_append_right _ _ _ _ (Nat.le_add_right _ _), Nat.add_sub_cancel_left]
  unfold u16
  rw [byte offset, Nat.add_assoc, byte (offset + 1)]

theorem u32_behind (front rest : Bytes) (offset : Nat) :
    u32 (front ++ rest) (front.length + offset) = u32 rest offset := by
  rw [u32, u16_behind, Nat.add_assoc, u16_behind, u32]

theorem u64_behind (front rest : Bytes) (offset : Nat) :
    u64 (front ++ rest) (front.length + offset) = u64 rest offset := by
  rw [u64, u32_behind, Nat.add_assoc, u32_behind, u64]

theorem i32_eq (bytes : Bytes) (offset : Nat) :
    i32 bytes offset =
      if u32 bytes offset < 2 ^ 31 then (u32 bytes offset : Int)
      else (u32 bytes offset : Int) - 2 ^ 32 := rfl

/-- A number is stored modulo the range of its field. -/
theorem u16_u16Bytes_mod (value : Nat) (rest : Bytes) :
    u16 (u16Bytes value ++ rest) 0 = value % 65536 := by
  simp only [u16, u16Bytes, List.cons_append, List.nil_append, List.getD_cons_zero,
    List.getD_cons_succ, Nat.zero_add, UInt8.toNat_ofNat']
  omega

theorem u32_u32Bytes (value : Nat) (rest : Bytes) :
    u32 (u32Bytes value ++ rest) 0 = value % 2 ^ 32 := by
  have low : u16 (u32Bytes value ++ rest) 0 = value % 65536 := by
    rw [u32Bytes, List.append_assoc]
    exact u16_u16Bytes_mod _ _
  have high : u16 (u32Bytes value ++ rest) 2 = value / 65536 % 65536 := by
    rw [u32Bytes, List.append_assoc]
    exact (u16_behind (u16Bytes value) _ 0).trans (u16_u16Bytes_mod _ _)
  rw [u32, low, high]
  omega

theorem u64_u64Bytes {value : Nat} (small : value < 2 ^ 64) (rest : Bytes) :
    u64 (u64Bytes value ++ rest) 0 = value := by
  have low : u32 (u64Bytes value ++ rest) 0 = value % 2 ^ 32 := by
    rw [u64Bytes, List.append_assoc]
    exact u32_u32Bytes _ _
  have high : u32 (u64Bytes value ++ rest) 4 = value / 2 ^ 32 % 2 ^ 32 := by
    rw [u64Bytes, List.append_assoc]
    exact (u32_behind (u32Bytes value) _ 0).trans (u32_u32Bytes _ _)
  rw [u64, low, high]
  omega

/-- A signed number is stored in two's complement. -/
theorem i32_i32Bytes {value : Int} (least : -2 ^ 31 ≤ value) (most : value < 2 ^ 31)
    (rest : Bytes) : i32 (i32Bytes value ++ rest) 0 = value := by
  have stored : u32 (i32Bytes value ++ rest) 0 = (value % 2 ^ 32).toNat := by
    rw [i32Bytes, u32_u32Bytes]
    omega
  rw [i32_eq, stored]
  split <;> omega

/-! ## Tasks -/

/-- `enum class MySQLTaskID` -/
inductive MySQLTaskID where
  | invalid
  | insertLoginEvent
  | insertRoomEvent
  | insertChatMessage
  deriving DecidableEq, Repr

/-- `enum class RoomEventType : UINT8` -/
def RoomEventType.code : RoomEventType → UInt8
  | .enter => 1
  | .leave => 2

/-- `struct MySQLTask` as it is in `mRequestTask`. -/
structure MySQLTaskData (n : Nat) where
  UserIndex : Fin n
  TaskID : MySQLTaskID
  DataSize : Nat
  pData : Bytes
  deriving DecidableEq

variable {n : Nat}

namespace MySQLTask

def userIndex : MySQLTask n → Fin n
  | .insertLoginEvent UserIndex _ => UserIndex
  | .insertRoomEvent UserIndex _ _ _ => UserIndex
  | .insertChatMessage UserIndex _ _ _ => UserIndex

def taskID : MySQLTask n → MySQLTaskID
  | .insertLoginEvent .. => .insertLoginEvent
  | .insertRoomEvent .. => .insertRoomEvent
  | .insertChatMessage .. => .insertChatMessage

/-- The `sizeof` of the structure of the task. -/
def dataSize : MySQLTask n → Nat
  | .insertLoginEvent .. => maxUserIDLength + 1 + 8
  | .insertRoomEvent .. => maxUserIDLength + 1 + 4 + 1 + 8
  | .insertChatMessage .. => maxUserIDLength + 1 + 4 + (maxChatMsg + 1) + 8

/-- `MySQLLoginEventReq`, `MySQLRoomEventReq` or `MySQLChatMsgReq`, stamped with the time. -/
def data (memory : PacketMemory) (TimeStampSec : UInt64) : MySQLTask n → Bytes
  | .insertLoginEvent _ UserID =>
      charArray (maxUserIDLength + 1) UserID memory.UserID ++ u64Bytes TimeStampSec.toNat
  | .insertRoomEvent _ UserID RoomNumber EventType =>
      charArray (maxUserIDLength + 1) UserID memory.UserID ++
        (i32Bytes RoomNumber ++ (EventType.code :: u64Bytes TimeStampSec.toNat))
  | .insertChatMessage _ UserID RoomNumber Message =>
      charArray (maxUserIDLength + 1) UserID memory.UserID ++
        (i32Bytes RoomNumber ++
          (charArray (maxChatMsg + 1) Message memory.Message ++ u64Bytes TimeStampSec.toNat))

/-- The task which a handler of the logic thread gives to `PushTask`. -/
def pack (memory : PacketMemory) (TimeStampSec : UInt64) (task : MySQLTask n) :
    MySQLTaskData n where
  UserIndex := task.userIndex
  TaskID := task.taskID
  DataSize := task.dataSize
  pData := task.data memory TimeStampSec

/-- The values of the task fit into the fields of its structure. -/
def Fits : MySQLTask n → Prop
  | .insertLoginEvent _ UserID => FitsInto (maxUserIDLength + 1) UserID
  | .insertRoomEvent _ UserID RoomNumber _ =>
      FitsInto (maxUserIDLength + 1) UserID ∧ -2 ^ 31 ≤ RoomNumber ∧ RoomNumber < 2 ^ 31
  | .insertChatMessage _ UserID RoomNumber Message =>
      FitsInto (maxUserIDLength + 1) UserID ∧ (-2 ^ 31 ≤ RoomNumber ∧ RoomNumber < 2 ^ 31) ∧
        FitsInto (maxChatMsg + 1) Message

end MySQLTask

/-! ## Rows -/

/-- A row of `login_events`, `room_events` or `chat_messages`, but for the number which
`AUTO_INCREMENT` gives it. -/
inductive EventRow where
  | loginEvent (userID : Bytes) (timestamp : Int)
  | roomEvent (userID : Bytes) (roomNumber event timestamp : Int)
  | chatMessage (userID : Bytes) (roomNumber : Int) (msg : Bytes) (timestamp : Int)
  deriving DecidableEq, Repr

/-- A string parameter: `strnlen` bytes of an array. -/
def stringParameter (pData : Bytes) (offset size : Nat) : Bytes :=
  cString ((pData.drop offset).take size)

/-- A parameter of the type `MYSQL_TYPE_LONGLONG`, which is signed. -/
def longlongParameter (value : Nat) : Int := (BitVec.ofNat 64 value).toInt

namespace MySQLTaskData

/-- The parameters of `HandleInsertLogin`. -/
def insertLogin (task : MySQLTaskData n) : EventRow :=
  let TimestampSec := u64 task.pData (maxUserIDLength + 1)
  .loginEvent (stringParameter task.pData 0 (maxUserIDLength + 1))
    (longlongParameter TimestampSec)

/-- The parameters of `HandleInsertRoom`. -/
def insertRoom (task : MySQLTaskData n) : EventRow :=
  let RoomNumber := i32 task.pData (maxUserIDLength + 1)
  let EventType := task.pData.getD (maxUserIDLength + 1 + 4) 0
  let TimeStampSec := u64 task.pData (maxUserIDLength + 1 + 4 + 1)
  .roomEvent (stringParameter task.pData 0 (maxUserIDLength + 1)) RoomNumber EventType.toNat
    (longlongParameter TimeStampSec)

/-- The parameters of `HandleInsertChat`. -/
def insertChat (task : MySQLTaskData n) : EventRow :=
  let RoomNumber := i32 task.pData (maxUserIDLength + 1)
  let TimeStampSec := u64 task.pData (maxUserIDLength + 1 + 4 + (maxChatMsg + 1))
  .chatMessage (stringParameter task.pData 0 (maxUserIDLength + 1)) RoomNumber
    (stringParameter task.pData (maxUserIDLength + 1 + 4) (maxChatMsg + 1))
    (longlongParameter TimeStampSec)

/-- The `switch` of `TaskProcessThread`. -/
def insertedRow (task : MySQLTaskData n) : Option EventRow :=
  match task.TaskID with
  | .insertLoginEvent => some task.insertLogin
  | .insertRoomEvent => some task.insertRoom
  | .insertChatMessage => some task.insertChat
  | .invalid => none

end MySQLTaskData

/-- The row which an event stands for. -/
def MySQLTask.row (TimeStampSec : UInt64) : MySQLTask n → EventRow
  | .insertLoginEvent _ UserID => .loginEvent UserID TimeStampSec.toInt64.toInt
  | .insertRoomEvent _ UserID RoomNumber EventType =>
      .roomEvent UserID RoomNumber EventType.code.toNat TimeStampSec.toInt64.toInt
  | .insertChatMessage _ UserID RoomNumber Message =>
      .chatMessage UserID RoomNumber Message TimeStampSec.toInt64.toInt

/-! ## The way into the tables -/

theorem stringParameter_charArray {size : Nat} {source : Bytes} (fits : FitsInto size source)
    (behind : Nat → UInt8) (front rest : Bytes) :
    stringParameter (front ++ (charArray size source behind ++ rest)) front.length size =
      source := by
  have read := cString_charArray fits behind []
  rw [List.append_nil] at read
  rw [stringParameter, List.drop_left, List.take_left' (length_charArray fits behind), read]

theorem longlongParameter_toNat (value : UInt64) :
    longlongParameter value.toNat = value.toInt64.toInt := by
  rw [longlongParameter, ← UInt64.toNat_toBitVec, BitVec.ofNat_toNat]
  rfl

theorem longlongParameter_u64 (front : Bytes) (value : UInt64) {offset : Nat}
    (behind : front.length = offset) :
    longlongParameter (u64 (front ++ u64Bytes value.toNat) offset) = value.toInt64.toInt := by
  have read := u64_u64Bytes value.toNat_lt []
  rw [List.append_nil] at read
  rw [← behind, ← Nat.add_zero front.length, u64_behind, read, longlongParameter_toNat]

theorem i32_field {front rest : Bytes} {value : Int} (least : -2 ^ 31 ≤ value)
    (most : value < 2 ^ 31) {offset : Nat} (behind : front.length = offset) :
    i32 (front ++ (i32Bytes value ++ rest)) offset = value := by
  have located : u32 (front ++ (i32Bytes value ++ rest)) front.length =
      u32 (i32Bytes value ++ rest) 0 := u32_behind front _ 0
  rw [← behind, i32_eq, located, ← i32_eq, i32_i32Bytes least most]

theorem length_i32Bytes (value : Int) : (i32Bytes value).length = 4 := rfl

theorem getD_field {front rest : Bytes} {byte : UInt8} {offset : Nat}
    (behind : front.length = offset) : (front ++ byte :: rest).getD offset 0 = byte := by
  rw [← behind, List.getD_append_right _ _ _ _ (Nat.le_refl _), Nat.sub_self,
    List.getD_cons_zero]

theorem length_u64Bytes (value : Nat) : (u64Bytes value).length = 8 := rfl

namespace MySQLTask

/-- The copied structure has the size of its type. -/
theorem length_data {task : MySQLTask n} (fits : task.Fits) (memory : PacketMemory)
    (TimeStampSec : UInt64) : (task.data memory TimeStampSec).length = task.dataSize := by
  cases task with
  | insertLoginEvent UserIndex UserID =>
      rw [data, List.length_append, length_charArray fits, length_u64Bytes, dataSize]
  | insertRoomEvent UserIndex UserID RoomNumber EventType =>
      rw [data, List.length_append, List.length_append, List.length_cons,
        length_charArray fits.1, length_i32Bytes, length_u64Bytes, dataSize]
  | insertChatMessage UserIndex UserID RoomNumber Message =>
      rw [data, List.length_append, List.length_append, List.length_append,
        length_charArray fits.1, length_charArray fits.2.2, length_i32Bytes, length_u64Bytes]
      rfl

/-- The fields of a `MySQLRoomEventReq` which fit. -/
theorem insertRoom_pack {UserIndex : Fin n} {UserID : Bytes} {RoomNumber : Int}
    {EventType : RoomEventType}
    (fits : (insertRoomEvent UserIndex UserID RoomNumber EventType).Fits)
    (memory : PacketMemory) (TimeStampSec : UInt64) :
    ((insertRoomEvent UserIndex UserID RoomNumber EventType).pack memory
      TimeStampSec).insertRoom =
        .roomEvent UserID RoomNumber EventType.code.toNat TimeStampSec.toInt64.toInt := by
  obtain ⟨short, least, most⟩ := fits
  have front := length_charArray short memory.UserID
  have behindRoom : (charArray (maxUserIDLength + 1) UserID memory.UserID ++
      i32Bytes RoomNumber).length = maxUserIDLength + 1 + 4 := by
    rw [List.length_append, front, length_i32Bytes]
  have behindEvent : (charArray (maxUserIDLength + 1) UserID memory.UserID ++
      i32Bytes RoomNumber ++ [EventType.code]).length = maxUserIDLength + 1 + 4 + 1 := by
    rw [List.length_append, behindRoom, List.length_singleton]
  have name := stringParameter_charArray short memory.UserID []
    (i32Bytes RoomNumber ++ (EventType.code :: u64Bytes TimeStampSec.toNat))
  have event := @getD_field _ (u64Bytes TimeStampSec.toNat) EventType.code _ behindRoom
  have time := longlongParameter_u64 _ TimeStampSec behindEvent
  simp only [List.append_assoc, List.singleton_append] at event time
  simp only [MySQLTaskData.insertRoom, pack, data]
  rw [i32_field least most front, event, time]
  exact congrArg (fun value => EventRow.roomEvent value _ _ _) name

/-- The fields of a `MySQLChatMsgReq` which fit. -/
theorem insertChat_pack {UserIndex : Fin n} {UserID Message : Bytes} {RoomNumber : Int}
    (fits : (insertChatMessage UserIndex UserID RoomNumber Message).Fits)
    (memory : PacketMemory) (TimeStampSec : UInt64) :
    ((insertChatMessage UserIndex UserID RoomNumber Message).pack memory
      TimeStampSec).insertChat =
        .chatMessage UserID RoomNumber Message TimeStampSec.toInt64.toInt := by
  obtain ⟨short, ⟨least, most⟩, shortMessage⟩ := fits
  have front := length_charArray short memory.UserID
  have behindRoom : (charArray (maxUserIDLength + 1) UserID memory.UserID ++
      i32Bytes RoomNumber).length = maxUserIDLength + 1 + 4 := by
    rw [List.length_append, front, length_i32Bytes]
  have behindMessage : (charArray (maxUserIDLength + 1) UserID memory.UserID ++
      i32Bytes RoomNumber ++ charArray (maxChatMsg + 1) Message memory.Message).length =
        maxUserIDLength + 1 + 4 + (maxChatMsg + 1) := by
    rw [List.length_append, behindRoom, length_charArray shortMessage]
  have name := stringParameter_charArray short memory.UserID []
    (i32Bytes RoomNumber ++ (charArray (maxChatMsg + 1) Message memory.Message ++
      u64Bytes TimeStampSec.toNat))
  have message := stringParameter_charArray shortMessage memory.Message
    (charArray (maxUserIDLength + 1) UserID memory.UserID ++ i32Bytes RoomNumber)
    (u64Bytes TimeStampSec.toNat)
  have time := longlongParameter_u64 _ TimeStampSec behindMessage
  rw [behindRoom] at message
  simp only [List.append_assoc] at message time
  simp only [MySQLTaskData.insertChat, pack, data]
  rw [i32_field least most front, message, time]
  exact congrArg (fun value => EventRow.chatMessage value _ _ _) name

/-- A task whose values fit is inserted as the event which it stands for. -/
theorem insertedRow_pack {task : MySQLTask n} (fits : task.Fits) (memory : PacketMemory)
    (TimeStampSec : UInt64) :
    (task.pack memory TimeStampSec).insertedRow = some (task.row TimeStampSec) := by
  cases task with
  | insertLoginEvent UserIndex UserID =>
      have name := stringParameter_charArray fits memory.UserID [] (u64Bytes TimeStampSec.toNat)
      have time := longlongParameter_u64 _ TimeStampSec (length_charArray fits memory.UserID)
      exact congrArg some (congrArg₂ EventRow.loginEvent name time)
  | insertRoomEvent UserIndex UserID RoomNumber EventType =>
      exact congrArg some (insertRoom_pack fits memory TimeStampSec)
  | insertChatMessage UserIndex UserID RoomNumber Message =>
      exact congrArg some (insertChat_pack fits memory TimeStampSec)

end MySQLTask

end IOCPChatServer

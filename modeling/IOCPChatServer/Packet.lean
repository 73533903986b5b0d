import Mathlib

/-!
# Packets, error codes and database tasks

The declarations of `Packet.h`, `ErrorCode.h`, `RedisTaskDefine.h` and
`MySQLTaskDefine.h` which the logic thread reads or writes.  Client packets stay
raw bytes, because the handlers cast the reassembly buffer to packed structures
and read NUL-terminated strings out of it.  Time stamps of the database tasks
come from the clock and no modelled function reads them; they are left out.
-/

namespace IOCPChatServer

abbrev Bytes := List UInt8

/-! ## Fields of packed structures -/

/-- A `UINT16` field at a byte offset, little endian. -/
def u16 (bytes : Bytes) (offset : Nat) : Nat :=
  (bytes.getD offset 0).toNat + 256 * (bytes.getD (offset + 1) 0).toNat

/-- The two bytes of a `UINT16` field. -/
def u16Bytes (value : Nat) : Bytes := [UInt8.ofNat value, UInt8.ofNat (value / 256)]

/-- An `INT32` field at a byte offset, little endian two's complement. -/
def i32 (bytes : Bytes) (offset : Nat) : Int :=
  let value := u16 bytes offset + 65536 * u16 bytes (offset + 2)
  if value < 2 ^ 31 then value else (value : Int) - 2 ^ 32

/-- The C string starting at the first byte: everything before the first NUL,
or to the end of the memory which is modelled. -/
def cString (bytes : Bytes) : Bytes := bytes.takeWhile (· != 0)

/-- Source text as the bytes of its (ASCII) characters. -/
def text (characters : List Char) : Bytes :=
  characters.map fun character => UInt8.ofNat character.toNat

/-- `strcpy_s`: the invalid-parameter handler ends the process when the source
with its NUL does not fit; `none` is the end of the process. -/
def strcpyS (size : Nat) (source : Bytes) : Option Bytes :=
  if source.length < size then some source else none

/-! ## Fields and strings inside other memory -/

theorem u16_take (bytes : Bytes) {offset count : Nat} (inside : offset + 1 < count) :
    u16 (bytes.take count) offset = u16 bytes offset := by
  unfold u16
  rw [List.getD_eq_getElem?_getD, List.getD_eq_getElem?_getD, List.getD_eq_getElem?_getD,
    List.getD_eq_getElem?_getD, List.getElem?_take_of_lt (by omega),
    List.getElem?_take_of_lt inside]

theorem cString_append_of_mem {own : Bytes} (terminated : 0 ∈ own) (stale : Bytes) :
    cString (own ++ stale) = cString own := by
  induction own with
  | nil => exact absurd terminated List.not_mem_nil
  | cons byte rest ih =>
      unfold cString at ih ⊢
      rw [List.cons_append, List.takeWhile_cons, List.takeWhile_cons]
      split
      · rename_i letter
        rcases List.mem_cons.mp terminated with rfl | later
        · exact absurd letter (by decide)
        · rw [ih later]
      · rfl

theorem cString_append_of_not_mem {own : Bytes} (unterminated : 0 ∉ own) (stale : Bytes) :
    cString (own ++ stale) = own ++ cString stale := by
  refine List.takeWhile_append_of_pos fun byte member => ?_
  exact bne_iff_ne.mpr fun zero => unterminated (zero ▸ member)

theorem cString_replicate_zero (count : Nat) : cString (List.replicate count 0) = [] := by
  unfold cString
  rw [List.takeWhile_replicate]
  rfl

theorem cString_replicate_one (count : Nat) :
    cString (List.replicate count 1) = List.replicate count 1 := by
  unfold cString
  rw [List.takeWhile_replicate]
  rfl

/-- A C string ends before the first NUL. -/
theorem length_cString_lt {bytes : Bytes} {size : Nat} (terminated : 0 ∈ bytes.take size) :
    (cString bytes).length < size := by
  induction bytes generalizing size with
  | nil => simp at terminated
  | cons byte rest ih =>
      cases size with
      | zero => simp at terminated
      | succ size =>
          rcases eq_or_ne byte 0 with rfl | other
          · simp [cString]
          · have later : 0 ∈ rest.take size := by
              rw [List.take_succ_cons] at terminated
              exact (List.mem_cons.mp terminated).resolve_left (Ne.symm other)
            have shorter := ih later
            simp only [cString] at shorter ⊢
            rw [List.takeWhile_cons_of_pos (by simpa using other), List.length_cons]
            omega

/-- It ends inside a part of the memory exactly when there is a NUL. -/
theorem length_cString_lt_iff {bytes : Bytes} {size : Nat} (inside : size ≤ bytes.length) :
    (cString bytes).length < size ↔ 0 ∈ bytes.take size := by
  refine ⟨fun short => ?_, length_cString_lt⟩
  by_contra unterminated
  have whole := cString_append_of_not_mem unterminated (bytes.drop size)
  rw [List.take_append_drop] at whole
  rw [whole, List.length_append, List.length_take_of_le inside] at short
  omega

theorem zero_notMem_cString (bytes : Bytes) : 0 ∉ cString bytes := fun member => by
  simpa using List.mem_takeWhile_imp member

theorem strcpyS_of_fits {size : Nat} {source : Bytes} (fits : source.length < size) :
    strcpyS size source = some source := if_pos fits

theorem strcpyS_length {size : Nat} {source copy : Bytes}
    (copied : strcpyS (size + 1) source = some copy) : source.length ≤ size := by
  obtain ⟨fits, _⟩ := Option.ite_none_right_eq_some.mp copied
  exact Nat.le_of_lt_succ fits

theorem strcpyS_eq {size : Nat} {source copy : Bytes} (copied : strcpyS size source = some copy) :
    copy = source :=
  (Option.some.inj (Option.ite_none_right_eq_some.mp copied).2).symm

/-! ## Packet.h -/

/-- `enum class PACKET_ID`. -/
inductive PacketId where
  | sysUserConnect
  | sysUserDisconnect
  | sysPing
  | sysPong
  | sysEnd
  | dbEnd
  | loginRequest
  | loginResponse
  | roomEnterRequest
  | roomEnterResponse
  | roomLeaveRequest
  | roomLeaveResponse
  | roomChatRequest
  | roomChatResponse
  | roomChatNotify
  deriving DecidableEq, Repr

def PacketId.code : PacketId → Nat
  | .sysUserConnect => 11
  | .sysUserDisconnect => 12
  | .sysPing => 21
  | .sysPong => 22
  | .sysEnd => 30
  | .dbEnd => 199
  | .loginRequest => 201
  | .loginResponse => 202
  | .roomEnterRequest => 206
  | .roomEnterResponse => 207
  | .roomLeaveRequest => 215
  | .roomLeaveResponse => 216
  | .roomChatRequest => 221
  | .roomChatResponse => 222
  | .roomChatNotify => 223

/-- `sizeof(PACKET_HEADER)`: `PacketLength`, `PacketId`, `PacketType`. -/
def packetHeaderLength : Nat := 5

def maxUserIDLength : Nat := 32
def maxUserPWLength : Nat := 32
def maxChatMsg : Nat := 256

/-- `sizeof(LOGIN_REQUEST_PACKET)`. -/
def loginRequestPacketSize : Nat :=
  packetHeaderLength + (maxUserIDLength + 1) + (maxUserPWLength + 1)

/-- `struct PacketInfo` as `User::GetPacket` fills it in: `pDataPtr` is given by
the memory it points to. -/
structure PacketInfo where
  PacketId : Nat := 0
  DataSize : Nat := 0
  pDataPtr : Bytes := []
  deriving DecidableEq, Repr

/-- The packets which the logic thread gives to `SendPacketFunc`. -/
inductive ServerPacket where
  | loginResponse (Result : Nat)
  | roomEnterResponse (Result : Nat)
  | roomLeaveResponse (Result : Nat)
  | roomChatResponse (Result : Nat)
  | roomChatNotify (UserID Message : Bytes)
  deriving DecidableEq, Repr

def ServerPacket.packetId : ServerPacket → PacketId
  | .loginResponse _ => .loginResponse
  | .roomEnterResponse _ => .roomEnterResponse
  | .roomLeaveResponse _ => .roomLeaveResponse
  | .roomChatResponse _ => .roomChatResponse
  | .roomChatNotify _ _ => .roomChatNotify

/-- The `PacketLength` field, which is also the size given to `SendPacketFunc`. -/
def ServerPacket.packetLength : ServerPacket → Nat
  | .roomChatNotify _ _ => packetHeaderLength + (maxUserIDLength + 1) + (maxChatMsg + 1)
  | _ => packetHeaderLength + 2

/-! ## ErrorCode.h -/

/-- `enum class ERROR_CODE`, the codes which the logic layer produces. -/
inductive ErrorCode where
  | none
  | loginUserAlready
  | loginUserUsedAllObj
  | loginUserInvalidPW
  | enterRoomInvalidUserStatus
  | enterRoomFullUser
  | roomInvalidIndex
  | chatRoomInvalidRoomNumber
  deriving DecidableEq, Repr

def ErrorCode.code : ErrorCode → Nat
  | .none => 0
  | .loginUserAlready => 31
  | .loginUserUsedAllObj => 32
  | .loginUserInvalidPW => 33
  | .enterRoomInvalidUserStatus => 52
  | .enterRoomFullUser => 54
  | .roomInvalidIndex => 61
  | .chatRoomInvalidRoomNumber => 81

/-! ## RedisTaskDefine.h and MySQLTaskDefine.h -/

/-- `enum class RedisTaskID`, the identifiers which are ever pushed. -/
inductive RedisTaskID where
  | invalid
  | requestLogin
  | responseLogin
  deriving DecidableEq, Repr

def RedisTaskID.code : RedisTaskID → Nat
  | .invalid => 0
  | .requestLogin => 1001
  | .responseLogin => 1002

/-- `struct RedisTask`; `UserIndex` is always the index of a user slot. -/
structure RedisTask (n : Nat) where
  UserIndex : Fin n
  TaskID : RedisTaskID
  pData : Bytes
  deriving DecidableEq, Repr

/-- `struct RedisLoginReq` in memory: `UserID` and `UserPW`, unterminated when the
client sent them so. -/
def redisLoginReq (pUserID pUserPW : Bytes) : Bytes :=
  pUserID.take (maxUserIDLength + 1) ++ pUserPW.take (maxUserPWLength + 1)

/-- `struct RedisLoginRes` in memory: `Result` and the NUL-terminated `UserID`. -/
def redisLoginRes (Result : Nat) (UserID : Bytes) : Bytes :=
  u16Bytes Result ++ UserID ++ List.replicate (maxUserIDLength + 1 - UserID.length) 0

inductive RoomEventType where
  | enter
  | leave
  deriving DecidableEq, Repr

/-- The tasks which the logic thread gives to `MySQLManager::PushTask`. -/
inductive MySQLTask (n : Nat) where
  | insertLoginEvent (UserIndex : Fin n) (UserID : Bytes)
  | insertRoomEvent (UserIndex : Fin n) (UserID : Bytes) (RoomNumber : Int)
      (EventType : RoomEventType)
  | insertChatMessage (UserIndex : Fin n) (UserID : Bytes) (RoomNumber : Int)
      (Message : Bytes)
  deriving DecidableEq, Repr

end IOCPChatServer

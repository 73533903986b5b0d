import IOCPChatServer.Network.SendOrder
import IOCPChatServer.User

/-!
# The packets on the wire

The packed structures which the handlers fill in and `SendMsg` copies.  `PacketType` is set
by `TimeoutCheckThread` only, and nothing is promised about the bytes behind the NUL of a
string, so both are taken from whatever the memory holds.
-/

namespace IOCPChatServer

/-- The bytes of a structure which its handler does not set. -/
structure PacketMemory where
  PacketType : UInt8 := 0
  UserID : Nat → UInt8 := fun _ => 0
  Message : Nat → UInt8 := fun _ => 0

/-- `struct PACKET_HEADER` -/
def packetHeader (PacketLength PacketId : Nat) (PacketType : UInt8) : Bytes :=
  u16Bytes PacketLength ++ u16Bytes PacketId ++ [PacketType]

/-- A `char` array after `strcpy_s`. -/
def charArray (size : Nat) (source : Bytes) (behind : Nat → UInt8) : Bytes :=
  source ++ 0 :: (List.range (size - (source.length + 1))).map behind

/-- The fields behind the header. -/
def ServerPacket.body (memory : PacketMemory) : ServerPacket → Bytes
  | .loginResponse Result => u16Bytes Result
  | .roomEnterResponse Result => u16Bytes Result
  | .roomLeaveResponse Result => u16Bytes Result
  | .roomChatResponse Result => u16Bytes Result
  | .roomChatNotify UserID Message =>
      charArray (maxUserIDLength + 1) UserID memory.UserID ++
        charArray (maxChatMsg + 1) Message memory.Message

/-- What `SendPacketFunc` is given for a packet. -/
def ServerPacket.bytes (memory : PacketMemory) (packet : ServerPacket) : Bytes :=
  packetHeader packet.packetLength packet.packetId.code memory.PacketType ++ packet.body memory

/-- `pingHeader` of `TimeoutCheckThread`. -/
def pingHeader : Bytes := packetHeader packetHeaderLength PacketId.sysPing.code 0

/-- A packet of the server as its structure in `Packet.h` reads it. -/
def readServerPacket (packet : Bytes) : Option ServerPacket :=
  let packetId := u16 packet 2
  let Result := u16 packet packetHeaderLength
  if packetId = PacketId.loginResponse.code then some (.loginResponse Result)
  else if packetId = PacketId.roomEnterResponse.code then some (.roomEnterResponse Result)
  else if packetId = PacketId.roomLeaveResponse.code then some (.roomLeaveResponse Result)
  else if packetId = PacketId.roomChatResponse.code then some (.roomChatResponse Result)
  else if packetId = PacketId.roomChatNotify.code then
    some (.roomChatNotify (cString (packet.drop packetHeaderLength))
      (cString (packet.drop (packetHeaderLength + (maxUserIDLength + 1)))))
  else none

/-- A C string which fits into an array with its NUL. -/
def FitsInto (size : Nat) (source : Bytes) : Prop := source.length < size ∧ 0 ∉ source

instance (size : Nat) (source : Bytes) : Decidable (FitsInto size source) :=
  inferInstanceAs (Decidable (_ ∧ _))

/-- The values of the fields fit into them. -/
def ServerPacket.Fits : ServerPacket → Prop
  | .loginResponse Result => Result < 65536
  | .roomEnterResponse Result => Result < 65536
  | .roomLeaveResponse Result => Result < 65536
  | .roomChatResponse Result => Result < 65536
  | .roomChatNotify UserID Message =>
      FitsInto (maxUserIDLength + 1) UserID ∧ FitsInto (maxChatMsg + 1) Message

instance (packet : ServerPacket) : Decidable packet.Fits := by
  cases packet <;> unfold ServerPacket.Fits <;> infer_instance

/-! ## Fields -/

theorem length_packetHeader (PacketLength PacketId : Nat) (PacketType : UInt8) :
    (packetHeader PacketLength PacketId PacketType).length = packetHeaderLength := rfl

theorem length_charArray {size : Nat} {source : Bytes} (fits : FitsInto size source)
    (behind : Nat → UInt8) : (charArray size source behind).length = size := by
  have shorter := fits.1
  simp only [charArray, List.length_append, List.length_cons, List.length_map, List.length_range]
  omega

/-- A string is read up to its NUL, whatever is behind it. -/
theorem cString_charArray {size : Nat} {source : Bytes} (fits : FitsInto size source)
    (behind : Nat → UInt8) (rest : Bytes) :
    cString (charArray size source behind ++ rest) = source := by
  rw [charArray, List.append_assoc, cString_append_of_not_mem fits.2]
  exact List.append_nil source

theorem u16_u16Bytes {value : Nat} (small : value < 65536) (rest : Bytes) :
    u16 (u16Bytes value ++ rest) 0 = value := by
  simp only [u16, u16Bytes, List.cons_append, List.nil_append, List.getD_cons_zero,
    List.getD_cons_succ, Nat.zero_add, UInt8.toNat_ofNat']
  omega

theorem u16_packetHeader_length {PacketLength : Nat} (small : PacketLength < 65536)
    (PacketId : Nat) (PacketType : UInt8) (rest : Bytes) :
    u16 (packetHeader PacketLength PacketId PacketType ++ rest) 0 = PacketLength := by
  rw [packetHeader, List.append_assoc, List.append_assoc]
  exact u16_u16Bytes small _

theorem u16_packetHeader_id {PacketId : Nat} (small : PacketId < 65536)
    (PacketLength : Nat) (PacketType : UInt8) (rest : Bytes) :
    u16 (packetHeader PacketLength PacketId PacketType ++ rest) 2 = PacketId :=
  u16_u16Bytes small ([PacketType] ++ rest)

/-! ## Packets -/

theorem ServerPacket.length_bytes {packet : ServerPacket} (fits : packet.Fits)
    (memory : PacketMemory) : (packet.bytes memory).length = packet.packetLength := by
  rw [bytes, List.length_append, length_packetHeader]
  cases packet with
  | roomChatNotify UserID Message =>
      rw [body, List.length_append, length_charArray fits.1, length_charArray fits.2]
      rfl
  | _ => rfl

/-- The structures fit into the buffer of a block. -/
theorem ServerPacket.packetLength_le (packet : ServerPacket) :
    packet.packetLength ≤ maxSockBuf := by
  cases packet <;> exact Nat.le_of_ble_eq_true rfl

theorem isFrame_packetHeader {PacketLength : Nat} {PacketId : Nat} {PacketType : UInt8}
    {body : Bytes} (small : PacketLength < 65536)
    (length : packetHeaderLength + body.length = PacketLength) :
    User.packetFormat.IsFrame (packetHeader PacketLength PacketId PacketType ++ body) := by
  constructor
  · rw [List.length_append, length_packetHeader]
    exact Nat.le_add_right _ _
  · change u16 ((packetHeader PacketLength PacketId PacketType ++ body).take
      packetHeaderLength) 0 = _
    rw [u16_take _ (by decide), u16_packetHeader_length small, List.length_append,
      length_packetHeader, length]

theorem ServerPacket.isFrame {packet : ServerPacket} (fits : packet.Fits)
    (memory : PacketMemory) : User.packetFormat.IsFrame (packet.bytes memory) := by
  have length := length_bytes fits memory
  have small : packet.packetLength < 65536 :=
    Nat.lt_of_le_of_lt packet.packetLength_le (by decide)
  rw [bytes, List.length_append, length_packetHeader] at length
  exact isFrame_packetHeader small length

theorem isFrame_pingHeader : User.packetFormat.IsFrame pingHeader := ⟨by decide, by decide⟩

/-- The fields of a packet are read back. -/
theorem ServerPacket.read_bytes {packet : ServerPacket} (fits : packet.Fits)
    (memory : PacketMemory) : readServerPacket (packet.bytes memory) = some packet := by
  have id : u16 (packet.bytes memory) 2 = packet.packetId.code :=
    u16_packetHeader_id (by cases packet <;> exact Nat.le_of_ble_eq_true rfl) _ _ _
  have result : u16 (packet.bytes memory) packetHeaderLength = u16 (packet.body memory) 0 := rfl
  have number {Result : Nat} (small : Result < 65536) : u16 (u16Bytes Result) 0 = Result := by
    have read := u16_u16Bytes small []
    rwa [List.append_nil] at read
  unfold readServerPacket
  dsimp only
  rw [id, result]
  cases packet with
  | loginResponse Result => exact congrArg (some ∘ ServerPacket.loginResponse) (number fits)
  | roomEnterResponse Result => exact congrArg (some ∘ ServerPacket.roomEnterResponse) (number fits)
  | roomLeaveResponse Result => exact congrArg (some ∘ ServerPacket.roomLeaveResponse) (number fits)
  | roomChatResponse Result => exact congrArg (some ∘ ServerPacket.roomChatResponse) (number fits)
  | roomChatNotify UserID Message =>
      obtain ⟨shortID, shortMessage⟩ := fits
      have userID := cString_charArray shortID memory.UserID
        (charArray (maxChatMsg + 1) Message memory.Message)
      have message := cString_charArray shortMessage memory.Message []
      have behind : (ServerPacket.bytes memory (.roomChatNotify UserID Message)).drop
          (packetHeaderLength + (maxUserIDLength + 1)) =
            charArray (maxChatMsg + 1) Message memory.Message := by
        rw [bytes, body, ← List.drop_drop,
          List.drop_left' (length_packetHeader _ _ _), List.drop_left' (length_charArray shortID _)]
      rw [List.append_nil] at message
      rw [behind, message]
      exact congrArg (fun value => some (ServerPacket.roomChatNotify value Message)) userID

end IOCPChatServer

import IOCPChatServer.Library.Framing
import IOCPChatServer.Packet
import IOCPChatServer.RingBuffer

/-!
# User slots

One `User` object is the slot of one client index.  It is never destroyed: a
later connection of the same index finds it as `Clear` left it, or as the earlier
connection left it when `Clear` was not called.
-/

namespace IOCPChatServer

/-- `User::DOMAIN_STATE`. -/
inductive DomainState where
  | none
  | login
  | room
  deriving DecidableEq, Repr

/-- `User::MAX_PACKET_DATA_BUFFER_SIZE`. -/
def maxPacketDataBufferSize : Nat := 8096

/--
`class User`.  The slot's own index `mIndex` is the argument of the function which
holds all slots.  `loginSinceClear` is a history variable: whether `SetLogin` ran
since the slot was initialised or last cleared; nothing reads it.
-/
structure User where
  mUserID : Bytes := []
  roomIndex : Int := -1
  mGeneration : UInt32 := 0
  mPacketDataBuffer : RingBuffer UInt8 maxPacketDataBufferSize
  mCurDomainState : DomainState := .none
  m_tempPacketBuffer : Bytes
  loginSinceClear : Bool := false

namespace User

/-- A new slot; the reassembly buffer is not initialised by the constructor. -/
def init (memory : Bytes) : User where
  mPacketDataBuffer := { buffer := fun _ => 0 }
  m_tempPacketBuffer := memory

def clear (user : User) : User :=
  { user with
    mUserID := []
    mCurDomainState := .none
    mPacketDataBuffer := user.mPacketDataBuffer.clear
    loginSinceClear := false }

def setLogin (user : User) (userID : Bytes) : User :=
  { user with
    mCurDomainState := .login
    mUserID := userID
    loginSinceClear := true }

def setDomainState (user : User) (value : DomainState) : User :=
  { user with mCurDomainState := value }

def enterRoom (user : User) (roomIndex : Int) : User :=
  { user with
    roomIndex := roomIndex
    mCurDomainState := .room }

def incrementGeneration (user : User) : User :=
  { user with mGeneration := user.mGeneration + 1 }

/-- `SetPacketData`: what does not fit is dropped. -/
def setPacketData (user : User) (data : Bytes) : User :=
  { user with mPacketDataBuffer := (user.mPacketDataBuffer.write data).2 }

/-- The loop of `GetPacket` which peeks the header byte by byte. -/
def peekHeader (user : User) : Option Bytes :=
  (List.range packetHeaderLength).mapM user.mPacketDataBuffer.peek

/-- `GetPacket`: `PacketId = 0` stands for "no packet". -/
def getPacket (user : User) : PacketInfo × User :=
  if user.mPacketDataBuffer.size < packetHeaderLength then ({}, user)
  else
    match user.peekHeader with
    | none => ({}, user)
    | some header =>
        let packetLength := u16 header 0
        let packetId := u16 header 2
        if user.mPacketDataBuffer.size < packetLength then ({}, user)
        else
          let output := user.mPacketDataBuffer.read packetLength
          let after := { user with
            mPacketDataBuffer := output.2
            m_tempPacketBuffer :=
              output.1 ++ user.m_tempPacketBuffer.drop output.1.length }
          if output.1.length ≠ packetLength then ({}, after)
          else
            ({ PacketId := packetId
               DataSize := packetLength
               pDataPtr := after.m_tempPacketBuffer }, after)

theorem getPacket_mGeneration (user : User) :
    user.getPacket.2.mGeneration = user.mGeneration := by
  unfold getPacket
  split
  · rfl
  · split
    · rfl
    · dsimp only
      split
      · rfl
      · split <;> rfl

/-! ## What the packet functions do to the queued bytes -/

/-- The bytes which wait in the reassembly buffer, oldest first. -/
def bytes (user : User) : Bytes := user.mPacketDataBuffer.contents

@[simp]
theorem bytes_clear (user : User) : user.clear.bytes = [] := RingBuffer.contents_clear _

/-- `PACKET_HEADER`, whose `PacketLength` counts the header too. -/
def packetFormat : FrameFormat UInt8 where
  header := packetHeaderLength
  length := fun header => u16 header 0

theorem bytes_setPacketData {user : User} (valid : user.mPacketDataBuffer.Valid)
    (data : Bytes) :
    (user.setPacketData data).bytes =
      user.bytes ++ data.take (maxPacketDataBufferSize - user.bytes.length) := by
  unfold bytes
  rw [RingBuffer.length_contents]
  exact RingBuffer.contents_write valid data

theorem valid_setPacketData {user : User} (valid : user.mPacketDataBuffer.Valid)
    (data : Bytes) : (user.setPacketData data).mPacketDataBuffer.Valid :=
  valid.write data

/-- The header which `GetPacket` peeks is the front of the queued bytes. -/
theorem peekHeader_eq {user : User} (valid : user.mPacketDataBuffer.Valid)
    (enough : packetHeaderLength ≤ user.bytes.length) :
    user.peekHeader = some (user.bytes.take packetHeaderLength) := by
  have peek (offset : Nat) : user.mPacketDataBuffer.peek offset = user.bytes[offset]? :=
    RingBuffer.peek_eq valid offset
  have positions : List.range packetHeaderLength = [0, 1, 2, 3, 4] := rfl
  unfold peekHeader
  simp only [positions, List.mapM_cons, List.mapM_nil, peek]
  generalize user.bytes = queued at enough
  match queued, enough with
  | a :: b :: c :: d :: e :: rest, _ => rfl

/-- Once a header is there, `GetPacket` decides by its `PacketLength`. -/
theorem getPacket_of_header {user : User} (valid : user.mPacketDataBuffer.Valid)
    (enough : packetHeaderLength ≤ user.bytes.length) :
    user.getPacket =
      if user.bytes.length < u16 (user.bytes.take packetHeaderLength) 0 then ({}, user)
      else
        let packet := user.bytes.take (u16 (user.bytes.take packetHeaderLength) 0)
        let buffer := packet ++ user.m_tempPacketBuffer.drop packet.length
        ({ PacketId := u16 (user.bytes.take packetHeaderLength) 2
           DataSize := packet.length
           pDataPtr := buffer },
          { user with
            mPacketDataBuffer := (user.mPacketDataBuffer.read packet.length).2
            m_tempPacketBuffer := buffer }) := by
  have size : user.mPacketDataBuffer.size = user.bytes.length :=
    (RingBuffer.length_contents _).symm
  have header := peekHeader_eq valid enough
  unfold getPacket
  rw [size, if_neg (Nat.not_lt.mpr enough), header]
  dsimp only
  split
  · rfl
  · rename_i whole
    have output : (user.mPacketDataBuffer.read
        (u16 (user.bytes.take packetHeaderLength) 0)).1 =
          user.bytes.take (u16 (user.bytes.take packetHeaderLength) 0) :=
      RingBuffer.read_value valid _
    have length : (user.bytes.take (u16 (user.bytes.take packetHeaderLength) 0)).length =
        u16 (user.bytes.take packetHeaderLength) 0 :=
      List.length_take_of_le (Nat.not_lt.mp whole)
    rw [output, length, if_neg (fun different => different rfl)]

/-- `GetPacket` returns nothing, and changes nothing, until a packet is complete. -/
theorem getPacket_of_none {user : User} (valid : user.mPacketDataBuffer.Valid)
    (nothing : packetFormat.next? user.bytes = none) : user.getPacket = ({}, user) := by
  unfold FrameFormat.next? at nothing
  split at nothing
  · rename_i short
    have size : user.mPacketDataBuffer.size < packetHeaderLength := by
      rw [← RingBuffer.length_contents]
      exact short
    unfold getPacket
    rw [if_pos size]
  · rename_i enough
    rw [getPacket_of_header valid (Nat.not_lt.mp enough)]
    dsimp only at nothing
    split at nothing
    · rename_i part
      exact if_pos part
    · cases nothing

/-- `GetPacket` takes the first complete packet off the queued bytes. -/
theorem getPacket_of_some {user : User} (valid : user.mPacketDataBuffer.Valid)
    {packet rest : Bytes} (next : packetFormat.next? user.bytes = some (packet, rest)) :
    user.getPacket =
      ({ PacketId := u16 (user.bytes.take packetHeaderLength) 2
         DataSize := packet.length
         pDataPtr := packet ++ user.m_tempPacketBuffer.drop packet.length },
        { user with
          mPacketDataBuffer := (user.mPacketDataBuffer.read packet.length).2
          m_tempPacketBuffer := packet ++ user.m_tempPacketBuffer.drop packet.length }) ∧
      (user.mPacketDataBuffer.read packet.length).2.contents = rest ∧
      user.bytes = packet ++ rest := by
  unfold FrameFormat.next? at next
  split at next
  · cases next
  · rename_i enough
    rw [getPacket_of_header valid (Nat.not_lt.mp enough)]
    dsimp only at next
    split at next
    · cases next
    · rename_i whole
      cases next
      have length : (user.bytes.take (packetFormat.length
          (user.bytes.take packetFormat.header))).length =
            packetFormat.length (user.bytes.take packetFormat.header) :=
        List.length_take_of_le (Nat.not_lt.mp whole)
      refine ⟨if_neg whole, ?_, (List.take_append_drop _ _).symm⟩
      rw [RingBuffer.contents_read valid, length]
      rfl

/-! ## Complete packets -/

/-- The bytes begin with a header and hold as many bytes as its `PacketLength` says. -/
def HoldsPacket (bytes : Bytes) : Prop :=
  packetHeaderLength ≤ bytes.length ∧ u16 bytes 0 ≤ bytes.length

instance (bytes : Bytes) : Decidable (HoldsPacket bytes) := inferInstanceAs (Decidable (_ ∧ _))

theorem next?_eq (bytes : Bytes) :
    packetFormat.next? bytes =
      if HoldsPacket bytes then some (bytes.take (u16 bytes 0), bytes.drop (u16 bytes 0))
      else none := by
  have announced : packetFormat.length (bytes.take packetFormat.header) = u16 bytes 0 :=
    u16_take bytes (by decide)
  unfold FrameFormat.next?
  rw [announced]
  by_cases short : bytes.length < packetFormat.header
  · have missing : ¬ HoldsPacket bytes := fun holds => absurd short (Nat.not_lt.mpr holds.1)
    rw [if_pos short, if_neg missing]
  · rw [if_neg short]
    by_cases part : bytes.length < u16 bytes 0
    · have missing : ¬ HoldsPacket bytes := fun holds => absurd part (Nat.not_lt.mpr holds.2)
      rw [if_neg missing]
      exact if_pos part
    · have holds : HoldsPacket bytes := ⟨Nat.not_lt.mp short, Nat.not_lt.mp part⟩
      rw [if_pos holds]
      exact if_neg part

theorem next?_of_holdsPacket {bytes : Bytes} (holds : HoldsPacket bytes) :
    packetFormat.next? bytes = some (bytes.take (u16 bytes 0), bytes.drop (u16 bytes 0)) := by
  rw [next?_eq, if_pos holds]

theorem next?_of_not_holdsPacket {bytes : Bytes} (nothing : ¬ HoldsPacket bytes) :
    packetFormat.next? bytes = none := by
  rw [next?_eq, if_neg nothing]

theorem valid_getPacket {user : User} (valid : user.mPacketDataBuffer.Valid) :
    user.getPacket.2.mPacketDataBuffer.Valid := by
  by_cases holds : HoldsPacket user.bytes
  · rw [(getPacket_of_some valid (next?_of_holdsPacket holds)).1]
    exact valid.read _
  · rw [getPacket_of_none valid (next?_of_not_holdsPacket holds)]
    exact valid

/-- `GetPacket` removes what the header announces, once all of it is there. -/
theorem bytes_getPacket {user : User} (valid : user.mPacketDataBuffer.Valid) :
    user.getPacket.2.bytes =
      if HoldsPacket user.bytes then user.bytes.drop (u16 user.bytes 0) else user.bytes := by
  split
  · rename_i holds
    obtain ⟨got, left, _⟩ := getPacket_of_some valid (next?_of_holdsPacket holds)
    rw [got]
    exact left
  · rename_i missing
    rw [getPacket_of_none valid (next?_of_not_holdsPacket missing)]

/-- `PacketId` is that of the header. -/
theorem packetId_getPacket {user : User} (valid : user.mPacketDataBuffer.Valid) :
    user.getPacket.1.PacketId = if HoldsPacket user.bytes then u16 user.bytes 2 else 0 := by
  split
  · rename_i holds
    rw [(getPacket_of_some valid (next?_of_holdsPacket holds)).1]
    exact u16_take user.bytes (by decide)
  · rename_i missing
    rw [getPacket_of_none valid (next?_of_not_holdsPacket missing)]

end User

end IOCPChatServer

import IOCPChatServer.Library.Execution
import IOCPChatServer.Library.LossyFraming
import IOCPChatServer.User

/-!
# The intake of one connection

`SetPacketData` and `GetPacket` of one slot in any order, from the state in which `Clear`
leaves it.  A chunk which finds too little room in the ring loses its end.

`received` is what `SetPacketData` was given so far, `kept` the position in it after the last
byte which was written, `returned` the packets which `GetPacket` returned.  They are
histories.
-/

namespace IOCPChatServer

structure Intake where
  user : User
  received : Bytes := []
  kept : Nat := 0
  returned : List Bytes := []

namespace Intake

/-- A connection begins. -/
def start (user : User) : Intake where
  user := user.clear

inductive Event where
  | setPacketData (data : Bytes)
  | getPacket
  deriving DecidableEq

def setPacketData (intake : Intake) (data : Bytes) : Intake :=
  let written := (intake.user.mPacketDataBuffer.write data).1
  { intake with
    user := intake.user.setPacketData data
    received := intake.received ++ data
    kept := if written = 0 then intake.kept else intake.received.length + written }

/-- `PacketId = 0` is no packet. -/
def getPacket (intake : Intake) : Intake :=
  let packet := intake.user.getPacket.1
  { intake with
    user := intake.user.getPacket.2
    returned :=
      if packet.PacketId = 0 then intake.returned
      else intake.returned ++ [packet.pDataPtr.take packet.DataSize] }

def next (intake : Intake) : Event → Intake
  | .setPacketData data => intake.setPacketData data
  | .getPacket => intake.getPacket

def step (intake : Intake) (event : Event) : Option Intake := some (intake.next event)

/-- What `SetPacketData` is given. -/
def Event.data : Event → Bytes
  | .setPacketData data => data
  | .getPacket => []

def stream (events : List Event) : Bytes := events.flatMap Event.data

theorem stream_append (first second : List Event) :
    stream (first ++ second) = stream first ++ stream second := List.flatMap_append ..

theorem stream_chunks (chunks : List Bytes) :
    stream (chunks.map Event.setPacketData) = chunks.flatten := by
  induction chunks with
  | nil => rfl
  | cons chunk rest ih => exact congrArg (chunk ++ ·) ih

/-- A packet which a client may send. -/
structure WellFormed (packet : Bytes) : Prop where
  header : packetHeaderLength ≤ packet.length
  fits : packet.length ≤ maxPacketDataBufferSize
  PacketLength : u16 packet 0 = packet.length
  PacketId : u16 packet 2 ≠ 0

instance (packet : Bytes) : Decidable (WellFormed packet) :=
  decidable_of_iff (packetHeaderLength ≤ packet.length ∧
      packet.length ≤ maxPacketDataBufferSize ∧ u16 packet 0 = packet.length ∧ u16 packet 2 ≠ 0)
    ⟨fun ⟨header, fits, length, id⟩ => ⟨header, fits, length, id⟩,
      fun ⟨header, fits, length, id⟩ => ⟨header, fits, length, id⟩⟩

theorem WellFormed.isFrame {packet : Bytes} (wellFormed : WellFormed packet) :
    User.packetFormat.IsFrame packet := by
  refine ⟨wellFormed.header, ?_⟩
  have announced : User.packetFormat.length (packet.take User.packetFormat.header) =
      u16 packet 0 := u16_take packet (by decide)
  rw [announced]
  exact wellFormed.PacketLength

theorem WellFormed.ne_nil {packet : Bytes} (wellFormed : WellFormed packet) : packet ≠ [] := by
  rintro rfl
  exact absurd wellFormed.header (by decide)

/-! ## The two operations -/

section Operations

variable {intake : Intake}

/-- The part of a chunk for which there is room. -/
def room (intake : Intake) (data : Bytes) : Bytes :=
  data.take (maxPacketDataBufferSize - intake.user.bytes.length)

theorem bytes_setPacketData (valid : intake.user.mPacketDataBuffer.Valid) (data : Bytes) :
    (intake.setPacketData data).user.bytes = intake.user.bytes ++ intake.room data :=
  User.bytes_setPacketData valid data

theorem kept_setPacketData (valid : intake.user.mPacketDataBuffer.Valid) (data : Bytes) :
    (intake.setPacketData data).kept =
      if intake.room data = [] then intake.kept
      else intake.received.length + (intake.room data).length := by
  have written : (intake.user.mPacketDataBuffer.write data).1 = (intake.room data).length := by
    rw [RingBuffer.write_count valid, room, List.length_take, Nat.min_comm, User.bytes,
      RingBuffer.length_contents]
  unfold setPacketData
  simp only [written, List.length_eq_zero_iff]

/-- A complete packet with an identifier is returned. -/
theorem returned_getPacket (valid : intake.user.mPacketDataBuffer.Valid) {packet rest : Bytes}
    (next : User.packetFormat.next? intake.user.bytes = some (packet, rest))
    (some : u16 packet 2 ≠ 0) (header : packetHeaderLength ≤ packet.length) :
    intake.getPacket.returned = intake.returned ++ [packet] ∧
      intake.getPacket.user.bytes = rest := by
  obtain ⟨got, left, split⟩ := User.getPacket_of_some valid next
  have id : u16 (intake.user.bytes.take packetHeaderLength) 2 = u16 packet 2 := by
    rw [split, List.take_append_of_le_length header, u16_take packet (by decide)]
  unfold getPacket
  rw [got]
  dsimp only
  rw [id, if_neg some, List.take_left]
  exact ⟨rfl, left⟩

theorem returned_getPacket_of_none (valid : intake.user.mPacketDataBuffer.Valid)
    (nothing : User.packetFormat.next? intake.user.bytes = none) : intake.getPacket = intake := by
  unfold getPacket
  rw [User.getPacket_of_none valid nothing]
  rfl

end Operations

/-! ## Losses of whole packets -/

/-- A chunk of which something is written follows the last byte written, or what was lost in
between are whole packets. -/
def LosesWholePackets (packets : List Bytes) (intake : Intake) : Event → Prop
  | .setPacketData data => intake.room data ≠ [] → intake.kept = intake.received.length ∨
      FrameFormat.Boundary packets intake.kept ∧
        FrameFormat.Boundary packets intake.received.length
  | .getPacket => True

instance (packets : List Bytes) (intake : Intake) (event : Event) :
    Decidable (intake.LosesWholePackets packets event) :=
  match event with
  | .setPacketData _ => inferInstanceAs (Decidable (_ → _))
  | .getPacket => isTrue trivial

/-- The ring consists of pieces of the stream of the packets. -/
structure Framed (packets : List Bytes) (intake : Intake) : Prop where
  valid : intake.user.mPacketDataBuffer.Valid
  reassembly : FrameFormat.LossyReassembly packets intake.returned intake.user.bytes
    intake.received intake.kept

theorem framed_start (packets : List Bytes) (user : User) : (start user).Framed packets := by
  refine ⟨RingBuffer.valid_clear (by decide), ?_⟩
  rw [show (start user).user.bytes = [] from User.bytes_clear user]
  exact FrameFormat.LossyReassembly.start packets

section Steps

variable {packets : List Bytes} {intake : Intake}

theorem Framed.setPacketData (framed : intake.Framed packets)
    (wellFormed : ∀ packet ∈ packets, WellFormed packet) {data : Bytes}
    (stream : intake.received ++ data <+: packets.flatten)
    (whole : intake.LosesWholePackets packets (.setPacketData data)) :
    (intake.setPacketData data).Framed packets := by
  refine ⟨User.valid_setPacketData framed.valid data, ?_⟩
  have front : intake.room data <+: data := List.take_prefix ..
  have nonempty : ∀ packet ∈ packets, packet ≠ [] :=
    fun packet member => (wellFormed packet member).ne_nil
  rw [bytes_setPacketData framed.valid, kept_setPacketData framed.valid]
  change FrameFormat.LossyReassembly packets intake.returned _ (intake.received ++ data) _
  split
  · rename_i none
    rw [none, List.append_nil]
    exact framed.reassembly.lose stream
  · rename_i some
    rcases whole some with contiguous | ⟨lost, found⟩
    · exact framed.reassembly.receive contiguous stream front
    · exact framed.reassembly.resume nonempty lost found stream front

/-- A packet which is taken off the ring is a packet of the client. -/
theorem Framed.wellFormed_of_next (framed : intake.Framed packets)
    (wellFormed : ∀ packet ∈ packets, WellFormed packet) {packet rest : Bytes}
    (next : User.packetFormat.next? intake.user.bytes = some (packet, rest)) :
    WellFormed packet := by
  have areFrames : ∀ packet ∈ packets, User.packetFormat.IsFrame packet :=
    fun packet member => (wellFormed packet member).isFrame
  have taken := framed.reassembly.take (by decide) areFrames next
  exact wellFormed packet
    (taken.sublist.subset (List.mem_append_right _ List.mem_cons_self))

theorem Framed.getPacket (framed : intake.Framed packets)
    (wellFormed : ∀ packet ∈ packets, WellFormed packet) : intake.getPacket.Framed packets := by
  refine ⟨User.valid_getPacket framed.valid, ?_⟩
  rcases next : User.packetFormat.next? intake.user.bytes with _ | ⟨packet, rest⟩
  · rw [returned_getPacket_of_none framed.valid next]
    exact framed.reassembly
  · have sent := framed.wellFormed_of_next wellFormed next
    obtain ⟨returned, bytes⟩ := returned_getPacket framed.valid next sent.PacketId sent.header
    rw [returned, bytes]
    exact framed.reassembly.take (by decide)
      (fun packet member => (wellFormed packet member).isFrame) next

/-- A run from such a state whose chunks continue the stream. -/
theorem Framed.always (wellFormed : ∀ packet ∈ packets, WellFormed packet)
    {events : List Event} (framed : intake.Framed packets)
    (continues : intake.received ++ stream events <+: packets.flatten)
    (whole : Execution.Throughout step (LosesWholePackets packets) intake events) :
    Execution.Always step (Framed packets) intake events := by
  induction events generalizing intake with
  | nil => exact framed
  | cons event rest ih =>
      refine ⟨framed, fun next taken => ?_⟩
      obtain ⟨condition, later⟩ := whole next taken
      cases taken
      cases event with
      | setPacketData data =>
          have split : stream (.setPacketData data :: rest) = data ++ stream rest := rfl
          rw [split, ← List.append_assoc] at continues
          exact ih (framed.setPacketData wellFormed ((List.prefix_append ..).trans continues)
            condition) continues later
      | getPacket => exact ih (framed.getPacket wellFormed) continues later

end Steps

/--
A client sends packets, cut into chunks in any way, and `GetPacket` is called at any time.  If
every chunk of which something is written follows the last byte written, or only whole
packets were lost in between, then `GetPacket` returns packets of the client in their order.
-/
theorem always_returned_sublist (user : User) {packets : List Bytes} {events : List Event}
    (wellFormed : ∀ packet ∈ packets, WellFormed packet)
    (sent : stream events <+: packets.flatten)
    (whole : Execution.Throughout step (LosesWholePackets packets) (start user) events) :
    Execution.Always step (fun intake => intake.returned.Sublist packets) (start user) events :=
  ((framed_start packets user).always wellFormed sent whole).mono
    fun _ framed => framed.reassembly.sublist

/-! ## Runs on a ring whose contents are known -/

/-- What the ring holds and what was returned. -/
structure Shows (intake : Intake) (bytes : Bytes) (returned : List Bytes) : Prop where
  valid : intake.user.mPacketDataBuffer.Valid
  bytes_eq : intake.user.bytes = bytes
  returned_eq : intake.returned = returned

theorem shows_start (user : User) : (start user).Shows [] [] :=
  ⟨RingBuffer.valid_clear (by decide), User.bytes_clear user, rfl⟩

section Shows

variable {intake : Intake} {bytes : Bytes} {returned : List Bytes}

theorem Shows.setPacketData (shows_ : intake.Shows bytes returned) (data : Bytes) :
    (intake.setPacketData data).Shows
      (bytes ++ data.take (maxPacketDataBufferSize - bytes.length)) returned := by
  refine ⟨User.valid_setPacketData shows_.valid data, ?_, shows_.returned_eq⟩
  rw [bytes_setPacketData shows_.valid, room, shows_.bytes_eq]

theorem Shows.getPacket (shows_ : intake.Shows bytes returned) {packet rest : Bytes}
    (next : User.packetFormat.next? bytes = some (packet, rest)) (some : u16 packet 2 ≠ 0)
    (header : packetHeaderLength ≤ packet.length) :
    intake.getPacket.Shows rest (returned ++ [packet]) := by
  have taken := returned_getPacket shows_.valid (shows_.bytes_eq.symm ▸ next) some header
  exact ⟨User.valid_getPacket shows_.valid, taken.2, shows_.returned_eq ▸ taken.1⟩

/-- Chunks for which there is room. -/
theorem Shows.fill (shows_ : intake.Shows bytes returned) (chunks : List Bytes)
    (fits : bytes.length + chunks.flatten.length ≤ maxPacketDataBufferSize) :
    ((chunks.map Event.setPacketData).foldl next intake).Shows (bytes ++ chunks.flatten)
      returned := by
  induction chunks generalizing intake bytes with
  | nil => simpa using shows_
  | cons chunk rest ih =>
      rw [List.flatten_cons, List.length_append] at fits
      have set := shows_.setPacketData chunk
      rw [List.take_of_length_le (by omega)] at set
      have filled := ih set (by
        rw [List.length_append]
        omega)
      rwa [List.append_assoc] at filled

end Shows

theorem run?_eq (intake : Intake) (events : List Event) :
    Execution.run? step intake events = some (events.foldl next intake) := by
  induction events generalizing intake with
  | nil => rfl
  | cons event rest ih => exact ih (intake.next event)

/-! ## A loss of a whole packet

The ring is full when a packet of five bytes arrives, none of which is written; when the next
packet comes, the logic thread has emptied the ring.
-/

section Contiguous

variable {packets : List Bytes} {intake : Intake}

/-- A chunk for which there is room follows the last byte written. -/
theorem contiguous_setPacketData (valid : intake.user.mPacketDataBuffer.Valid)
    (contiguous : intake.kept = intake.received.length) {data : Bytes}
    (fits : intake.user.bytes.length + data.length ≤ maxPacketDataBufferSize) :
    (intake.setPacketData data).kept = (intake.setPacketData data).received.length := by
  have all : intake.room data = data := List.take_of_length_le (by omega)
  rw [kept_setPacketData valid, all]
  change _ = (intake.received ++ data).length
  rw [List.length_append]
  split
  · rename_i empty
    rw [empty, contiguous, List.length_nil, Nat.add_zero]
  · rfl

theorem received_fill {chunks : List Bytes} :
    ((chunks.map Event.setPacketData).foldl next intake).received =
      intake.received ++ chunks.flatten := by
  induction chunks generalizing intake with
  | nil => exact (List.append_nil _).symm
  | cons chunk rest ih =>
      rw [List.map_cons, List.foldl_cons, ih, List.flatten_cons, ← List.append_assoc]
      rfl

/-- Of chunks for which there is room nothing is lost. -/
theorem fill_contiguous (valid : intake.user.mPacketDataBuffer.Valid)
    (contiguous : intake.kept = intake.received.length) (chunks : List Bytes)
    (fits : intake.user.bytes.length + chunks.flatten.length ≤ maxPacketDataBufferSize) :
    Execution.Throughout step (LosesWholePackets packets) intake
        (chunks.map Event.setPacketData) ∧
      ((chunks.map Event.setPacketData).foldl next intake).kept =
        ((chunks.map Event.setPacketData).foldl next intake).received.length := by
  induction chunks generalizing intake with
  | nil => exact ⟨trivial, contiguous⟩
  | cons chunk rest ih =>
      rw [List.flatten_cons, List.length_append] at fits
      have follows := contiguous_setPacketData valid contiguous
        (Nat.le_trans (Nat.add_le_add_left (Nat.le_add_right ..) _) fits)
      have all : intake.room chunk = chunk := List.take_of_length_le (by omega)
      have bytes := bytes_setPacketData valid chunk
      rw [all] at bytes
      have filled := ih (User.valid_setPacketData valid chunk) follows (by
        rw [bytes, List.length_append]
        omega)
      refine ⟨fun next taken => ?_, filled.2⟩
      cases taken
      exact ⟨fun _ => Or.inl contiguous, filled.1⟩

end Contiguous

/-- A `SYS_PONG` of 8096 bytes. -/
def fullPong : Bytes := [160, 31, 22, 0, 0] ++ List.replicate 8091 0

/-- It arrives in chunks of at most 1024 bytes. -/
def fullPongChunks : List Bytes :=
  ([160, 31, 22, 0, 0] ++ List.replicate 1019 0) ::
    (List.replicate 6 (List.replicate 1024 0) ++ [List.replicate 928 0])

def fullPackets : List Bytes := [fullPong, [5, 0, 22, 0, 0], [7, 0, 22, 0, 0, 0, 0]]

def lostWholeRun : List Event :=
  fullPongChunks.map Event.setPacketData ++
    [.setPacketData [5, 0, 22, 0, 0], .getPacket, .setPacketData [7, 0, 22, 0, 0, 0, 0],
      .getPacket]

theorem flatten_fullPongChunks : fullPongChunks.flatten = fullPong := by
  unfold fullPongChunks fullPong
  rw [List.flatten_cons, List.flatten_append, List.flatten_replicate_replicate,
    List.flatten_singleton, List.append_assoc, List.replicate_append_replicate,
    List.replicate_append_replicate]

theorem length_fullPong : fullPong.length = 8096 := by
  rw [fullPong, List.length_append, List.length_replicate]
  rfl

theorem wellFormed_fullPong : WellFormed fullPong where
  header := by
    rw [length_fullPong]
    decide
  fits := by
    rw [length_fullPong]
    decide
  PacketLength := by
    rw [length_fullPong]
    rfl
  PacketId := nofun

/-- What the ring holds once it is full. -/
theorem filled_fullPong : ((fullPongChunks.map Event.setPacketData).foldl next
    (start (User.init []))).Shows fullPong [] := by
  have filled := (shows_start (User.init [])).fill fullPongChunks (by
    rw [flatten_fullPongChunks, length_fullPong]
    decide)
  rwa [flatten_fullPongChunks, List.nil_append] at filled

section Full

variable {intake : Intake}

theorem Shows.room_full (shows_ : intake.Shows fullPong []) (data : Bytes) :
    intake.room data = [] := by
  rw [room, shows_.bytes_eq, length_fullPong]
  rfl

theorem Shows.lose (shows_ : intake.Shows fullPong []) (data : Bytes) :
    (intake.setPacketData data).Shows fullPong [] ∧
      (intake.setPacketData data).kept = intake.kept := by
  have same := shows_.setPacketData data
  rw [length_fullPong] at same
  have none : fullPong ++ data.take (maxPacketDataBufferSize - 8096) = fullPong :=
    List.append_nil _
  refine ⟨none ▸ same, ?_⟩
  rw [kept_setPacketData shows_.valid, if_pos (shows_.room_full data)]

end Full

/-- The second packet is lost, and the others are returned. -/
theorem returned_lostWholeRun :
    (lostWholeRun.foldl next (start (User.init []))).returned =
      [fullPong, [7, 0, 22, 0, 0, 0, 0]] := by
  have lost := (filled_fullPong.lose [5, 0, 22, 0, 0]).1
  have whole := User.packetFormat.next?_append wellFormed_fullPong.isFrame []
  rw [List.append_nil] at whole
  have first := lost.getPacket whole wellFormed_fullPong.PacketId wellFormed_fullPong.header
  have third := first.setPacketData [7, 0, 22, 0, 0, 0, 0]
  have front : User.packetFormat.next? [7, 0, 22, 0, 0, 0, 0] =
      some ([7, 0, 22, 0, 0, 0, 0], []) := by decide
  have last := third.getPacket front (by decide) (by decide)
  rw [lostWholeRun, List.foldl_append]
  simp only [List.foldl_cons, List.foldl_nil, next]
  exact last.returned_eq

/-- What is lost between the first and the third packet is the second one. -/
theorem losesWholePackets_lostWholeRun :
    Execution.Throughout step (LosesWholePackets fullPackets) (start (User.init []))
      lostWholeRun := by
  have begins := shows_start (User.init [])
  obtain ⟨fills, contiguous⟩ := @fill_contiguous fullPackets _ begins.valid rfl fullPongChunks (by
    rw [begins.bytes_eq, flatten_fullPongChunks, length_fullPong]
    decide)
  have received : ((fullPongChunks.map Event.setPacketData).foldl next
      (start (User.init []))).received = fullPong :=
    received_fill.trans (congrArg ([] ++ ·) flatten_fullPongChunks)
  rw [received, length_fullPong] at contiguous
  refine fills.append fun middle completed => ?_
  rw [run?_eq, Option.some.injEq] at completed
  have full := filled_fullPong
  rw [completed] at full contiguous received
  have kept := (full.lose [5, 0, 22, 0, 0]).2.trans contiguous
  have afterFirst : FrameFormat.Boundary fullPackets 8096 :=
    ⟨[fullPong], ⟨_, rfl⟩, by rw [List.flatten_singleton, length_fullPong]⟩
  have afterSecond : FrameFormat.Boundary fullPackets (fullPong ++ [5, 0, 22, 0, 0]).length :=
    ⟨[fullPong, [5, 0, 22, 0, 0]], ⟨_, rfl⟩, rfl⟩
  rw [← kept] at afterFirst
  rw [← received] at afterSecond
  intro lost taken
  cases taken
  refine ⟨fun some => absurd (full.room_full _) some, fun emptied taken => ?_⟩
  cases taken
  refine ⟨trivial, fun resumed taken => ?_⟩
  cases taken
  exact ⟨fun _ => Or.inr ⟨afterFirst, afterSecond⟩, fun _ _ => ⟨trivial, trivial⟩⟩

theorem always_returned_sublist_lostWholeRun :
    (lostWholeRun.foldl next (start (User.init []))).returned =
        [fullPong, [7, 0, 22, 0, 0, 0, 0]] ∧
      Execution.Always step (fun intake => intake.returned.Sublist fullPackets)
        (start (User.init [])) lostWholeRun := by
  refine ⟨returned_lostWholeRun,
    always_returned_sublist (User.init []) ?_ ?_ losesWholePackets_lostWholeRun⟩
  · refine List.forall_mem_cons.mpr ⟨wellFormed_fullPong, ?_⟩
    decide
  · have chunks : stream (fullPongChunks.map Event.setPacketData) = fullPong :=
      (stream_chunks fullPongChunks).trans flatten_fullPongChunks
    have all : stream lostWholeRun = fullPackets.flatten := by
      rw [lostWholeRun, stream_append, chunks]
      rfl
    exact all ▸ List.prefix_refl _

/-! ## A loss inside a packet

The ring holds 8094 bytes when a packet of five bytes arrives.  Two of them are written; when
the next packet comes, the logic thread has made room for all of it.
-/

/-- A `SYS_PONG` of 8094 bytes. -/
def longPong : Bytes := [158, 31, 22, 0, 0] ++ List.replicate 8089 0

/-- It arrives in chunks of at most 1024 bytes. -/
def longPongChunks : List Bytes :=
  ([158, 31, 22, 0, 0] ++ List.replicate 1019 0) ::
    (List.replicate 6 (List.replicate 1024 0) ++ [List.replicate 926 0])

def splicedPackets : List Bytes := [longPong, [5, 0, 22, 0, 0], [7, 0, 22, 0, 0, 0, 0]]

def splicedRun : List Event :=
  longPongChunks.map Event.setPacketData ++
    [.setPacketData [5, 0, 22, 0, 0], .getPacket, .setPacketData [7, 0, 22, 0, 0, 0, 0],
      .getPacket]

theorem flatten_longPongChunks : longPongChunks.flatten = longPong := by
  unfold longPongChunks longPong
  rw [List.flatten_cons, List.flatten_append, List.flatten_replicate_replicate,
    List.flatten_singleton, List.append_assoc, List.replicate_append_replicate,
    List.replicate_append_replicate]

theorem length_longPong : longPong.length = 8094 := by
  rw [longPong, List.length_append, List.length_replicate]
  rfl

theorem wellFormed_longPong : WellFormed longPong where
  header := by
    rw [length_longPong]
    decide
  fits := by
    rw [length_longPong]
    decide
  PacketLength := by
    rw [length_longPong]
    rfl
  PacketId := nofun

/-- The last packet which is returned is made of two bytes of the second packet and three of
the third one. -/
theorem returned_splicedRun :
    (splicedRun.foldl next (start (User.init []))).returned = [longPong, [5, 0, 7, 0, 22]] := by
  have filled := (shows_start (User.init [])).fill longPongChunks (by
    rw [flatten_longPongChunks, length_longPong]
    decide)
  rw [flatten_longPongChunks, List.nil_append] at filled
  have second := filled.setPacketData [5, 0, 22, 0, 0]
  rw [length_longPong] at second
  have first := second.getPacket (User.packetFormat.next?_append wellFormed_longPong.isFrame _)
    wellFormed_longPong.PacketId wellFormed_longPong.header
  have third := first.setPacketData [7, 0, 22, 0, 0, 0, 0]
  have front : User.packetFormat.next? [5, 0, 7, 0, 22, 0, 0, 0, 0] =
      some ([5, 0, 7, 0, 22], [0, 0, 0, 0]) := by decide
  have spliced := third.getPacket front (by decide) (by decide)
  rw [splicedRun, List.foldl_append]
  simp only [List.foldl_cons, List.foldl_nil, next]
  exact spliced.returned_eq

theorem splicedRun_returns_unsent :
    (∀ packet ∈ splicedPackets, WellFormed packet) ∧
      stream splicedRun <+: splicedPackets.flatten ∧
      ¬ Execution.Always step (fun intake => intake.returned.Sublist splicedPackets)
        (start (User.init [])) splicedRun := by
  refine ⟨?_, ?_, fun always => ?_⟩
  · refine List.forall_mem_cons.mpr ⟨wellFormed_longPong, ?_⟩
    decide
  · have chunks : stream (longPongChunks.map Event.setPacketData) = longPong :=
      (stream_chunks longPongChunks).trans flatten_longPongChunks
    have all : stream splicedRun = splicedPackets.flatten := by
      rw [splicedRun, stream_append, chunks]
      rfl
    exact all ▸ List.prefix_refl _
  · have sublist := always.last (run?_eq _ _)
    rw [returned_splicedRun] at sublist
    have member : [5, 0, 7, 0, 22] ∈ splicedPackets :=
      sublist.subset (List.mem_cons_of_mem _ List.mem_cons_self)
    rcases List.mem_cons.mp member with long | other
    · exact absurd (congrArg List.length long) (by
        rw [length_longPong]
        decide)
    · exact absurd other (by decide)

/-! ## A full ring -/

/-- A `GetPacket` which finds the ring full removes something. -/
def FullRingProgresses (intake : Intake) : Prop :=
  intake.user.mPacketDataBuffer.isFull = true →
    intake.user.getPacket.2.bytes.length < intake.user.bytes.length

/-- The front of a full ring announces a packet which the ring can hold. -/
def FullRingServed (intake : Intake) : Prop :=
  intake.user.mPacketDataBuffer.isFull = true →
    1 ≤ u16 intake.user.bytes 0 ∧ u16 intake.user.bytes 0 ≤ maxPacketDataBufferSize

theorem valid_step {intake after : Intake} {event : Event}
    (valid : intake.user.mPacketDataBuffer.Valid) (taken : step intake event = some after) :
    after.user.mPacketDataBuffer.Valid := by
  cases taken
  cases event with
  | setPacketData data => exact User.valid_setPacketData valid data
  | getPacket => exact User.valid_getPacket valid

theorem always_valid (user : User) (events : List Event) :
    Execution.Always step (fun intake => intake.user.mPacketDataBuffer.Valid) (start user)
      events :=
  Execution.always_of_invariant (fun _ _ _ valid taken => valid_step valid taken)
    (RingBuffer.valid_clear (by decide)) events

theorem length_of_isFull {user : User} (valid : user.mPacketDataBuffer.Valid)
    (isFull : user.mPacketDataBuffer.isFull = true) :
    user.bytes.length = maxPacketDataBufferSize :=
  (RingBuffer.length_contents _).trans ((RingBuffer.isFull_iff valid).mp isFull)

theorem fullRingProgresses_iff {intake : Intake}
    (valid : intake.user.mPacketDataBuffer.Valid) :
    intake.FullRingProgresses ↔ intake.FullRingServed := by
  refine forall_congr' fun isFull => ?_
  have length := length_of_isFull valid isFull
  rw [User.bytes_getPacket valid]
  by_cases holds : User.HoldsPacket intake.user.bytes
  · have whole := holds.2
    rw [if_pos holds, List.length_drop]
    unfold maxPacketDataBufferSize at length ⊢
    omega
  · have header : packetHeaderLength ≤ intake.user.bytes.length := by
      rw [length]
      decide
    rw [if_neg holds]
    refine iff_of_false (Nat.lt_irrefl _) fun served => holds ⟨header, ?_⟩
    rw [length]
    exact served.2

/--
In every state which a connection reaches: a `GetPacket` which finds the ring full removes
something, precisely when the `PacketLength` at its front is neither 0 nor larger than the
ring.
-/
theorem always_fullRingProgresses_iff (user : User) (events : List Event) :
    Execution.Always step (fun intake => intake.FullRingProgresses ↔ intake.FullRingServed)
      (start user) events :=
  (always_valid user events).mono fun _ valid => fullRingProgresses_iff valid

/-- The ring is full and waits for a packet which it cannot hold. -/
structure Wedged (intake : Intake) : Prop where
  valid : intake.user.mPacketDataBuffer.Valid
  isFull : intake.user.mPacketDataBuffer.isFull = true
  announced : maxPacketDataBufferSize < u16 intake.user.bytes 0

/-- `GetPacket` returns nothing and `SetPacketData` accepts nothing. -/
theorem Wedged.idle {intake : Intake} (wedged : intake.Wedged) :
    intake.user.getPacket = ({}, intake.user) ∧
      ∀ data, intake.user.setPacketData data = intake.user := by
  have length := length_of_isFull wedged.valid wedged.isFull
  have missing : ¬ User.HoldsPacket intake.user.bytes := fun holds =>
    absurd (Nat.lt_of_lt_of_le wedged.announced holds.2) (length ▸ Nat.lt_irrefl _)
  refine ⟨User.getPacket_of_none wedged.valid (User.next?_of_not_holdsPacket missing), ?_⟩
  intro data
  have full : intake.user.mPacketDataBuffer.full = true := wedged.isFull
  cases data with
  | nil => rfl
  | cons byte rest => simp [User.setPacketData, RingBuffer.write, full]

/-- It stays so for the rest of the connection. -/
theorem Wedged.always {intake : Intake} (wedged : intake.Wedged) (events : List Event) :
    Execution.Always step Wedged intake events := by
  refine Execution.always_of_invariant (fun intake event after wedged taken => ?_) wedged events
  cases taken
  have idle := wedged.idle
  cases event with
  | setPacketData data =>
      have user : (intake.setPacketData data).user = intake.user := idle.2 data
      exact ⟨user ▸ wedged.valid, user ▸ wedged.isFull, user ▸ wedged.announced⟩
  | getPacket =>
      have user : intake.getPacket.user = intake.user := congrArg Prod.snd idle.1
      exact ⟨user ▸ wedged.valid, user ▸ wedged.isFull, user ▸ wedged.announced⟩

theorem Wedged.not_progresses {intake : Intake} (wedged : intake.Wedged) :
    ¬ intake.FullRingProgresses := fun progresses =>
  absurd ((fullRingProgresses_iff wedged.valid).mp progresses wedged.isFull).2
    (Nat.not_le.mpr wedged.announced)

/-- The ring holds as many bytes as it can, and its front announces more. -/
theorem Shows.wedged {intake : Intake} {bytes : Bytes} {returned : List Bytes}
    (shows_ : intake.Shows bytes returned) (length : bytes.length = maxPacketDataBufferSize)
    (announced : maxPacketDataBufferSize < u16 bytes 0) : intake.Wedged := by
  refine ⟨shows_.valid, (RingBuffer.isFull_iff shows_.valid).mpr ?_, ?_⟩
  · rw [← RingBuffer.length_contents]
    exact (congrArg List.length shows_.bytes_eq).trans length
  · rw [shows_.bytes_eq]
    exact announced

/-- A client sends bytes of eight ones until the ring is full. -/
def allOnes : List Bytes := List.replicate 7 (List.replicate 1024 255) ++ [List.replicate 928 255]

theorem allOnes_wedged : ((allOnes.map Event.setPacketData).foldl next
    (start (User.init []))).Wedged := by
  have flatten : allOnes.flatten = List.replicate maxPacketDataBufferSize 255 := by
    unfold allOnes
    rw [List.flatten_append, List.flatten_replicate_replicate, List.flatten_singleton,
      List.replicate_append_replicate]
    rfl
  have filled := (shows_start (User.init [])).fill allOnes (by
    rw [flatten, List.length_replicate]
    decide)
  rw [flatten, List.nil_append] at filled
  exact filled.wedged List.length_replicate (by decide)

theorem allOnes_not_fullRingProgresses :
    ¬ Execution.Always step FullRingProgresses (start (User.init []))
      (allOnes.map Event.setPacketData) :=
  fun always => allOnes_wedged.not_progresses (always.last (run?_eq _ _))

end Intake

end IOCPChatServer

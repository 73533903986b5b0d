import IOCPChatServer.Library.BoundedFifo
import IOCPChatServer.RingBuffer

/-!
# The ring buffer as a bounded queue

Every run of the operations of `RingBuffer<BufferSize>` from the initial state gives the
results of the bounded queue.  A null pointer given to `Write` or `Read` is an empty list
of bytes or a length of zero.
-/

namespace IOCPChatServer

namespace RingBuffer

variable {α : Type} {BufferSize : Nat}

/-- A new ring; the array is not initialised. -/
def init (memory : Nat → α) : RingBuffer α BufferSize where
  buffer := memory

/-- One operation of the ring. -/
def component :
    Component (RingBuffer α BufferSize) (BoundedFifo.Operation α) (BoundedFifo.Result α)
  | ring, .writeByte byte => ((.flag (ring.writeByte byte).1), (ring.writeByte byte).2)
  | ring, .readByte => (.byte ring.readByte.1, ring.readByte.2)
  | ring, .write data => (.count (ring.write data).1, (ring.write data).2)
  | ring, .read maxLength => (.bytes (ring.read maxLength).1, (ring.read maxLength).2)
  | ring, .peek offset => (.byte (ring.peek offset), ring)
  | ring, .clear => (.done, ring.clear)

/-- The ring stores the queue. -/
structure Stores (ring : RingBuffer α BufferSize) (queue : List α) : Prop where
  valid : ring.Valid
  contents : ring.contents = queue

theorem stores_init (positive : 0 < BufferSize) (memory : Nat → α) :
    (init memory : RingBuffer α BufferSize).Stores [] :=
  ⟨show (init memory).clear.Valid from valid_clear positive, contents_clear (init memory)⟩

theorem Stores.size {ring : RingBuffer α BufferSize} {queue : List α}
    (stores : ring.Stores queue) : ring.size = queue.length := by
  rw [← stores.contents, length_contents]

/-! ## Single bytes -/

/-- `WriteByte` is `Write` of one byte. -/
theorem write_singleton (ring : RingBuffer α BufferSize) (byte : α) :
    ring.write [byte] = ((ring.writeByte byte).1.toNat, (ring.writeByte byte).2) := by
  unfold write writeByte
  cases ring.full with
  | true => rfl
  | false => rfl

/-- `ReadByte` is `Read` of one byte. -/
theorem read_one (ring : RingBuffer α BufferSize) :
    ring.read 1 = (ring.readByte.1.toList, ring.readByte.2) := by
  unfold read readByte
  cases ring.isEmpty with
  | true => rfl
  | false => rfl

theorem writeByte_fails (ring : RingBuffer α BufferSize) (byte : α) :
    (ring.writeByte byte).1 = false ↔ ring.isFull = true := by
  unfold writeByte isFull
  cases ring.full with
  | true => exact iff_of_true rfl rfl
  | false => exact iff_of_false nofun nofun

theorem readByte_fails (ring : RingBuffer α BufferSize) :
    ring.readByte.1 = none ↔ ring.isEmpty = true := by
  unfold readByte
  cases ring.isEmpty with
  | true => exact iff_of_true rfl rfl
  | false => exact iff_of_false nofun nofun

/-! ## The refinement -/

theorem Stores.writeByte {ring : RingBuffer α BufferSize} {queue : List α}
    (stores : ring.Stores queue) (byte : α) :
    (ring.component (.writeByte byte)).1 =
        (BoundedFifo.component BufferSize queue (.writeByte byte)).1 ∧
      (ring.component (.writeByte byte)).2.Stores
        (BoundedFifo.component BufferSize queue (.writeByte byte)).2 := by
  have full := isFull_iff stores.valid
  rw [stores.size] at full
  have bounded := stores.valid.size_le
  rw [stores.size] at bounded
  simp only [component, BoundedFifo.component, RingBuffer.writeByte]
  cases isFull : ring.full with
  | true =>
      rw [if_neg (Nat.not_lt_of_le (Nat.le_of_eq (full.mp isFull).symm))]
      exact ⟨rfl, stores⟩
  | false =>
      have room : queue.length < BufferSize := by
        refine Nat.lt_of_le_of_ne bounded fun all => ?_
        exact nomatch isFull.symm.trans (full.mpr all)
      rw [if_pos room]
      refine ⟨rfl, stores.valid.put isFull byte, ?_⟩
      rw [← stores.contents]
      exact contents_put stores.valid isFull byte

theorem Stores.readByte {ring : RingBuffer α BufferSize} {queue : List α}
    (stores : ring.Stores queue) :
    (ring.component .readByte).1 = (BoundedFifo.component BufferSize queue .readByte).1 ∧
      (ring.component .readByte).2.Stores
        (BoundedFifo.component BufferSize queue .readByte).2 := by
  simp only [component, RingBuffer.readByte]
  cases empty : ring.isEmpty with
  | true =>
      have nothing : queue = [] := stores.contents ▸ contents_of_isEmpty stores.valid empty
      subst nothing
      exact ⟨rfl, stores⟩
  | false =>
      have front := contents_dropFront stores.valid empty
      rw [stores.contents] at front
      subst front
      exact ⟨rfl, stores.valid.dropFront, rfl⟩

theorem Stores.write {ring : RingBuffer α BufferSize} {queue : List α}
    (stores : ring.Stores queue) (data : List α) :
    (ring.component (.write data)).1 =
        (BoundedFifo.component BufferSize queue (.write data)).1 ∧
      (ring.component (.write data)).2.Stores
        (BoundedFifo.component BufferSize queue (.write data)).2 := by
  have count := write_count stores.valid data
  have contents := contents_write stores.valid data
  rw [stores.size] at count contents
  rw [stores.contents] at contents
  refine ⟨congrArg BoundedFifo.Result.count count, stores.valid.write data, contents.trans ?_⟩
  refine congrArg (queue ++ ·) (List.take_eq_take_iff.mpr ?_)
  omega

theorem Stores.read {ring : RingBuffer α BufferSize} {queue : List α}
    (stores : ring.Stores queue) (maxLength : Nat) :
    (ring.component (.read maxLength)).1 =
        (BoundedFifo.component BufferSize queue (.read maxLength)).1 ∧
      (ring.component (.read maxLength)).2.Stores
        (BoundedFifo.component BufferSize queue (.read maxLength)).2 := by
  have value := read_value stores.valid maxLength
  have contents := contents_read stores.valid maxLength
  rw [stores.contents] at value contents
  refine ⟨congrArg BoundedFifo.Result.bytes (value.trans ?_), stores.valid.read maxLength,
    contents.trans ?_⟩
  · exact List.take_eq_take_iff.mpr (by omega)
  · exact List.drop_eq_drop_iff.mpr (by omega)

/-- The ring refines the bounded queue. -/
theorem refines_boundedFifo (positive : 0 < BufferSize) :
    (component : Component (RingBuffer α BufferSize) (BoundedFifo.Operation α)
      (BoundedFifo.Result α)).Refines (BoundedFifo.component BufferSize) Stores := by
  have both (ring : RingBuffer α BufferSize) (queue : List α)
      (operation : BoundedFifo.Operation α)
      (stores : ring.Stores queue) :
      (ring.component operation).1 = (BoundedFifo.component BufferSize queue operation).1 ∧
        (ring.component operation).2.Stores
          (BoundedFifo.component BufferSize queue operation).2 := by
    cases operation with
    | writeByte byte => exact stores.writeByte byte
    | readByte => exact stores.readByte
    | write data => exact stores.write data
    | read maxLength => exact stores.read maxLength
    | peek offset =>
        refine ⟨congrArg BoundedFifo.Result.byte ?_, stores⟩
        rw [peek_eq stores.valid, stores.contents]
    | clear => exact ⟨rfl, valid_clear positive, contents_clear ring⟩
  exact ⟨fun ring queue operation stores => (both ring queue operation stores).1,
    fun ring queue operation stores => (both ring queue operation stores).2⟩

/-- What can be seen of a ring which stands for a queue. -/
structure Represents (ring : RingBuffer α BufferSize) (queue : List α) : Prop where
  length_le : queue.length ≤ BufferSize
  size : ring.size = queue.length
  isEmpty : ring.isEmpty = true ↔ queue = []
  isFull : ring.isFull = true ↔ queue.length = BufferSize
  head_lt : ring.head < BufferSize
  tail_lt : ring.tail < BufferSize

theorem Stores.represents {ring : RingBuffer α BufferSize} {queue : List α}
    (stores : ring.Stores queue) : ring.Represents queue where
  length_le := stores.size ▸ stores.valid.size_le
  size := stores.size
  isEmpty := by rw [isEmpty_iff stores.valid, stores.size, List.length_eq_zero_iff]
  isFull := by rw [isFull, isFull_iff stores.valid, stores.size]
  head_lt := stores.valid.head_lt
  tail_lt := stores.valid.tail_lt

/-- The operations on one byte do what those on many bytes do. -/
structure BytewiseAgrees (ring : RingBuffer α BufferSize) : Prop where
  write : ∀ byte, ring.write [byte] = ((ring.writeByte byte).1.toNat, (ring.writeByte byte).2)
  read : ring.read 1 = (ring.readByte.1.toList, ring.readByte.2)
  full : ∀ byte, (ring.writeByte byte).1 = false ↔ ring.isFull = true
  empty : ring.readByte.1 = none ↔ ring.isEmpty = true

theorem bytewiseAgrees (ring : RingBuffer α BufferSize) : ring.BytewiseAgrees where
  write := ring.write_singleton
  read := ring.read_one
  full := ring.writeByte_fails
  empty := ring.readByte_fails

/-- After any operations the results are those of the bounded queue, and the ring stands
for its list. -/
theorem run_represents_boundedFifo (positive : 0 < BufferSize) (memory : Nat → α)
    (operations : List (BoundedFifo.Operation α)) :
    let ran := component.run (init memory : RingBuffer α BufferSize) operations
    let specified := (BoundedFifo.component BufferSize).run [] operations
    ran.1 = specified.1 ∧ ran.2.Represents specified.2 ∧ ran.2.BytewiseAgrees := by
  obtain ⟨results, stores⟩ :=
    (refines_boundedFifo positive).run (stores_init positive memory) operations
  exact ⟨results, stores.represents, bytewiseAgrees _⟩

/-- A ring of one byte, whose two indices are always equal. -/
theorem run_represents_boundedFifo_one :
    (component.run (init fun _ => 0 : RingBuffer Nat 1)
        [.write [7, 8], .peek 0, .writeByte 9, .readByte, .readByte]).1 =
      ((BoundedFifo.component 1).run []
        [.write [7, 8], .peek 0, .writeByte 9, .readByte, .readByte]).1 :=
  (run_represents_boundedFifo Nat.one_pos (fun _ => 0) _).1

end RingBuffer

end IOCPChatServer

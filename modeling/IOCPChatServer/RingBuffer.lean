import Mathlib

/-!
# The ring buffer

`RingBuffer<BufferSize>` keeps its bytes in a fixed array between `tail` (the
oldest byte) and `head` (the next free cell).  Equality of the two indices means
both empty and full; the flag `full` tells them apart.  The element type is a
parameter, since no operation looks at an element.
-/

namespace IOCPChatServer

/-- `template<size_t BufferSize> class RingBuffer`; the cells at and beyond
`BufferSize` are never addressed. -/
structure RingBuffer (α : Type) (BufferSize : Nat) where
  buffer : Nat → α
  head : Nat := 0
  tail : Nat := 0
  full : Bool := false

namespace RingBuffer

variable {α : Type} {BufferSize : Nat}

def isEmpty (ring : RingBuffer α BufferSize) : Bool :=
  ring.head == ring.tail && !ring.full

def isFull (ring : RingBuffer α BufferSize) : Bool := ring.full

def size (ring : RingBuffer α BufferSize) : Nat :=
  if ring.full then BufferSize
  else if ring.tail ≤ ring.head then ring.head - ring.tail
  else BufferSize - ring.tail + ring.head

/-- The body shared by `WriteByte` and the loop of `Write`. -/
def put (ring : RingBuffer α BufferSize) (byte : α) : RingBuffer α BufferSize :=
  let head := (ring.head + 1) % BufferSize
  { ring with
    buffer := Function.update ring.buffer ring.head byte
    head := head
    full := if head = ring.tail then true else ring.full }

def writeByte (ring : RingBuffer α BufferSize) (byte : α) :
    Bool × RingBuffer α BufferSize :=
  if ring.full then (false, ring) else (true, ring.put byte)

/-- The body shared by `ReadByte` and the loop of `Read`. -/
def dropFront (ring : RingBuffer α BufferSize) : RingBuffer α BufferSize :=
  { ring with
    tail := (ring.tail + 1) % BufferSize
    full := false }

def readByte (ring : RingBuffer α BufferSize) :
    Option α × RingBuffer α BufferSize :=
  if ring.isEmpty then (none, ring) else (some (ring.buffer ring.tail), ring.dropFront)

/-- `Write`: stop at the first byte which finds the ring full. -/
def write : RingBuffer α BufferSize → List α → Nat × RingBuffer α BufferSize
  | ring, [] => (0, ring)
  | ring, byte :: rest =>
      if ring.full then (0, ring)
      else
        let written := write (ring.put byte) rest
        (written.1 + 1, written.2)

/-- `Read`: take bytes while the count is below `max_length` and any is left. -/
def read : RingBuffer α BufferSize → Nat → List α × RingBuffer α BufferSize
  | ring, 0 => ([], ring)
  | ring, count + 1 =>
      if ring.isEmpty then ([], ring)
      else
        let remaining := read ring.dropFront count
        (ring.buffer ring.tail :: remaining.1, remaining.2)

def peek (ring : RingBuffer α BufferSize) (offset : Nat) : Option α :=
  if ring.isEmpty || ring.size ≤ offset then none
  else some (ring.buffer ((ring.tail + offset) % BufferSize))

def clear (ring : RingBuffer α BufferSize) : RingBuffer α BufferSize :=
  { ring with head := 0, tail := 0, full := false }

/-! ## The bytes held, oldest first -/

/-- Both indices are inside the array, and a full ring has them equal. -/
structure Valid (ring : RingBuffer α BufferSize) : Prop where
  head_lt : ring.head < BufferSize
  tail_lt : ring.tail < BufferSize
  full_eq : ring.full = true → ring.head = ring.tail

/-- The abstract queue of a ring buffer. -/
def contents (ring : RingBuffer α BufferSize) : List α :=
  (List.range ring.size).map fun offset =>
    ring.buffer ((ring.tail + offset) % BufferSize)

@[simp]
theorem length_contents (ring : RingBuffer α BufferSize) :
    ring.contents.length = ring.size := by
  simp [contents]

/-- An index which wraps at most once. -/
theorem mod_eq_ite {index : Nat} (bound : index < 2 * BufferSize) :
    index % BufferSize = if index < BufferSize then index else index - BufferSize := by
  split
  · exact Nat.mod_eq_of_lt ‹_›
  · rw [Nat.mod_eq_sub_mod (by omega)]
    exact Nat.mod_eq_of_lt (by omega)

theorem Valid.size_le {ring : RingBuffer α BufferSize} (valid : ring.Valid) :
    ring.size ≤ BufferSize := by
  have := valid.head_lt
  have := valid.tail_lt
  unfold size
  split
  · exact Nat.le_refl _
  · split <;> omega

/-- The cell after the held bytes is the one at `head`. -/
theorem Valid.end_eq_head {ring : RingBuffer α BufferSize} (valid : ring.Valid) :
    (ring.tail + ring.size) % BufferSize = ring.head := by
  have headLt := valid.head_lt
  have tailLt := valid.tail_lt
  have sizeLe := valid.size_le
  rw [mod_eq_ite (by omega)]
  unfold size
  cases isFull : ring.full with
  | true =>
      have same := valid.full_eq isFull
      simp only [↓reduceIte]
      split <;> omega
  | false =>
      simp only [Bool.false_eq_true, ↓reduceIte]
      split <;> split <;> omega

/-- No held byte is in the cell at `head` of a ring which is not full. -/
theorem Valid.index_ne_head {ring : RingBuffer α BufferSize} (valid : ring.Valid)
    (notFull : ring.full = false) {offset : Nat} (held : offset < ring.size) :
    (ring.tail + offset) % BufferSize ≠ ring.head := by
  have headLt := valid.head_lt
  have tailLt := valid.tail_lt
  have sizeLe := valid.size_le
  rw [mod_eq_ite (by omega)]
  unfold size at held
  simp only [notFull, Bool.false_eq_true, ↓reduceIte] at held
  split at held <;> split <;> omega

theorem isEmpty_iff {ring : RingBuffer α BufferSize} (valid : ring.Valid) :
    ring.isEmpty = true ↔ ring.size = 0 := by
  have headLt := valid.head_lt
  have tailLt := valid.tail_lt
  unfold isEmpty size
  cases ring.full with
  | true => simp; omega
  | false =>
      simp only [beq_iff_eq, Bool.not_false, Bool.and_true, Bool.false_eq_true, ↓reduceIte]
      split <;> omega

theorem isFull_iff {ring : RingBuffer α BufferSize} (valid : ring.Valid) :
    ring.full = true ↔ ring.size = BufferSize := by
  have headLt := valid.head_lt
  have tailLt := valid.tail_lt
  unfold size
  cases ring.full with
  | true => simp
  | false =>
      simp only [Bool.false_eq_true, ↓reduceIte, false_iff]
      split <;> omega

theorem Valid.put {ring : RingBuffer α BufferSize} (valid : ring.Valid)
    (notFull : ring.full = false) (byte : α) : (ring.put byte).Valid := by
  have positive : 0 < BufferSize := Nat.zero_lt_of_lt valid.head_lt
  refine ⟨Nat.mod_lt _ positive, valid.tail_lt, ?_⟩
  simp only [RingBuffer.put, notFull]
  intro isFull
  split at isFull
  · assumption
  · cases isFull

theorem size_put {ring : RingBuffer α BufferSize} (valid : ring.Valid)
    (notFull : ring.full = false) (byte : α) :
    (ring.put byte).size = ring.size + 1 := by
  have headLt := valid.head_lt
  have tailLt := valid.tail_lt
  have next : (ring.head + 1) % BufferSize =
      if ring.head + 1 < BufferSize then ring.head + 1 else ring.head + 1 - BufferSize :=
    mod_eq_ite (by omega)
  simp only [put, size, notFull, Bool.false_eq_true, ↓reduceIte]
  generalize (ring.head + 1) % BufferSize = head at next ⊢
  by_cases meets : head = ring.tail
  · simp only [meets, ↓reduceIte]
    split at next <;> split <;> omega
  · simp only [meets, ↓reduceIte, Bool.false_eq_true]
    split at next <;> split <;> split <;> omega

/-- A byte put into a ring which is not full becomes the newest one. -/
theorem contents_put {ring : RingBuffer α BufferSize} (valid : ring.Valid)
    (notFull : ring.full = false) (byte : α) :
    (ring.put byte).contents = ring.contents ++ [byte] := by
  unfold contents
  rw [size_put valid notFull, List.range_succ, List.map_append]
  congr 1
  · apply List.map_congr_left
    intro offset member
    have other := valid.index_ne_head notFull (List.mem_range.mp member)
    exact Function.update_of_ne other _ _
  · simp only [List.map_cons, List.map_nil, put, valid.end_eq_head, Function.update_self]

theorem Valid.dropFront {ring : RingBuffer α BufferSize} (valid : ring.Valid) :
    ring.dropFront.Valid := by
  have positive : 0 < BufferSize := Nat.zero_lt_of_lt valid.head_lt
  exact ⟨valid.head_lt, Nat.mod_lt _ positive, fun impossible => by cases impossible⟩

theorem size_dropFront {ring : RingBuffer α BufferSize} (valid : ring.Valid)
    (notEmpty : ring.isEmpty = false) : ring.size = ring.dropFront.size + 1 := by
  have headLt := valid.head_lt
  have tailLt := valid.tail_lt
  have positive : ring.size ≠ 0 := by
    intro zero
    rw [(isEmpty_iff valid).mpr zero] at notEmpty
    cases notEmpty
  have next : (ring.tail + 1) % BufferSize =
      if ring.tail + 1 < BufferSize then ring.tail + 1 else ring.tail + 1 - BufferSize :=
    mod_eq_ite (by omega)
  have dropped : ring.dropFront.size =
      if (ring.tail + 1) % BufferSize ≤ ring.head
      then ring.head - (ring.tail + 1) % BufferSize
      else BufferSize - (ring.tail + 1) % BufferSize + ring.head := rfl
  rw [dropped]
  generalize (ring.tail + 1) % BufferSize = tail at next ⊢
  unfold size at positive ⊢
  cases isFull : ring.full with
  | true =>
      have same := valid.full_eq isFull
      simp only [↓reduceIte]
      split at next <;> split <;> omega
  | false =>
      simp only [isFull, Bool.false_eq_true, ↓reduceIte] at positive ⊢
      by_cases order : ring.tail ≤ ring.head
      · simp only [order, ↓reduceIte] at positive ⊢
        split at next <;> split <;> omega
      · simp only [order, ↓reduceIte] at positive ⊢
        split at next <;> split <;> omega

/-- The oldest byte of a ring which is not empty is the one at `tail`. -/
theorem contents_dropFront {ring : RingBuffer α BufferSize} (valid : ring.Valid)
    (notEmpty : ring.isEmpty = false) :
    ring.contents = ring.buffer ring.tail :: ring.dropFront.contents := by
  unfold contents
  rw [size_dropFront valid notEmpty, List.range_succ_eq_map, List.map_cons, List.map_map]
  congr 1
  · rw [Nat.add_zero, Nat.mod_eq_of_lt valid.tail_lt]
  · apply List.map_congr_left
    intro offset _
    simp only [Function.comp, RingBuffer.dropFront, Nat.mod_add_mod]
    rw [Nat.succ_eq_add_one, Nat.add_assoc, Nat.add_comm 1 offset]

/-! ## Whole reads and writes -/

theorem contents_of_isEmpty {ring : RingBuffer α BufferSize} (valid : ring.Valid)
    (empty : ring.isEmpty = true) : ring.contents = [] := by
  rw [← List.length_eq_zero_iff, length_contents]
  exact (isEmpty_iff valid).mp empty

theorem Valid.write {ring : RingBuffer α BufferSize} (valid : ring.Valid)
    (data : List α) : (ring.write data).2.Valid := by
  induction data generalizing ring with
  | nil => exact valid
  | cons byte rest ih =>
      unfold RingBuffer.write
      cases isFull : ring.full with
      | true => exact valid
      | false => exact ih (valid.put isFull byte)

/-- `Write` appends as many leading bytes as there is room for. -/
theorem contents_write {ring : RingBuffer α BufferSize} (valid : ring.Valid)
    (data : List α) :
    (ring.write data).2.contents =
      ring.contents ++ data.take (BufferSize - ring.size) := by
  induction data generalizing ring with
  | nil => simp [RingBuffer.write]
  | cons byte rest ih =>
      unfold RingBuffer.write
      cases isFull : ring.full with
      | true =>
          have noRoom := (isFull_iff valid).mp isFull
          simp [noRoom]
      | false =>
          have notAll : ring.size ≠ BufferSize := by
            intro all
            rw [(isFull_iff valid).mpr all] at isFull
            cases isFull
          have room : BufferSize - ring.size = BufferSize - (ring.size + 1) + 1 := by
            have := valid.size_le
            omega
          simp only [Bool.false_eq_true, ↓reduceIte]
          rw [ih (valid.put isFull byte), contents_put valid isFull, size_put valid isFull,
            room, List.take_succ_cons, List.append_assoc, List.singleton_append]

/-- `Write` returns the number of bytes appended. -/
theorem write_count {ring : RingBuffer α BufferSize} (valid : ring.Valid)
    (data : List α) :
    (ring.write data).1 = min data.length (BufferSize - ring.size) := by
  induction data generalizing ring with
  | nil => simp [RingBuffer.write]
  | cons byte rest ih =>
      unfold RingBuffer.write
      cases isFull : ring.full with
      | true =>
          have noRoom := (isFull_iff valid).mp isFull
          simp [noRoom]
      | false =>
          have notAll : ring.size ≠ BufferSize := by
            intro all
            rw [(isFull_iff valid).mpr all] at isFull
            cases isFull
          have := valid.size_le
          simp only [Bool.false_eq_true, ↓reduceIte]
          rw [ih (valid.put isFull byte), size_put valid isFull, List.length_cons]
          omega

theorem Valid.read {ring : RingBuffer α BufferSize} (valid : ring.Valid)
    (count : Nat) : (ring.read count).2.Valid := by
  induction count generalizing ring with
  | zero => exact valid
  | succ count ih =>
      unfold RingBuffer.read
      cases ring.isEmpty with
      | true => exact valid
      | false => exact ih valid.dropFront

/-- `Read` returns the oldest bytes, at most `max_length` of them. -/
theorem read_value {ring : RingBuffer α BufferSize} (valid : ring.Valid)
    (count : Nat) : (ring.read count).1 = ring.contents.take count := by
  induction count generalizing ring with
  | zero => simp [RingBuffer.read]
  | succ count ih =>
      unfold RingBuffer.read
      cases empty : ring.isEmpty with
      | true => simp [contents_of_isEmpty valid empty]
      | false =>
          simp only [Bool.false_eq_true, ↓reduceIte]
          rw [contents_dropFront valid empty, List.take_succ_cons, ih valid.dropFront]

/-- `Read` leaves the bytes it did not return. -/
theorem contents_read {ring : RingBuffer α BufferSize} (valid : ring.Valid)
    (count : Nat) : (ring.read count).2.contents = ring.contents.drop count := by
  induction count generalizing ring with
  | zero => simp [RingBuffer.read]
  | succ count ih =>
      unfold RingBuffer.read
      cases empty : ring.isEmpty with
      | true => simp [contents_of_isEmpty valid empty]
      | false =>
          simp only [Bool.false_eq_true, ↓reduceIte]
          rw [contents_dropFront valid empty, List.drop_succ_cons, ih valid.dropFront]

/-- `Peek` returns the held byte at an offset from the oldest one. -/
theorem peek_eq {ring : RingBuffer α BufferSize} (valid : ring.Valid)
    (offset : Nat) : ring.peek offset = ring.contents[offset]? := by
  unfold peek
  cases empty : ring.isEmpty with
  | true => simp [contents_of_isEmpty valid empty]
  | false =>
      by_cases held : offset < ring.size
      · simp [contents, held]
      · simp [contents, held, Nat.le_of_not_lt held]

theorem valid_clear {ring : RingBuffer α BufferSize} (positive : 0 < BufferSize) :
    ring.clear.Valid :=
  ⟨positive, positive, fun impossible => by cases impossible⟩

@[simp]
theorem contents_clear (ring : RingBuffer α BufferSize) : ring.clear.contents = [] := by
  simp [contents, clear, size]

end RingBuffer

end IOCPChatServer

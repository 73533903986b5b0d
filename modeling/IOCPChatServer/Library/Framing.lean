import Mathlib

/-!
# Length-prefixed frames

A stream of elements is cut into frames by a header of fixed size which tells the
length of the whole frame.  `next?` takes the first frame off a buffer as a reader
does which waits until all of it is there.  Reading a stream of well-formed frames in
any pieces yields the frames, in order, as soon as they are complete.
-/

/-- A header size, and the length of the frame which a header announces. -/
structure FrameFormat (α : Type) where
  header : Nat
  length : List α → Nat

namespace FrameFormat

variable {α : Type} (format : FrameFormat α)

/-- The first frame and what follows it, once the buffer holds all of it. -/
def next? (buffer : List α) : Option (List α × List α) :=
  if buffer.length < format.header then none
  else
    let length := format.length (buffer.take format.header)
    if buffer.length < length then none else some (buffer.take length, buffer.drop length)

/-- A list which is exactly one frame. -/
structure IsFrame (frame : List α) : Prop where
  header_le : format.header ≤ frame.length
  length_eq : format.length (frame.take format.header) = frame.length

/-- The frames which are complete after `count` elements of their stream. -/
def complete : List (List α) → Nat → List (List α)
  | [], _ => []
  | frame :: rest, count =>
      if frame.length ≤ count then frame :: complete rest (count - frame.length) else []

/-- All frames which a reader finds in a buffer, one after the other; every frame takes a
step. -/
def frames : Nat → List α → List (List α)
  | 0, _ => []
  | steps + 1, buffer =>
      match format.next? buffer with
      | none => []
      | some (frame, rest) => frame :: frames steps rest

variable {format}

theorem next?_nil (positive : 0 < format.header) : format.next? [] = none := if_pos positive

/-- A frame is taken off the front of a buffer which holds a header at least. -/
theorem next?_some {buffer frame rest : List α}
    (next : format.next? buffer = some (frame, rest)) :
    format.header ≤ buffer.length ∧ buffer = frame ++ rest := by
  unfold next? at next
  split at next
  · cases next
  · rename_i enough
    dsimp only at next
    split at next
    · cases next
    · cases next
      exact ⟨Nat.not_lt.mp enough, (List.take_append_drop _ _).symm⟩

/-- A frame which was taken off has the announced length. -/
theorem next?_length {buffer frame rest : List α}
    (next : format.next? buffer = some (frame, rest)) :
    format.length (buffer.take format.header) = frame.length := by
  unfold next? at next
  split at next
  · cases next
  · dsimp only at next
    split at next
    · cases next
    · rename_i whole
      cases next
      rw [List.length_take_of_le (Nat.not_lt.mp whole)]

theorem next?_append {frame : List α} (isFrame : format.IsFrame frame) (rest : List α) :
    format.next? (frame ++ rest) = some (frame, rest) := by
  have header := isFrame.header_le
  have announced : format.length ((frame ++ rest).take format.header) = frame.length := by
    rw [List.take_append_of_le_length header, isFrame.length_eq]
  unfold next?
  rw [announced, List.length_append, if_neg (by omega)]
  simp

/-- A buffer which is a proper part of a frame holds no frame. -/
theorem next?_eq_none {frame buffer : List α} (isFrame : format.IsFrame frame)
    (starts : buffer <+: frame) (short : buffer.length < frame.length) :
    format.next? buffer = none := by
  unfold next?
  split
  · rfl
  · rename_i header
    have same : buffer.take format.header = frame.take format.header := by
      obtain ⟨rest, rfl⟩ := starts
      rw [List.take_append_of_le_length (by omega)]
    rw [same, isFrame.length_eq]
    simp [short]

/-- What a reader finds at the front of a part of a stream of frames. -/
theorem next?_of_stream {frame buffer : List α} {rest : List (List α)}
    (isFrame : format.IsFrame frame) (starts : buffer <+: (frame :: rest).flatten) :
    format.next? buffer =
      if frame.length ≤ buffer.length then some (frame, buffer.drop frame.length) else none := by
  rw [List.flatten_cons] at starts
  split
  · rename_i whole
    have front : frame <+: buffer :=
      List.prefix_of_prefix_length_le (List.prefix_append _ _) starts whole
    obtain ⟨remaining, rfl⟩ := front
    rw [next?_append isFrame, List.drop_left]
  · rename_i part
    have front : buffer <+: frame :=
      List.prefix_of_prefix_length_le starts (List.prefix_append _ _) (by omega)
    exact next?_eq_none isFrame front (by omega)

/-! ## Reassembly -/

theorem complete_flatten_append (delivered later : List (List α)) (count : Nat) :
    complete (delivered ++ later) (delivered.flatten.length + count) =
      delivered ++ complete later count := by
  induction delivered with
  | nil => simp
  | cons frame rest ih =>
      have whole : frame.length ≤ (frame :: rest).flatten.length + count := by
        rw [List.flatten_cons, List.length_append]
        omega
      have left : (frame :: rest).flatten.length + count - frame.length =
          rest.flatten.length + count := by
        rw [List.flatten_cons, List.length_append]
        omega
      rw [List.cons_append, complete, if_pos whole, left, ih, List.cons_append]

theorem complete_prefix (stream : List (List α)) (count : Nat) :
    complete stream count <+: stream := by
  induction stream generalizing count with
  | nil => exact List.prefix_refl _
  | cons frame rest ih =>
      rw [complete]
      split
      · exact (List.cons_prefix_cons).mpr ⟨rfl, ih _⟩
      · exact List.nil_prefix

theorem complete_flatten (stream : List (List α)) :
    complete stream stream.flatten.length = stream := by
  have whole := complete_flatten_append stream [] 0
  rwa [List.append_nil, Nat.add_zero, complete, List.append_nil] at whole

/-- A reader of a part of a stream finds the frames which are complete in it. -/
theorem frames_of_stream (positive : 0 < format.header) {stream : List (List α)}
    (areFrames : ∀ frame ∈ stream, format.IsFrame frame) {buffer : List α}
    (starts : buffer <+: stream.flatten) {steps : Nat} (enough : buffer.length ≤ steps) :
    format.frames steps buffer = complete stream buffer.length := by
  induction stream generalizing buffer steps with
  | nil =>
      rw [List.prefix_nil.mp starts]
      cases steps with
      | zero => rfl
      | succ steps =>
          rw [frames, next?_nil positive]
          rfl
  | cons frame rest ih =>
      have isFrame := areFrames frame List.mem_cons_self
      have header := isFrame.header_le
      cases steps with
      | zero =>
          rw [frames, complete, if_neg (by omega)]
      | succ steps =>
          rw [frames, next?_of_stream isFrame starts, complete]
          by_cases whole : frame.length ≤ buffer.length
          · have front : frame <+: buffer := by
              rw [List.flatten_cons] at starts
              exact List.prefix_of_prefix_length_le (List.prefix_append _ _) starts whole
            obtain ⟨remaining, rfl⟩ := front
            rw [List.flatten_cons, List.prefix_append_right_inj] at starts
            rw [List.length_append] at enough
            have later : format.frames steps remaining = complete rest remaining.length :=
              ih (fun other member => areFrames other (List.mem_cons_of_mem _ member)) starts
                (by omega)
            rw [if_pos whole, if_pos whole, List.drop_left, List.length_append,
              Nat.add_sub_cancel_left]
            exact congrArg _ later
          · rw [if_neg whole, if_neg whole]

/-- The state of a reader of a stream of frames: what it has delivered, together with
what its buffer holds, is what it has received, which is a part of the stream. -/
structure Reassembly (frames delivered : List (List α)) (buffer received : List α) : Prop where
  delivered_prefix : delivered <+: frames
  balanced : delivered.flatten ++ buffer = received
  received_prefix : received <+: frames.flatten

theorem Reassembly.start (frames : List (List α)) : Reassembly frames [] [] [] :=
  ⟨List.nil_prefix, rfl, List.nil_prefix⟩

/-- The buffer is a part of the stream of the frames which are still to come. -/
theorem Reassembly.buffer_prefix {frames delivered later : List (List α)}
    {buffer received : List α} (reassembly : Reassembly frames delivered buffer received)
    (split : delivered ++ later = frames) : buffer <+: later.flatten := by
  have part := reassembly.received_prefix
  rw [← reassembly.balanced, ← split, List.flatten_append] at part
  exact (List.prefix_append_right_inj _).mp part

theorem Reassembly.receive {frames delivered : List (List α)} {buffer received chunk : List α}
    (reassembly : Reassembly frames delivered buffer received)
    (stream : received ++ chunk <+: frames.flatten) :
    Reassembly frames delivered (buffer ++ chunk) (received ++ chunk) := by
  refine ⟨reassembly.delivered_prefix, ?_, stream⟩
  rw [← List.append_assoc, reassembly.balanced]

/-- The frame which the reader takes is the next one of the stream. -/
theorem Reassembly.take {frames delivered : List (List α)}
    {buffer received frame rest : List α} (positive : 0 < format.header)
    (areFrames : ∀ frame ∈ frames, format.IsFrame frame)
    (reassembly : Reassembly frames delivered buffer received)
    (next : format.next? buffer = some (frame, rest)) :
    frame ∈ frames ∧ Reassembly frames (delivered ++ [frame]) rest received := by
  obtain ⟨later, split⟩ := reassembly.delivered_prefix
  have part := reassembly.buffer_prefix split
  cases later with
  | nil =>
      rw [List.prefix_nil.mp part, next?_nil positive] at next
      cases next
  | cons first others =>
      have member : first ∈ frames := split ▸ List.mem_append_right _ List.mem_cons_self
      rw [next?_of_stream (areFrames first member) part] at next
      split at next
      · rename_i whole
        cases next
        have front : frame <+: buffer := by
          rw [List.flatten_cons] at part
          exact List.prefix_of_prefix_length_le (List.prefix_append _ _) part whole
        obtain ⟨remaining, rfl⟩ := front
        refine ⟨member, ⟨others, ?_⟩, ?_, reassembly.received_prefix⟩
        · rw [List.append_assoc]
          exact split
        · rw [List.flatten_append, List.flatten_singleton, List.drop_left, List.append_assoc]
          exact reassembly.balanced
      · cases next

/-- A reader which finds no frame has delivered all complete ones. -/
theorem Reassembly.complete {frames delivered : List (List α)} {buffer received : List α}
    (areFrames : ∀ frame ∈ frames, format.IsFrame frame)
    (reassembly : Reassembly frames delivered buffer received)
    (nothing : format.next? buffer = none) :
    delivered = FrameFormat.complete frames received.length := by
  obtain ⟨later, split⟩ := reassembly.delivered_prefix
  have part := reassembly.buffer_prefix split
  rw [← reassembly.balanced, ← split, List.length_append, complete_flatten_append]
  cases later with
  | nil => simp [FrameFormat.complete]
  | cons first others =>
      have member : first ∈ frames := split ▸ List.mem_append_right _ List.mem_cons_self
      rw [next?_of_stream (areFrames first member) part] at nothing
      split at nothing
      · cases nothing
      · rename_i short
        rw [FrameFormat.complete, if_neg short, List.append_nil]

end FrameFormat

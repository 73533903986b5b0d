import IOCPChatServer.Library.Framing
import Mathlib

/-!
# Readers of frames which lose a part of their stream

A reader with a bounded buffer keeps a prefix of each chunk and loses the rest.  As long as
every loss which is followed by more data is one of whole frames, the buffer consists of
frames of the stream and the beginning of one, and what is delivered is a part of what was
sent, in order.
-/

namespace FrameFormat

variable {α : Type} {format : FrameFormat α}

/-- The position in the stream is one between two frames. -/
def Boundary (frames : List (List α)) (position : Nat) : Prop :=
  ∃ front, front <+: frames ∧ front.flatten.length = position

instance (frames : List (List α)) (position : Nat) : Decidable (Boundary frames position) :=
  decidable_of_iff (∃ front ∈ frames.inits, front.flatten.length = position)
    (exists_congr fun _ => and_congr_left fun _ => List.mem_inits ..)

/-- What the buffer of a reader consists of: `queued` are whole frames before the last loss,
and `part` is the stream from the end of the frames `passed` to the last element kept. -/
structure Pieces (frames delivered : List (List α)) (buffer received : List α) (kept : Nat)
    (passed queued later : List (List α)) (part : List α) : Prop where
  frames_eq : passed ++ later = frames
  sublist : (delivered ++ queued).Sublist passed
  buffer_eq : buffer = queued.flatten ++ part
  part_prefix : part <+: later.flatten
  kept_eq : passed.flatten.length + part.length = kept
  kept_le : kept ≤ received.length
  received_prefix : received <+: frames.flatten

/-- The state of such a reader; `kept` is the position after the last element which it kept. -/
def LossyReassembly (frames delivered : List (List α)) (buffer received : List α) (kept : Nat) :
    Prop :=
  ∃ passed queued later part,
    Pieces frames delivered buffer received kept passed queued later part

section Rules

variable {frames delivered : List (List α)} {buffer received : List α} {kept : Nat}

theorem LossyReassembly.start (frames : List (List α)) : LossyReassembly frames [] [] [] 0 :=
  ⟨[], [], frames, [], rfl, List.Sublist.refl [], rfl, List.nil_prefix, rfl, Nat.le_refl 0,
    List.nil_prefix⟩

theorem LossyReassembly.sublist
    (reassembly : LossyReassembly frames delivered buffer received kept) :
    delivered.Sublist frames := by
  obtain ⟨passed, queued, later, part, pieces⟩ := reassembly
  have own := (List.sublist_append_left delivered queued).trans pieces.sublist
  exact own.trans (pieces.frames_eq ▸ List.sublist_append_left passed later)

/-- A chunk of which nothing is kept. -/
theorem LossyReassembly.lose (reassembly : LossyReassembly frames delivered buffer received kept)
    {chunk : List α} (stream : received ++ chunk <+: frames.flatten) :
    LossyReassembly frames delivered buffer (received ++ chunk) kept := by
  obtain ⟨passed, queued, later, part, pieces⟩ := reassembly
  refine ⟨passed, queued, later, part, { pieces with kept_le := ?_, received_prefix := stream }⟩
  rw [List.length_append]
  exact Nat.le_trans pieces.kept_le (Nat.le_add_right _ _)

/-- Two parts of one stream of the same length. -/
theorem eq_of_prefix_of_length {first second stream : List α} (firstPart : first <+: stream)
    (secondPart : second <+: stream) (same : first.length = second.length) : first = second :=
  (List.prefix_of_prefix_length_le firstPart secondPart (Nat.le_of_eq same)).eq_of_length same

theorem prefix_flatten {front : List (List α)} (part : front <+: frames) :
    front.flatten <+: frames.flatten := by
  obtain ⟨rest, rfl⟩ := part
  rw [List.flatten_append]
  exact List.prefix_append ..

theorem Pieces.kept_prefix {passed queued later : List (List α)} {part : List α}
    (pieces : Pieces frames delivered buffer received kept passed queued later part) :
    passed.flatten ++ part <+: frames.flatten := by
  rw [← pieces.frames_eq, List.flatten_append]
  exact (List.prefix_append_right_inj _).mpr pieces.part_prefix

/-- A chunk which follows the last element kept. -/
theorem LossyReassembly.receive
    (reassembly : LossyReassembly frames delivered buffer received kept)
    (contiguous : kept = received.length) {chunk taken : List α}
    (stream : received ++ chunk <+: frames.flatten) (front : taken <+: chunk) :
    LossyReassembly frames delivered (buffer ++ taken) (received ++ chunk)
      (received.length + taken.length) := by
  obtain ⟨passed, queued, later, part, pieces⟩ := reassembly
  have same : passed.flatten ++ part = received :=
    eq_of_prefix_of_length pieces.kept_prefix pieces.received_prefix
      (by rw [List.length_append, pieces.kept_eq, contiguous])
  have longer : received ++ taken <+: frames.flatten :=
    ((List.prefix_append_right_inj _).mpr front).trans stream
  refine ⟨passed, queued, later, part ++ taken, {
    frames_eq := pieces.frames_eq
    sublist := pieces.sublist
    buffer_eq := by rw [pieces.buffer_eq, List.append_assoc]
    part_prefix := ?_
    kept_eq := by rw [List.length_append, ← Nat.add_assoc, pieces.kept_eq, contiguous]
    kept_le := by
      rw [List.length_append]
      exact Nat.add_le_add_left front.length_le _
    received_prefix := stream }⟩
  rw [← same, List.append_assoc, ← pieces.frames_eq, List.flatten_append] at longer
  exact (List.prefix_append_right_inj _).mp longer

/-! ## Losses of whole frames -/

/-- Of two beginnings of a list of frames the one with the shorter stream is the shorter one. -/
theorem prefix_of_flatten_length_le (nonempty : ∀ frame ∈ frames, frame ≠ [])
    {first second : List (List α)} (firstPart : first <+: frames) (secondPart : second <+: frames)
    (le : first.flatten.length ≤ second.flatten.length) : first <+: second := by
  rcases List.prefix_or_prefix_of_prefix firstPart secondPart with shorter | longer
  · exact shorter
  · obtain ⟨extra, rfl⟩ := longer
    rw [List.flatten_append, List.length_append] at le
    have nothing : extra.flatten = [] := List.length_eq_zero_iff.mp (by omega)
    have none : extra = [] := by
      refine List.eq_nil_iff_forall_not_mem.mpr fun frame member => ?_
      have inside := firstPart.subset (List.mem_append_right second member)
      exact nonempty frame inside (List.flatten_eq_nil_iff.mp nothing frame member)
    rw [none, List.append_nil]

/-- What the reader has kept ends with a whole frame. -/
theorem Pieces.whole (nonempty : ∀ frame ∈ frames, frame ≠ [])
    {passed queued later : List (List α)} {part : List α}
    (pieces : Pieces frames delivered buffer received kept passed queued later part)
    (boundary : Boundary frames kept) :
    ∃ whole, passed ++ whole <+: frames ∧ part = whole.flatten := by
  obtain ⟨front, frontPart, position⟩ := boundary
  have passedPart : passed <+: frames := ⟨later, pieces.frames_eq⟩
  have length := pieces.kept_eq
  obtain ⟨whole, rfl⟩ := prefix_of_flatten_length_le nonempty passedPart frontPart (by omega)
  refine ⟨whole, frontPart, ?_⟩
  have same : passed.flatten ++ part = (passed ++ whole).flatten :=
    eq_of_prefix_of_length pieces.kept_prefix (prefix_flatten frontPart)
      (by rw [List.length_append, length, position])
  rw [List.flatten_append] at same
  exact List.append_cancel_left same

/-- A chunk which follows a loss of whole frames. -/
theorem LossyReassembly.resume (nonempty : ∀ frame ∈ frames, frame ≠ [])
    (reassembly : LossyReassembly frames delivered buffer received kept)
    (lost : Boundary frames kept) (found : Boundary frames received.length)
    {chunk taken : List α} (stream : received ++ chunk <+: frames.flatten)
    (front : taken <+: chunk) :
    LossyReassembly frames delivered (buffer ++ taken) (received ++ chunk)
      (received.length + taken.length) := by
  obtain ⟨passed, queued, later, part, pieces⟩ := reassembly
  obtain ⟨whole, wholePart, rfl⟩ := pieces.whole nonempty lost
  obtain ⟨reached, ⟨rest, rfl⟩, position⟩ := found
  have keptLe := pieces.kept_le
  have keptEq := pieces.kept_eq
  have before : passed ++ whole <+: reached := by
    refine prefix_of_flatten_length_le nonempty wholePart (List.prefix_append reached rest) ?_
    rw [List.flatten_append, List.length_append]
    omega
  have same : reached.flatten = received :=
    eq_of_prefix_of_length (prefix_flatten (List.prefix_append reached rest))
      pieces.received_prefix position
  refine ⟨reached, queued ++ whole, rest, taken, {
    frames_eq := rfl
    sublist := ?_
    buffer_eq := by rw [pieces.buffer_eq, List.flatten_append]
    part_prefix := ?_
    kept_eq := by rw [position]
    kept_le := by
      rw [List.length_append]
      exact Nat.add_le_add_left front.length_le _
    received_prefix := stream }⟩
  · rw [← List.append_assoc]
    exact (pieces.sublist.append_right whole).trans before.sublist
  · have longer := ((List.prefix_append_right_inj received).mpr front).trans stream
    rw [← same, List.flatten_append] at longer
    exact (List.prefix_append_right_inj _).mp longer

/-! ## Delivery -/

/-- The frame which the reader takes is one of the stream, and comes after those which it has
delivered. -/
theorem LossyReassembly.take (positive : 0 < format.header)
    (areFrames : ∀ frame ∈ frames, format.IsFrame frame)
    (reassembly : LossyReassembly frames delivered buffer received kept) {frame rest : List α}
    (next : format.next? buffer = some (frame, rest)) :
    LossyReassembly frames (delivered ++ [frame]) rest received kept := by
  obtain ⟨passed, queued, later, part, pieces⟩ := reassembly
  cases queued with
  | cons first others =>
      have member : first ∈ frames := by
        have inside : first ∈ passed :=
          pieces.sublist.subset (List.mem_append_right delivered List.mem_cons_self)
        exact pieces.frames_eq ▸ List.mem_append_left later inside
      rw [pieces.buffer_eq, List.flatten_cons, List.append_assoc,
        next?_append (areFrames first member)] at next
      cases next
      refine ⟨passed, others, later, part, { pieces with sublist := ?_, buffer_eq := rfl }⟩
      rw [List.append_assoc]
      exact pieces.sublist
  | nil =>
      have buffer_eq : buffer = part := pieces.buffer_eq
      have partPrefix := pieces.part_prefix
      cases later with
      | nil =>
          rw [buffer_eq, List.prefix_nil.mp partPrefix, next?_nil positive] at next
          cases next
      | cons first others =>
          have member : first ∈ frames :=
            pieces.frames_eq ▸ List.mem_append_right _ List.mem_cons_self
          rw [buffer_eq, next?_of_stream (areFrames first member) partPrefix] at next
          split at next
          · rename_i whole
            cases next
            rw [List.flatten_cons] at partPrefix
            obtain ⟨remaining, rfl⟩ :=
              List.prefix_of_prefix_length_le (List.prefix_append _ _) partPrefix whole
            have sublist := pieces.sublist
            have keptEq := pieces.kept_eq
            rw [List.append_nil] at sublist
            rw [List.length_append, ← Nat.add_assoc] at keptEq
            refine ⟨passed ++ [frame], [], others, remaining, { pieces with
              frames_eq := ?_, sublist := ?_, buffer_eq := ?_, part_prefix := ?_,
              kept_eq := ?_ }⟩
            · rw [List.append_assoc]
              exact pieces.frames_eq
            · rw [List.append_nil]
              exact sublist.append_right [frame]
            · rw [List.drop_left]
              rfl
            · exact (List.prefix_append_right_inj _).mp partPrefix
            · rw [List.flatten_append, List.flatten_singleton, List.length_append]
              exact keptEq
          · cases next

end Rules

end FrameFormat

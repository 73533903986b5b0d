import Mathlib

/-!
# Double buffering

Producers append to a write vector.  One consumer swaps it with its read vector, walks
along the read vector and clears it at the end of the walk; meanwhile elements may be erased
from the write vector.  Every element carries the number of its push, and the histories
record what was pushed, processed and erased; no operation looks at either.

`Accounted` is the refinement of one queue: what is processed, what is left of the read
vector and the write vector follow each other in the order of the pushes, and together with
the erased elements they are the pushed ones, each once.
-/

/-- The two vectors, the consumer's iterator and the histories. -/
structure DoubleBuffer (Element Cause : Type*) where
  write : List (Element × Nat) := []
  read : List (Element × Nat) := []
  position : Nat := 0
  pushed : List Element := []
  processed : List (Element × Nat) := []
  purged : List (Cause × Element × Nat) := []

namespace DoubleBuffer

variable {Element Cause : Type*}

def push (buffer : DoubleBuffer Element Cause) (element : Element) :
    DoubleBuffer Element Cause :=
  { buffer with
    write := buffer.write ++ [(element, buffer.pushed.length)]
    pushed := buffer.pushed ++ [element] }

/-- `std::swap` of the two vectors. -/
def swap (buffer : DoubleBuffer Element Cause) : DoubleBuffer Element Cause :=
  { buffer with
    write := buffer.read
    read := buffer.write }

/-- The elements of the read vector from the iterator on. -/
def unprocessed (buffer : DoubleBuffer Element Cause) : List (Element × Nat) :=
  buffer.read.drop buffer.position

/-- One round of the loop over the read vector; at its end the vector is cleared. -/
def iterate (buffer : DoubleBuffer Element Cause) : DoubleBuffer Element Cause :=
  match buffer.read[buffer.position]? with
  | some entry =>
      { buffer with
        position := buffer.position + 1
        processed := buffer.processed ++ [entry] }
  | none =>
      { buffer with
        read := []
        position := 0 }

/-- The elements which are hit are erased from the write vector. -/
def purge (buffer : DoubleBuffer Element Cause) (cause : Cause) (hits : Element → Bool) :
    DoubleBuffer Element Cause :=
  { buffer with
    write := buffer.write.filter fun entry => !hits entry.1
    purged := buffer.purged ++
      (buffer.write.filter fun entry => hits entry.1).map (Prod.mk cause) }

/-- The consumer is between two walks. -/
structure Idle (buffer : DoubleBuffer Element Cause) : Prop where
  read : buffer.read = []
  position : buffer.position = 0

/-- What is still in line, after what has been processed. -/
def line (buffer : DoubleBuffer Element Cause) : List (Element × Nat) :=
  buffer.processed ++ buffer.unprocessed ++ buffer.write

/-- The line is in the order of the pushes, and nothing is lost or doubled. -/
structure Accounted (buffer : DoubleBuffer Element Cause) : Prop where
  ordered : (buffer.line.map Prod.snd).Pairwise (· < ·)
  perm : (buffer.line ++ buffer.purged.map Prod.snd).Perm buffer.pushed.zipIdx

theorem accounted_empty : ({} : DoubleBuffer Element Cause).Accounted :=
  ⟨.nil, .refl _⟩

theorem idle_empty : ({} : DoubleBuffer Element Cause).Idle := ⟨rfl, rfl⟩

theorem Idle.unprocessed {buffer : DoubleBuffer Element Cause} (idle : buffer.Idle) :
    buffer.unprocessed = [] := by
  rw [DoubleBuffer.unprocessed, idle.read, List.drop_nil]

/-! ## What the operations do to the vectors -/

theorem map_write_push (buffer : DoubleBuffer Element Cause) (element : Element) :
    (buffer.push element).write.map Prod.fst = buffer.write.map Prod.fst ++ [element] :=
  List.map_append

theorem map_write_purge (buffer : DoubleBuffer Element Cause) (cause : Cause)
    (hits : Element → Bool) :
    (buffer.purge cause hits).write.map Prod.fst =
      (buffer.write.map Prod.fst).filter fun element => !hits element := by
  rw [List.filter_map]
  rfl

/-- The loop over the read vector leaves the write vector and what was erased alone. -/
theorem iterate_frame (buffer : DoubleBuffer Element Cause) :
    buffer.iterate.purged = buffer.purged ∧ buffer.iterate.write = buffer.write := by
  unfold iterate
  split <;> exact ⟨rfl, rfl⟩

theorem pushed_iterate (buffer : DoubleBuffer Element Cause) :
    buffer.iterate.pushed = buffer.pushed := by
  unfold iterate
  split <;> rfl

theorem iterate_of_nil {buffer : DoubleBuffer Element Cause}
    (done : buffer.unprocessed = []) :
    buffer.iterate = { buffer with
      read := []
      position := 0 } := by
  have ended : buffer.read[buffer.position]? = none := by
    rw [← List.head?_drop]
    exact congrArg List.head? done
  rw [iterate, ended]

theorem iterate_of_cons {buffer : DoubleBuffer Element Cause} {entry : Element × Nat}
    {rest : List (Element × Nat)} (front : buffer.unprocessed = entry :: rest) :
    buffer.iterate = { buffer with
        position := buffer.position + 1
        processed := buffer.processed ++ [entry] } ∧
      buffer.iterate.unprocessed = rest := by
  have here : buffer.read[buffer.position]? = some entry := by
    rw [← List.head?_drop]
    exact congrArg List.head? front
  have moved : buffer.iterate = { buffer with
      position := buffer.position + 1
      processed := buffer.processed ++ [entry] } := by
    rw [iterate, here]
  refine ⟨moved, ?_⟩
  rw [moved]
  have shorter := congrArg (List.drop 1) front
  rwa [DoubleBuffer.unprocessed, List.drop_drop] at shorter

/-- A consumer which knows the unprocessed elements takes the one at the iterator. -/
theorem iterate_front {buffer : DoubleBuffer Element Cause} {element : Element}
    {rest : List Element} (front : element :: rest = buffer.unprocessed.map Prod.fst) :
    rest = buffer.iterate.unprocessed.map Prod.fst := by
  obtain ⟨entry, left, split, _, mapped⟩ := List.map_eq_cons_iff.mp front.symm
  rw [(iterate_of_cons split).2, mapped]

/-- A consumer for which nothing is left ends the walk. -/
theorem iterate_done {buffer : DoubleBuffer Element Cause}
    (done : [] = buffer.unprocessed.map Prod.fst) :
    buffer.iterate.Idle ∧ [] = buffer.iterate.unprocessed.map Prod.fst := by
  have cleared := iterate_of_nil (List.map_eq_nil_iff.mp done.symm)
  have idle : buffer.iterate.Idle := cleared ▸ ⟨rfl, rfl⟩
  exact ⟨idle, by rw [idle.unprocessed]; rfl⟩

/-- A round of the loop processes the first of what is left, if anything is. -/
theorem map_processed_iterate (buffer : DoubleBuffer Element Cause) :
    buffer.iterate.processed.map Prod.fst =
      buffer.processed.map Prod.fst ++ (buffer.unprocessed.map Prod.fst).head?.toList := by
  cases front : buffer.unprocessed with
  | nil =>
      rw [iterate_of_nil front]
      exact (List.append_nil _).symm
  | cons entry rest =>
      rw [(iterate_of_cons front).1]
      exact List.map_append

/-- The erased elements with the cause of each. -/
theorem map_purged_purge (buffer : DoubleBuffer Element Cause) (cause : Cause)
    (hits : Element → Bool) :
    (buffer.purge cause hits).purged.map (fun erased => (erased.1, erased.2.1)) =
      buffer.purged.map (fun erased => (erased.1, erased.2.1)) ++
        ((buffer.write.map Prod.fst).filter hits).map (Prod.mk cause) := by
  rw [purge, List.map_append, List.map_map, List.filter_map, List.map_map]
  rfl

/-! ## The operations keep the account -/

/-- Whatever is in line, or was erased, has been pushed under its number. -/
theorem Accounted.pushed_of_mem {buffer : DoubleBuffer Element Cause}
    (accounted : buffer.Accounted) {entry : Element × Nat}
    (member : entry ∈ buffer.line ++ buffer.purged.map Prod.snd) :
    buffer.pushed[entry.2]? = some entry.1 :=
  List.mem_zipIdx_iff_getElem?.mp (accounted.perm.mem_iff.mp member)

theorem Accounted.mem_line {buffer : DoubleBuffer Element Cause} (accounted : buffer.Accounted)
    {entry : Element × Nat} (member : entry ∈ buffer.line) :
    buffer.pushed[entry.2]? = some entry.1 :=
  accounted.pushed_of_mem (List.mem_append_left _ member)

theorem Accounted.lt_of_mem_line {buffer : DoubleBuffer Element Cause}
    (accounted : buffer.Accounted) {entry : Element × Nat} (member : entry ∈ buffer.line) :
    entry.2 < buffer.pushed.length :=
  (List.getElem?_eq_some_iff.mp (accounted.mem_line member)).1

theorem Accounted.push {buffer : DoubleBuffer Element Cause} (accounted : buffer.Accounted)
    (element : Element) : (buffer.push element).Accounted := by
  have line : (buffer.push element).line = buffer.line ++ [(element, buffer.pushed.length)] := by
    unfold DoubleBuffer.line DoubleBuffer.push
    exact (List.append_assoc ..).symm
  refine ⟨?_, ?_⟩
  · rw [line, List.map_append]
    refine List.pairwise_append.mpr ⟨accounted.ordered, List.pairwise_singleton .., ?_⟩
    intro number member last isLast
    obtain ⟨entry, inLine, rfl⟩ := List.mem_map.mp member
    rw [List.mem_singleton.mp isLast]
    exact accounted.lt_of_mem_line inLine
  · rw [line]
    have numbered : (buffer.push element).pushed.zipIdx =
        buffer.pushed.zipIdx ++ [(element, buffer.pushed.length)] := by
      simp [DoubleBuffer.push, List.zipIdx_append]
    rw [numbered, List.append_assoc]
    have moved : ([(element, buffer.pushed.length)] ++ buffer.purged.map Prod.snd).Perm
        (buffer.purged.map Prod.snd ++ [(element, buffer.pushed.length)]) :=
      List.perm_append_comm
    refine (moved.append_left buffer.line).trans ?_
    rw [← List.append_assoc]
    exact accounted.perm.append_right _

theorem Accounted.swap {buffer : DoubleBuffer Element Cause} (accounted : buffer.Accounted)
    (idle : buffer.Idle) : buffer.swap.Accounted := by
  have line : buffer.swap.line = buffer.line := by
    unfold DoubleBuffer.line
    rw [idle.unprocessed]
    unfold DoubleBuffer.unprocessed DoubleBuffer.swap
    rw [idle.position, idle.read, List.drop_zero, List.append_nil, List.append_nil]
  exact ⟨line ▸ accounted.ordered, line ▸ accounted.perm⟩

theorem line_iterate (buffer : DoubleBuffer Element Cause) : buffer.iterate.line = buffer.line := by
  unfold DoubleBuffer.line
  cases front : buffer.unprocessed with
  | nil =>
      rw [iterate_of_nil front]
      rfl
  | cons entry rest =>
      obtain ⟨moved, left⟩ := iterate_of_cons front
      rw [left, moved]
      simp

theorem Accounted.iterate {buffer : DoubleBuffer Element Cause} (accounted : buffer.Accounted) :
    buffer.iterate.Accounted := by
  refine ⟨?_, ?_⟩
  · rw [line_iterate]
    exact accounted.ordered
  · rw [line_iterate, (iterate_frame buffer).1, pushed_iterate]
    exact accounted.perm

theorem Accounted.purge {buffer : DoubleBuffer Element Cause} (accounted : buffer.Accounted)
    (cause : Cause) (hits : Element → Bool) : (buffer.purge cause hits).Accounted := by
  have kept : (buffer.write.filter fun entry => !hits entry.1).Sublist buffer.write :=
    List.filter_sublist
  have line : (buffer.purge cause hits).line.Sublist buffer.line := kept.append_left _
  refine ⟨accounted.ordered.sublist (line.map Prod.snd), ?_⟩
  have purged : (buffer.purge cause hits).purged.map Prod.snd =
      buffer.purged.map Prod.snd ++ buffer.write.filter fun entry => hits entry.1 := by
    have paired : (Prod.snd ∘ Prod.mk cause : Element × Nat → Element × Nat) = id := rfl
    rw [DoubleBuffer.purge, List.map_append, List.map_map, paired, List.map_id]
  -- the two halves of the write vector come together again
  have halves : ((buffer.write.filter fun entry => !hits entry.1) ++
      buffer.write.filter fun entry => hits entry.1).Perm buffer.write :=
    List.perm_append_comm.trans (List.filter_append_perm _ _)
  rw [purged]
  refine List.Perm.trans ?_ accounted.perm
  have swapped : (buffer.purged.map Prod.snd ++
      buffer.write.filter fun entry => hits entry.1).Perm
        ((buffer.write.filter fun entry => hits entry.1) ++ buffer.purged.map Prod.snd) :=
    List.perm_append_comm
  have tails := (swapped.append_left (buffer.write.filter fun entry => !hits entry.1)).trans
    (List.append_assoc .. ▸ halves.append_right (buffer.purged.map Prod.snd))
  unfold DoubleBuffer.line
  rw [List.append_assoc, List.append_assoc (buffer.processed ++ buffer.unprocessed)]
  exact tails.append_left (buffer.processed ++ buffer.unprocessed)

/-! ## Each element is in one place -/

/-- Each pushed element is processed, left in the read vector, in the write vector or
erased, and only one of these. -/
theorem Accounted.exactly_once {buffer : DoubleBuffer Element Cause}
    (accounted : buffer.Accounted) {number : Nat} (pushed : number < buffer.pushed.length) :
    (buffer.processed.map Prod.snd).count number +
        (buffer.unprocessed.map Prod.snd).count number +
        (buffer.write.map Prod.snd).count number +
        (buffer.purged.map fun erased => erased.2.2).count number = 1 := by
  have perm := accounted.perm.map Prod.snd
  rw [List.zipIdx_map_snd, List.map_append, List.map_map] at perm
  have once : (List.range' 0 buffer.pushed.length).count number = 1 :=
    List.count_eq_one_of_mem List.nodup_range' (List.mem_range'_1.mpr ⟨Nat.zero_le _, by omega⟩)
  have counted := perm.count_eq number
  rw [once, List.count_append, DoubleBuffer.line, List.map_append, List.map_append,
    List.count_append, List.count_append] at counted
  exact counted

end DoubleBuffer

import Mathlib

/-!
# Outboxes

The entries of an outbox are issued in the order in which they were accepted, one at a
time: an entry is issued when the one before it has been completed.
-/

structure Outbox (Entry : Type*) where
  accepted : List Entry
  completed : Nat
  within : completed ≤ accepted.length

namespace Outbox

variable {Entry : Type*} (box : Outbox Entry)

def empty : Outbox Entry := ⟨[], 0, Nat.le_refl 0⟩

/-- The entries which were accepted and not completed. -/
def pending : List Entry := box.accepted.drop box.completed

def done : List Entry := box.accepted.take box.completed

/-- The completed entries and the front of the pending ones. -/
def issued : List Entry := box.accepted.take (box.completed + 1)

def accept (entry : Entry) : Outbox Entry where
  accepted := box.accepted ++ [entry]
  completed := box.completed
  within := by
    rw [List.length_append]
    exact Nat.le_add_right_of_le box.within

/-- The front of the pending entries is completed. -/
def complete (some : box.pending ≠ []) : Outbox Entry where
  accepted := box.accepted
  completed := box.completed + 1
  within := by
    rcases Nat.lt_or_ge box.completed box.accepted.length with more | all
    · exact more
    · exact absurd (List.drop_eq_nil_iff.mpr all) some

variable {box}

theorem done_append_pending : box.done ++ box.pending = box.accepted :=
  List.take_append_drop ..

theorem issued_eq : box.issued = box.done ++ box.pending.head?.toList := by
  rw [issued, List.take_add_one, done, pending, List.head?_drop]

theorem issued_prefix : box.issued <+: box.accepted := List.take_prefix ..

theorem done_prefix : box.done <+: box.accepted := List.take_prefix ..

theorem done_of_settled (settled : box.pending = []) : box.done = box.accepted := by
  rw [← done_append_pending, settled, List.append_nil]

theorem issued_of_settled (settled : box.pending = []) : box.issued = box.accepted := by
  rw [issued_eq, settled, done_of_settled settled]
  exact List.append_nil _

theorem done_accept (entry : Entry) : (box.accept entry).done = box.done :=
  List.take_append_of_le_length box.within

theorem pending_accept (entry : Entry) : (box.accept entry).pending = box.pending ++ [entry] :=
  List.drop_append_of_le_length box.within

/-- An entry is issued at once only when nothing else is pending. -/
theorem issued_accept (entry : Entry) : (box.accept entry).issued =
    if box.pending = [] then box.issued ++ [entry] else box.issued := by
  rw [issued_eq, done_accept, pending_accept, issued_eq]
  cases box.pending with
  | nil => simp
  | cons first rest => simp

theorem pending_complete (some : box.pending ≠ []) :
    (box.complete some).pending = box.pending.tail := by
  rw [pending, pending, List.tail_drop]
  rfl

theorem done_complete (some : box.pending ≠ []) : (box.complete some).done = box.issued := rfl

/-- A completion issues the next entry, if there is one. -/
theorem issued_complete (some : box.pending ≠ []) :
    (box.complete some).issued = box.issued ++ box.pending.tail.head?.toList := by
  rw [issued_eq, done_complete, pending_complete]

end Outbox

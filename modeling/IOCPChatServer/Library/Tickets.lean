import Mathlib

/-!
# Tickets

A fixed set of tickets is handed around: a ticket lies in a free list, is posted
with a request whose answer is awaited, or is held by whoever was served.  Nothing
makes this exclusive.  `count` is the number of places at which a ticket is found,
and each operation changes it by one; `Conserved` says that every ticket is in
exactly one place.
-/

/-- Where the tickets are. -/
structure Tickets (Ticket : Type) where
  free : List Ticket
  posted : List Ticket
  held : Ticket → Bool

namespace Tickets

variable {Ticket : Type} [DecidableEq Ticket]

/-- The number of places at which a ticket is found. -/
def count (tickets : Tickets Ticket) (ticket : Ticket) : Nat :=
  tickets.free.count ticket + tickets.posted.count ticket + (tickets.held ticket).toNat

/-- Every ticket is in exactly one place. -/
def Conserved (tickets : Tickets Ticket) : Prop := ∀ ticket, tickets.count ticket = 1

/-- Append to the free list. -/
def giveBack (tickets : Tickets Ticket) (ticket : Ticket) : Tickets Ticket :=
  { tickets with free := tickets.free ++ [ticket] }

/-- Remove the last ticket of the free list. -/
def takeLast (tickets : Tickets Ticket) : Tickets Ticket :=
  { tickets with free := tickets.free.dropLast }

def post (tickets : Tickets Ticket) (ticket : Ticket) : Tickets Ticket :=
  { tickets with posted := tickets.posted ++ [ticket] }

/-- Remove one posted request. -/
def answer (tickets : Tickets Ticket) (ticket : Ticket) : Tickets Ticket :=
  { tickets with posted := tickets.posted.erase ticket }

def setHeld (tickets : Tickets Ticket) (ticket : Ticket) (value : Bool) : Tickets Ticket :=
  { tickets with held := Function.update tickets.held ticket value }

/-- A holder hands its ticket back; nothing happens if the ticket is not held. -/
def handBack (tickets : Tickets Ticket) (ticket : Ticket) : Tickets Ticket :=
  if tickets.held ticket then (tickets.setHeld ticket false).giveBack ticket else tickets

/-- The last free ticket, if any, is taken and posted; a failed request loses it. -/
def postNext (tickets : Tickets Ticket) (posts : Bool) : Tickets Ticket :=
  match tickets.free.getLast? with
  | none => tickets
  | some ticket => if posts then tickets.takeLast.post ticket else tickets.takeLast

/-- One for the ticket itself, zero for every other. -/
def one (ticket other : Ticket) : Nat := if other = ticket then 1 else 0

@[simp]
theorem one_self (ticket : Ticket) : one ticket ticket = 1 := if_pos rfl

theorem one_of_ne {ticket other : Ticket} (different : other ≠ ticket) :
    one ticket other = 0 := if_neg different

theorem count_singleton (ticket other : Ticket) :
    List.count other [ticket] = one ticket other := by
  by_cases same : other = ticket
  · simp [same]
  · simp [one_of_ne same, Ne.symm same]

theorem count_giveBack (tickets : Tickets Ticket) (ticket other : Ticket) :
    (tickets.giveBack ticket).count other = tickets.count other + one ticket other := by
  simp only [count, giveBack, List.count_append, count_singleton]
  omega

theorem count_post (tickets : Tickets Ticket) (ticket other : Ticket) :
    (tickets.post ticket).count other = tickets.count other + one ticket other := by
  simp only [count, post, List.count_append, count_singleton]
  omega

theorem count_takeLast {tickets : Tickets Ticket} {ticket : Ticket}
    (last : tickets.free.getLast? = some ticket) (other : Ticket) :
    tickets.takeLast.count other + one ticket other = tickets.count other := by
  have split : tickets.free.dropLast ++ [ticket] = tickets.free :=
    List.dropLast_append_getLast? ticket last
  have counted := congrArg (List.count other) split
  simp only [List.count_append, count_singleton] at counted
  simp only [count, takeLast]
  omega

theorem count_answer {tickets : Tickets Ticket} {ticket : Ticket}
    (posted : ticket ∈ tickets.posted) (other : Ticket) :
    (tickets.answer ticket).count other + one ticket other = tickets.count other := by
  simp only [count, answer]
  by_cases same : other = ticket
  · subst same
    have positive := List.count_pos_iff.mpr posted
    rw [List.count_erase_self, one_self]
    omega
  · rw [List.count_erase_of_ne same, one_of_ne same]
    omega

/-- Holding a ticket, or letting go of it. -/
theorem count_setHeld (tickets : Tickets Ticket) (ticket other : Ticket) (value : Bool) :
    (tickets.setHeld ticket value).count other +
        (if other = ticket then (tickets.held ticket).toNat else 0) =
      tickets.count other + (if other = ticket then value.toNat else 0) := by
  simp only [count, setHeld]
  by_cases same : other = ticket
  · subst same
    simp only [Function.update_self, ↓reduceIte]
    omega
  · simp only [Function.update_of_ne same, same, ↓reduceIte]

theorem setHeld_eq_self (tickets : Tickets Ticket) {ticket : Ticket} {value : Bool}
    (same : tickets.held ticket = value) : tickets.setHeld ticket value = tickets := by
  rw [setHeld, ← same, Function.update_eq_self]

theorem count_handBack (tickets : Tickets Ticket) (ticket other : Ticket) :
    (tickets.handBack ticket).count other = tickets.count other := by
  unfold handBack
  split
  · rename_i held
    have released := count_setHeld tickets ticket other false
    rw [count_giveBack]
    unfold one
    rw [held] at released
    simp only [Bool.toNat_true, Bool.toNat_false] at released
    split at released
    · rename_i same
      rw [if_pos same]
      omega
    · rename_i different
      rw [if_neg different]
      omega
  · rfl

/-- Posting loses a ticket just when there is one to post and the request fails. -/
theorem conserved_postNext_iff {tickets : Tickets Ticket} (conserved : tickets.Conserved)
    (posts : Bool) :
    (tickets.postNext posts).Conserved ↔ posts = true ∨ tickets.free = [] := by
  unfold postNext
  cases last : tickets.free.getLast? with
  | none => simp [conserved, List.getLast?_eq_none_iff.mp last]
  | some ticket =>
      have notEmpty : tickets.free ≠ [] := by
        intro empty
        rw [empty] at last
        cases last
      cases posts with
      | true =>
          refine ⟨fun _ => Or.inl rfl, fun _ other => ?_⟩
          have taken := count_takeLast last other
          exact (count_post tickets.takeLast ticket other).trans (taken.trans (conserved other))
      | false =>
          refine ⟨fun after => ?_, fun cases_ => ?_⟩
          · have taken := count_takeLast last ticket
            have lost := after ticket
            have before := conserved ticket
            simp only [Bool.false_eq_true, ↓reduceIte] at lost
            rw [one_self] at taken
            omega
          · exact absurd (cases_.resolve_left nofun) notEmpty

/-- Posting puts no ticket in a further place. -/
theorem count_postNext_le (tickets : Tickets Ticket) (posts : Bool) (other : Ticket) :
    (tickets.postNext posts).count other ≤ tickets.count other := by
  unfold postNext
  cases last : tickets.free.getLast? with
  | none => exact Nat.le_refl _
  | some ticket =>
      have taken := count_takeLast last other
      cases posts with
      | true =>
          exact Nat.le_of_eq ((count_post tickets.takeLast ticket other).trans taken)
      | false =>
          simp only [Bool.false_eq_true, ↓reduceIte]
          omega

/-- Letting go of a ticket without handing it back loses it, if it was held. -/
theorem conserved_setHeld_false_iff {tickets : Tickets Ticket} (conserved : tickets.Conserved)
    (ticket : Ticket) :
    (tickets.setHeld ticket false).Conserved ↔ tickets.held ticket = false := by
  constructor
  · intro after
    have released := count_setHeld tickets ticket ticket false
    rw [after ticket, conserved ticket] at released
    simpa using released
  · intro notHeld
    rw [setHeld_eq_self _ notHeld]
    exact conserved

/-- An answered ticket is nowhere until it becomes held. -/
theorem count_answer_setHeld {tickets : Tickets Ticket} (conserved : tickets.Conserved)
    {ticket : Ticket} (posted : ticket ∈ tickets.posted) (value : Bool) (other : Ticket) :
    ((tickets.answer ticket).setHeld ticket value).count other =
      if other = ticket then value.toNat else 1 := by
  have notHeld : (tickets.answer ticket).held ticket = false := by
    have total := conserved ticket
    have positive := List.count_pos_iff.mpr posted
    cases held : tickets.held ticket with
    | false => exact held
    | true =>
        rw [count, held, Bool.toNat_true] at total
        omega
  have changed := count_setHeld (tickets.answer ticket) ticket other value
  have answered := count_answer posted other
  simp only [notHeld, Bool.toNat_false, ite_self, Nat.add_zero] at changed
  rw [conserved other] at answered
  rw [changed]
  by_cases same : other = ticket
  · rw [same, one_self] at answered
    simp only [same, ↓reduceIte]
    omega
  · rw [one_of_ne same] at answered
    simp only [same, ↓reduceIte]
    exact answered

theorem conserved_answer_setHeld_iff {tickets : Tickets Ticket}
    (conserved : tickets.Conserved) {ticket : Ticket} (posted : ticket ∈ tickets.posted)
    (value : Bool) :
    ((tickets.answer ticket).setHeld ticket value).Conserved ↔ value = true := by
  unfold Conserved
  simp only [count_answer_setHeld conserved posted]
  constructor
  · intro all
    have own := all ticket
    cases value with
    | true => rfl
    | false => simp at own
  · rintro rfl other
    split
    · rfl
    · rfl

/-- What is conserved after posting was conserved before, if no ticket was in two
places. -/
theorem conserved_of_postNext {tickets : Tickets Ticket} {posts : Bool}
    (atMost : ∀ ticket, tickets.count ticket ≤ 1)
    (after : (tickets.postNext posts).Conserved) : tickets.Conserved := by
  intro ticket
  have least := count_postNext_le tickets posts ticket
  rw [after ticket] at least
  exact Nat.le_antisymm (atMost ticket) least

/-! ## Is anybody being served -/

/-- While tickets are free, one of them is posted. -/
def Served (tickets : Tickets Ticket) : Prop := tickets.free ≠ [] → tickets.posted ≠ []

omit [DecidableEq Ticket] in
theorem served_postNext_iff (tickets : Tickets Ticket) (posts : Bool) :
    (tickets.postNext posts).Served ↔
      tickets.posted ≠ [] ∨ posts = true ∨ tickets.free.length ≤ 1 := by
  unfold postNext
  cases last : tickets.free.getLast? with
  | none =>
      have empty := List.getLast?_eq_none_iff.mp last
      simp [Served, empty]
  | some ticket =>
      have left : tickets.free.dropLast ≠ [] ↔ ¬ tickets.free.length ≤ 1 := by
        rw [← List.length_pos_iff, List.length_dropLast]
        omega
      cases posts with
      | true => simp [Served, takeLast, post]
      | false =>
          simp only [Served, takeLast, left, Bool.false_eq_true, ↓reduceIte, false_or]
          rw [or_comm, Decidable.or_iff_not_imp_left]

theorem served_handBack_iff {tickets : Tickets Ticket} (served : tickets.Served)
    (ticket : Ticket) :
    (tickets.handBack ticket).Served ↔
      (tickets.held ticket = true → tickets.posted ≠ []) := by
  unfold handBack
  split
  · rename_i held
    simp [Served, giveBack, setHeld, held]
  · rename_i free
    exact ⟨fun _ held => absurd held free, fun _ => served⟩

end Tickets

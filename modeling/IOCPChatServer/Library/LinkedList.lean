import Mathlib

/-!
# Linked lists in memory

A list of addresses is linked from its head if each of them is where the link before it
points to, and the last link is the null pointer.  The head and the links decide the list,
so a linked list has no address twice.
-/

variable {Address : Type*} {next other : Address → Address} {null head : Address}

/-- The addresses which are reached from the head until the null pointer. -/
def Linked (next : Address → Address) (null : Address) : Address → List Address → Prop
  | head, [] => head = null
  | head, first :: rest => head = first ∧ first ≠ null ∧ Linked next null (next first) rest

namespace Linked

/-- A null head is the empty list. -/
theorem eq_nil {list : List Address} (linked : Linked next null null list) : list = [] := by
  cases list with
  | nil => rfl
  | cons first rest => exact absurd linked.1.symm linked.2.1

/-- Links which agree at the addresses of the list link the same list. -/
theorem congr {list : List Address} (linked : Linked next null head list)
    (agree : ∀ address ∈ list, other address = next address) : Linked other null head list := by
  induction list generalizing head with
  | nil => exact linked
  | cons first rest ih =>
      obtain ⟨here, notNull, later⟩ := linked
      refine ⟨here, notNull, ?_⟩
      rw [agree first List.mem_cons_self]
      exact ih later fun address member => agree address (List.mem_cons_of_mem first member)

theorem unique {first second : List Address} (one : Linked next null head first)
    (two : Linked next null head second) : first = second := by
  induction first generalizing head second with
  | nil =>
      obtain rfl : head = null := one
      exact two.eq_nil.symm
  | cons address rest ih =>
      obtain ⟨rfl, notNull, later⟩ := one
      cases second with
      | nil => exact absurd two notNull
      | cons address' rest' =>
          obtain ⟨rfl, _, later'⟩ := two
          rw [ih later later']

/-- From an address of the list on, the rest of the list is linked. -/
theorem suffix {before rest : List Address} {address : Address}
    (linked : Linked next null head (before ++ address :: rest)) :
    Linked next null address (address :: rest) := by
  induction before generalizing head with
  | nil =>
      obtain ⟨rfl, notNull, later⟩ := linked
      exact ⟨rfl, notNull, later⟩
  | cons first between ih => exact ih linked.2.2

/-- The suffixes from one address on are equal, so no address is reached twice. -/
theorem nodup {list : List Address} (linked : Linked next null head list) : list.Nodup := by
  induction list generalizing head with
  | nil => exact List.nodup_nil
  | cons first rest ih =>
      refine List.nodup_cons.mpr ⟨fun again => ?_, ih linked.2.2⟩
      obtain ⟨between, last, split⟩ := List.append_of_mem again
      obtain ⟨rfl, notNull, later⟩ := linked
      have whole : Linked next null head (head :: rest) := ⟨rfl, notNull, later⟩
      have inner : Linked next null head (head :: last) := (split ▸ later).suffix
      have same := congrArg List.length (whole.unique inner)
      have longer := congrArg List.length split
      simp only [List.length_cons, List.length_append] at same longer
      omega

/-- Two linked lists of the same addresses have the same head. -/
theorem head_eq_of_perm {start : Address} {first second : List Address}
    (one : Linked next null head first) (two : Linked next null start second)
    (same : first.Perm second) : head = start := by
  cases second with
  | nil =>
      obtain rfl := List.perm_nil.mp same
      exact one.trans two.symm
  | cons address rest =>
      obtain ⟨rfl, notNull, later⟩ := two
      have member : start ∈ first := same.mem_iff.mpr List.mem_cons_self
      obtain ⟨before, last, rfl⟩ := List.append_of_mem member
      have tail : start :: last = start :: rest := one.suffix.unique ⟨rfl, notNull, later⟩
      have longer := same.length_eq
      rw [List.length_append, congrArg List.length tail] at longer
      have noneBefore : before = [] := List.length_eq_zero_iff.mp (by omega)
      subst noneBefore
      exact one.1

end Linked

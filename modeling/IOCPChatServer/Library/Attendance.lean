import IOCPChatServer.Library.Execution
import Mathlib

/-!
# Attendance logs

A log says who entered and who left which place, in order.  It replays to the list of who
is present, unless somebody enters twice or leaves a place where he is not.  A log records
a list of members when it replays to that list up to order; what the next entry has to meet
is then told by the members alone.
-/

namespace Attendance

variable {Person Place : Type*} [DecidableEq Person] [DecidableEq Place]

inductive Entry (Person Place : Type*) where
  | enter (person : Person) (place : Place)
  | leave (person : Person) (place : Place)
  deriving DecidableEq, Repr

/-- Who is present after one more entry. -/
def apply (present : List (Person × Place)) :
    Entry Person Place → Option (List (Person × Place))
  | .enter person place =>
      if person ∈ present.map Prod.fst then none else some (present ++ [(person, place)])
  | .leave person place =>
      if (person, place) ∈ present then some (present.erase (person, place)) else none

/-- Who is present after the log. -/
def replay (log : List (Entry Person Place)) : Option (List (Person × Place)) :=
  Execution.run? apply [] log

theorem replay_append_singleton (log : List (Entry Person Place))
    (entry : Entry Person Place) :
    replay (log ++ [entry]) = (replay log).bind fun present => apply present entry := by
  unfold replay
  rw [Execution.run?_append]
  congr 1
  funext present
  exact Option.bind_fun_some _

/-- Nobody is present twice. -/
theorem nodup_apply {present next : List (Person × Place)} {entry : Entry Person Place}
    (nodup : (present.map Prod.fst).Nodup) (applied : apply present entry = some next) :
    (next.map Prod.fst).Nodup := by
  cases entry with
  | enter person place =>
      obtain ⟨absent, added⟩ := Option.ite_none_left_eq_some.mp applied
      cases added
      rw [List.map_append]
      exact nodup.append (List.nodup_singleton _) (List.disjoint_singleton.mpr absent)
  | leave person place =>
      obtain ⟨_, erased⟩ := Option.ite_none_right_eq_some.mp applied
      cases erased
      exact nodup.sublist (List.erase_sublist.map Prod.fst)

theorem nodup_replay {log : List (Entry Person Place)} {present : List (Person × Place)}
    (replayed : replay log = some present) : (present.map Prod.fst).Nodup := by
  have preserved (before : List (Person × Place)) (entry : Entry Person Place)
      (after : List (Person × Place)) (nodup : (before.map Prod.fst).Nodup)
      (applied : apply before entry = some after) : (after.map Prod.fst).Nodup :=
    nodup_apply nodup applied
  have nobody : (([] : List (Person × Place)).map Prod.fst).Nodup := List.nodup_nil
  exact (Execution.always_of_invariant preserved nobody log).last replayed

/-- The log replays to these members, in some order. -/
def Records (log : List (Entry Person Place)) (members : List (Person × Place)) : Prop :=
  ∃ present, replay log = some present ∧ present.Perm members

theorem records_nil : Records ([] : List (Entry Person Place)) [] := ⟨[], rfl, .refl _⟩

theorem Records.nodup {log : List (Entry Person Place)} {members : List (Person × Place)}
    (records : Records log members) : (members.map Prod.fst).Nodup := by
  obtain ⟨present, replayed, same⟩ := records
  exact (same.map Prod.fst).nodup_iff.mp (nodup_replay replayed)

/-- A log records a list up to order and nothing else. -/
theorem Records.iff_perm {log : List (Entry Person Place)} {members other : List (Person × Place)}
    (records : Records log members) : Records log other ↔ members.Perm other := by
  obtain ⟨present, replayed, same⟩ := records
  constructor
  · rintro ⟨present', replayed', same'⟩
    cases replayed.symm.trans replayed'
    exact same.symm.trans same'
  · exact fun perm => ⟨present, replayed, same.trans perm⟩

/-- Who enters was absent and is present. -/
theorem Records.enter_iff {log : List (Entry Person Place)} {members after : List (Person × Place)}
    {person : Person} {place : Place} (records : Records log members) :
    Records (log ++ [.enter person place]) after ↔
      person ∉ members.map Prod.fst ∧ ((person, place) :: members).Perm after := by
  obtain ⟨present, replayed, same⟩ := records
  unfold Records
  rw [replay_append_singleton, replayed, Option.bind_some, ← (same.map Prod.fst).mem_iff]
  simp only [apply, Option.ite_none_left_eq_some, Option.some.injEq]
  have added : (present ++ [(person, place)]).Perm ((person, place) :: members) :=
    (List.perm_append_singleton _ _).trans (same.cons _)
  constructor
  · rintro ⟨_, ⟨absent, rfl⟩, perm⟩
    exact ⟨absent, added.symm.trans perm⟩
  · rintro ⟨absent, perm⟩
    exact ⟨_, ⟨absent, rfl⟩, added.trans perm⟩

/-- Who leaves was present and is absent. -/
theorem Records.leave_iff {log : List (Entry Person Place)} {members after : List (Person × Place)}
    {person : Person} {place : Place} (records : Records log members) :
    Records (log ++ [.leave person place]) after ↔
      members.Perm ((person, place) :: after) := by
  obtain ⟨present, replayed, same⟩ := records
  unfold Records
  rw [replay_append_singleton, replayed, Option.bind_some]
  simp only [apply, Option.ite_none_right_eq_some, Option.some.injEq]
  constructor
  · rintro ⟨_, ⟨member, rfl⟩, perm⟩
    exact same.symm.trans ((List.perm_cons_erase member).trans (perm.cons _))
  · intro perm
    have member : (person, place) ∈ present :=
      same.mem_iff.mpr (perm.mem_iff.mpr List.mem_cons_self)
    exact ⟨_, ⟨member, rfl⟩,
      ((List.perm_cons_erase member).symm.trans (same.trans perm)).cons_inv⟩

end Attendance

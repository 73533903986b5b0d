import Mathlib

/-!
# Rosters

Members come and go.  A roster keeps who is present, a counter of them, and for each
member the arrivals (`true`) and departures (`false`) which were announced.  Presence,
counter and announcements are separate records; `Balanced` says that they agree.
-/

/-- Two predicates which differ at most at one element of a list without repetitions. -/
theorem countP_of_agree {α : Type} {first second : α → Bool} {index : α} {list : List α}
    (agree : ∀ other, other ≠ index → first other = second other) (nodup : list.Nodup)
    (member : index ∈ list) :
    list.countP first + (second index).toNat = list.countP second + (first index).toNat := by
  induction list with
  | nil => exact absurd member List.not_mem_nil
  | cons head rest ih =>
      obtain ⟨fresh, restNodup⟩ := List.nodup_cons.mp nodup
      rw [List.countP_cons, List.countP_cons]
      rcases List.mem_cons.mp member with rfl | later
      · have same : rest.countP first = rest.countP second :=
          List.countP_congr fun other inRest => by
            rw [agree other fun equal => fresh (equal ▸ inRest)]
        rw [same]
        cases first index <;> cases second index <;> simp
      · have different : head ≠ index := fun equal => fresh (equal ▸ later)
        have counted := ih restNodup later
        rw [agree head different]
        omega

/-- Signals which alternate, beginning with the given one. -/
def Alternating : Bool → List Bool → Prop
  | _, [] => True
  | first, signal :: rest => signal = first ∧ Alternating (!first) rest

/-- One more signal must differ from the last one. -/
theorem alternating_append_singleton {first signal : Bool} {signals : List Bool} :
    Alternating first (signals ++ [signal]) ↔
      Alternating first signals ∧ signal = !(signals.getLastD (!first)) := by
  induction signals generalizing first with
  | nil => simp [Alternating]
  | cons head rest ih =>
      rw [List.cons_append]
      simp only [Alternating, ih, and_assoc]
      refine and_congr_right fun same => and_congr_right fun _ => ?_
      rw [same, Bool.not_not, List.getLastD_cons]

@[ext]
structure Roster (Member : Type) where
  present : Member → Bool
  signals : Member → List Bool
  count : Int

namespace Roster

variable {Member : Type} [DecidableEq Member]

/-- The last signal of the member was an arrival. -/
def arrived (roster : Roster Member) (member : Member) : Bool :=
  (roster.signals member).getLastD false

def setPresent (roster : Roster Member) (member : Member) (value : Bool) : Roster Member :=
  { roster with present := Function.update roster.present member value }

def announce (roster : Roster Member) (member : Member) (signal : Bool) : Roster Member :=
  { roster with
    signals := Function.update roster.signals member (roster.signals member ++ [signal]) }

/-- The arrival of a member. -/
def enroll (roster : Roster Member) (member : Member) : Roster Member :=
  { (roster.setPresent member true).announce member true with count := roster.count + 1 }

/-- The departure of a member; nothing happens to one who is not present. -/
def dismiss (roster : Roster Member) (member : Member) : Roster Member :=
  if roster.present member then
    { (roster.setPresent member false).announce member false with count := roster.count - 1 }
  else roster

/-- Presence, announcements and counter agree; `members` lists everybody. -/
structure Balanced (roster : Roster Member) (members : List Member) : Prop where
  alternates : ∀ member, Alternating true (roster.signals member)
  dismissed : ∀ member, roster.present member = false → roster.arrived member = false
  counted : roster.count = (members.countP roster.present : Nat)

/-- Who is present has arrived. -/
def Announced (roster : Roster Member) : Prop :=
  ∀ member, roster.present member = true → roster.arrived member = true

omit [DecidableEq Member] in
theorem arrived_eq_false_iff {roster : Roster Member} {member : Member} :
    roster.arrived member = false ↔ (roster.signals member).getLast? ≠ some true := by
  unfold arrived
  rw [List.getLastD_eq_getLast?]
  rcases (roster.signals member).getLast? with _ | signal
  · simp
  · cases signal <;> simp

theorem setPresent_eq_self (roster : Roster Member) {member : Member} {value : Bool}
    (same : roster.present member = value) : roster.setPresent member value = roster := by
  rw [setPresent, ← same, Function.update_eq_self]

theorem arrived_announce_self (roster : Roster Member) (member : Member) (signal : Bool) :
    (roster.announce member signal).arrived member = signal := by
  unfold arrived announce
  dsimp only
  rw [Function.update_self, List.getLastD_concat]

theorem arrived_announce_of_ne (roster : Roster Member) {member other : Member}
    (signal : Bool) (different : other ≠ member) :
    (roster.announce member signal).arrived other = roster.arrived other := by
  unfold arrived announce
  dsimp only
  rw [Function.update_of_ne different]

theorem alternates_announce_iff {roster : Roster Member}
    (alternates : ∀ member, Alternating true (roster.signals member)) (member : Member)
    (signal : Bool) :
    (∀ other, Alternating true ((roster.announce member signal).signals other)) ↔
      signal = !roster.arrived member := by
  have own : (roster.announce member signal).signals member =
      roster.signals member ++ [signal] := Function.update_self ..
  constructor
  · intro all
    have last := all member
    rw [own, alternating_append_singleton] at last
    exact last.2
  · intro last other
    rcases eq_or_ne other member with rfl | different
    · rw [own, alternating_append_singleton]
      exact ⟨alternates other, last⟩
    · have same : (roster.announce member signal).signals other = roster.signals other :=
        Function.update_of_ne different ..
      rw [same]
      exact alternates other

/-- The number of members who are present changes by the one member. -/
theorem countP_setPresent (roster : Roster Member) {members : List Member}
    (nodup : members.Nodup) {member : Member} (listed : member ∈ members) (value : Bool) :
    members.countP (roster.setPresent member value).present +
        (roster.present member).toNat =
      members.countP roster.present + value.toNat := by
  have others : ∀ other, other ≠ member →
      (roster.setPresent member value).present other = roster.present other :=
    fun other different => Function.update_of_ne different ..
  rw [countP_of_agree others nodup listed]
  simp [setPresent]

section Members

variable {roster : Roster Member} {members : List Member}

theorem balanced_enroll (balanced : roster.Balanced members) (nodup : members.Nodup)
    {member : Member} (listed : member ∈ members) (absent : roster.present member = false) :
    (roster.enroll member).Balanced members where
  alternates := by
    refine (alternates_announce_iff balanced.alternates member true).mpr ?_
    rw [balanced.dismissed member absent]
    rfl
  dismissed := by
    intro other gone
    have different : other ≠ member := by
      rintro rfl
      exact nomatch (Function.update_self ..).symm.trans gone
    have before : roster.present other = false :=
      (Function.update_of_ne different ..).symm.trans gone
    exact (arrived_announce_of_ne roster true different).trans
      (balanced.dismissed other before)
  counted := by
    have counted := roster.countP_setPresent nodup listed true
    rw [absent, Bool.toNat_false, Bool.toNat_true] at counted
    have before := balanced.counted
    simp only [enroll, announce]
    omega

/-- Whoever was announced may go. -/
theorem balanced_dismiss (balanced : roster.Balanced members) (announced : roster.Announced)
    (nodup : members.Nodup) {member : Member} (listed : member ∈ members) :
    (roster.dismiss member).Balanced members := by
  unfold dismiss
  split
  · rename_i present
    refine ⟨?_, fun other gone => ?_, ?_⟩
    · refine (alternates_announce_iff balanced.alternates member false).mpr ?_
      rw [announced member present]
      rfl
    · rcases eq_or_ne other member with rfl | different
      · exact arrived_announce_self roster other false
      · have before : roster.present other = false :=
          (Function.update_of_ne different ..).symm.trans gone
        exact (arrived_announce_of_ne roster false different).trans
          (balanced.dismissed other before)
    · have counted := roster.countP_setPresent nodup listed false
      rw [present, Bool.toNat_false, Bool.toNat_true] at counted
      have before := balanced.counted
      simp only [announce]
      omega
  · exact balanced

/-- Who goes without an announcement leaves the announcements wrong. -/
theorem balanced_setPresent_false_iff (balanced : roster.Balanced members)
    (announced : roster.Announced) (member : Member) :
    (roster.setPresent member false).Balanced members ↔ roster.present member = false := by
  constructor
  · intro after
    cases present : roster.present member with
    | false => rfl
    | true =>
        have gone := after.dismissed member (Function.update_self ..)
        exact absurd (announced member present) (by rw [← Bool.not_eq_true] at gone; exact gone)
  · intro absent
    rw [setPresent_eq_self _ absent]
    exact balanced

/-- The departure of somebody who had not arrived is announced once too often. -/
theorem not_balanced_dismiss (balanced : roster.Balanced members) {member : Member}
    (absent : roster.present member = false) :
    ¬ ((roster.setPresent member true).dismiss member).Balanced members := by
  intro after
  have present : (roster.setPresent member true).present member = true :=
    Function.update_self ..
  unfold dismiss at after
  rw [if_pos present] at after
  have last := (alternates_announce_iff balanced.alternates member false).mp after.alternates
  rw [balanced.dismissed member absent] at last
  cases last

theorem announced_enroll (announced : roster.Announced) (member : Member) :
    (roster.enroll member).Announced := by
  intro other present
  rcases eq_or_ne other member with rfl | different
  · exact arrived_announce_self roster other true
  · exact (arrived_announce_of_ne roster true different).trans
      (announced other ((Function.update_of_ne different ..).symm.trans present))

theorem announced_setPresent_false (announced : roster.Announced) (member : Member) :
    (roster.setPresent member false).Announced := by
  intro other present
  have different : other ≠ member := by
    rintro rfl
    exact nomatch (Function.update_self ..).symm.trans present
  exact announced other ((Function.update_of_ne different ..).symm.trans present)

/-- After a departure only the others need to have arrived. -/
theorem announced_dismiss {member : Member}
    (others : ∀ other, other ≠ member → roster.present other = true →
      roster.arrived other = true) : (roster.dismiss member).Announced := by
  unfold dismiss
  split
  · intro other present
    have different : other ≠ member := by
      rintro rfl
      exact nomatch (Function.update_self ..).symm.trans present
    exact (arrived_announce_of_ne roster false different).trans
      (others other different ((Function.update_of_ne different ..).symm.trans present))
  · rename_i absent
    intro other present
    exact others other (fun same => absent (same ▸ present)) present

end Members

end Roster

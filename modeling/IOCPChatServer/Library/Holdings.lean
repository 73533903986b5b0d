import Mathlib

/-!
# Holdings

Blocks lie in a free list or are held in the queues of their owners.  An owner takes the
last free block to the end of its queue and returns the front of its queue to the end of
the free list.  `count` is the number of places at which a block is found; neither
operation changes it.
-/

/-- A sum over a list without repetitions, when one summand changes. -/
theorem sum_map_of_agree {α : Type} {first second : α → Nat} {index : α} {list : List α}
    (agree : ∀ other, other ≠ index → first other = second other) (nodup : list.Nodup)
    (member : index ∈ list) :
    (list.map first).sum + second index = (list.map second).sum + first index := by
  induction list with
  | nil => exact absurd member List.not_mem_nil
  | cons head rest ih =>
      obtain ⟨fresh, restNodup⟩ := List.nodup_cons.mp nodup
      rw [List.map_cons, List.map_cons, List.sum_cons, List.sum_cons]
      rcases List.mem_cons.mp member with rfl | later
      · have same : rest.map first = rest.map second :=
          List.map_congr_left fun other inRest => agree other fun equal => fresh (equal ▸ inRest)
        rw [same]
        omega
      · have different : head ≠ index := fun equal => fresh (equal ▸ later)
        have summed := ih restNodup later
        rw [agree head different]
        omega

structure Holdings (Owner Block : Type) where
  free : List Block
  held : Owner → List Block

namespace Holdings

variable {Owner Block : Type} [DecidableEq Owner]

/-- The last free block goes to the end of the owner's queue. -/
def take (holdings : Holdings Owner Block) (owner : Owner) (block : Block) :
    Holdings Owner Block where
  free := holdings.free.dropLast
  held := Function.update holdings.held owner (holdings.held owner ++ [block])

/-- The front of the owner's queue goes to the end of the free list. -/
def release (holdings : Holdings Owner Block) (owner : Owner) (block : Block) :
    Holdings Owner Block where
  free := holdings.free ++ [block]
  held := Function.update holdings.held owner (holdings.held owner).tail

variable [DecidableEq Block]

/-- The number of places at which a block is found. -/
def count (holdings : Holdings Owner Block) (owners : List Owner) (block : Block) : Nat :=
  holdings.free.count block + (owners.map fun owner => (holdings.held owner).count block).sum

variable {holdings : Holdings Owner Block} {owners : List Owner}

omit [DecidableEq Owner] in
/-- While nobody holds anything, the blocks are those of the free list. -/
theorem count_of_idle (idle : ∀ owner, holdings.held owner = []) (block : Block) :
    holdings.count owners block = holdings.free.count block := by
  unfold count
  simp only [idle, List.count_nil]
  induction owners with
  | nil => rfl
  | cons owner rest ih => rwa [List.map_cons, List.sum_cons, Nat.zero_add]

/-- One queue is replaced. -/
theorem sum_update (nodup : owners.Nodup) {owner : Owner} (listed : owner ∈ owners)
    (queue : List Block) (block : Block) :
    (owners.map fun other => (Function.update holdings.held owner queue other).count block).sum +
        (holdings.held owner).count block =
      (owners.map fun other => (holdings.held other).count block).sum + queue.count block := by
  have agree : ∀ other, other ≠ owner →
      (Function.update holdings.held owner queue other).count block =
        (holdings.held other).count block :=
    fun other different => by rw [Function.update_of_ne different]
  have summed := sum_map_of_agree agree nodup listed
  rwa [Function.update_self] at summed

/-- A queue accounts for no more blocks than there are in all places. -/
theorem count_held_le (nodup : owners.Nodup) {owner : Owner} (listed : owner ∈ owners)
    (block : Block) :
    holdings.free.count block + (holdings.held owner).count block ≤
      holdings.count owners block := by
  have summed := holdings.sum_update nodup listed [] block
  rw [List.count_nil] at summed
  unfold count
  omega

theorem count_take (nodup : owners.Nodup) {owner : Owner} (listed : owner ∈ owners)
    {block : Block} (last : holdings.free.getLast? = some block) (other : Block) :
    (holdings.take owner block).count owners other = holdings.count owners other := by
  have split : holdings.free.dropLast ++ [block] = holdings.free :=
    List.dropLast_append_getLast? block last
  have freed := congrArg (List.count other) split
  have summed := holdings.sum_update nodup listed (holdings.held owner ++ [block]) other
  rw [List.count_append] at freed summed
  unfold count take
  dsimp only
  omega

theorem count_release (nodup : owners.Nodup) {owner : Owner} (listed : owner ∈ owners)
    {block : Block} {rest : List Block} (front : holdings.held owner = block :: rest)
    (other : Block) :
    (holdings.release owner block).count owners other = holdings.count owners other := by
  have summed := holdings.sum_update nodup listed (holdings.held owner).tail other
  rw [front, List.tail_cons, List.count_cons] at summed
  unfold count release
  dsimp only
  rw [front, List.tail_cons, List.count_append, List.count_singleton]
  omega

end Holdings

import IOCPChatServer.Library.ByteMemory
import IOCPChatServer.Library.Execution
import IOCPChatServer.Library.LinkedList

/-!
# The block pool

`ObjectMemoryPool` keeps its free list inside the free blocks: the first bytes of a block
are a `FreeNode`.  A block which is in use belongs to its owner, who may write any of its
bytes.  `deallocate` puts the block in front of the list without writing its link.
-/

namespace IOCPChatServer

/-- `sizeof(FreeNode*)` of the x64 build. -/
def pointerSize : Nat := 8

def nullptr : Nat := 0

/-- `class ObjectMemoryPool`, with the memory of the process. -/
structure ObjectMemoryPool where
  freeListHead : Nat
  memoryBlock : Nat
  chunkSize : Nat
  poolSize : Nat
  memory : ByteMemory

/-- What `new char[size]` returns: addresses of the process, none of them null.  The size is
the product itself, so a `chunkSize * poolSize` which wraps in `size_t` is left out: it is
larger than the address space, and the constructor would write behind a smaller block. -/
structure Allocation (size : Nat) where
  address : Nat
  not_null : nullptr < address
  fits : address + size ≤ 256 ^ pointerSize

namespace ObjectMemoryPool

/-- `node->next`. -/
def next (pool : ObjectMemoryPool) (node : Nat) : Nat := pool.memory.readWord node pointerSize

def setNext (memory : ByteMemory) (node next : Nat) : ByteMemory :=
  memory.writeWord node next pointerSize

/-- The blocks are at least as large as a pointer. -/
def chunkSizeOf (requested : Nat) : Nat :=
  if requested < pointerSize then pointerSize else requested

/-- The body of the loop of the constructor: memory and `current`. -/
def connect (memoryBlock chunkSize : Nat) (loop : ByteMemory × Nat) (i : Nat) :
    ByteMemory × Nat :=
  let nextnode := memoryBlock + i * chunkSize
  (setNext loop.1 loop.2 nextnode, nextnode)

/-- The constructor. -/
def construct (requested poolSize : Nat)
    (allocation : Allocation (chunkSizeOf requested * poolSize)) (memory : ByteMemory) :
    ObjectMemoryPool :=
  let connected := (List.range' 1 (poolSize - 1)).foldl
    (connect allocation.address (chunkSizeOf requested)) (memory, allocation.address)
  { freeListHead := allocation.address
    memoryBlock := allocation.address
    chunkSize := chunkSizeOf requested
    poolSize := poolSize
    memory := setNext connected.1 connected.2 nullptr }

/-- `allocate`: the block, or `none` for `nullptr`. -/
def allocate (pool : ObjectMemoryPool) : Option Nat × ObjectMemoryPool :=
  if pool.freeListHead = nullptr then (none, pool)
  else (some pool.freeListHead, { pool with freeListHead := pool.next pool.freeListHead })

/-- `deallocate`. -/
def deallocate (pool : ObjectMemoryPool) (ptr : Nat) : ObjectMemoryPool :=
  if ptr = nullptr then pool else { pool with freeListHead := ptr }

/-! ## The blocks -/

/-- The address of a block. -/
def block (pool : ObjectMemoryPool) (i : Nat) : Nat := pool.memoryBlock + i * pool.chunkSize

def blocks (pool : ObjectMemoryPool) : List Nat := (List.range pool.poolSize).map pool.block

theorem mem_blocks {pool : ObjectMemoryPool} {address : Nat} :
    address ∈ pool.blocks ↔ ∃ i < pool.poolSize, pool.block i = address := by
  simp only [blocks, List.mem_map, List.mem_range]

/-- Blocks do not overlap. -/
theorem block_apart (pool : ObjectMemoryPool) {i j : Nat} (before : i < j) :
    pool.block i + pool.chunkSize ≤ pool.block j := by
  have steps : (i + 1) * pool.chunkSize ≤ j * pool.chunkSize :=
    Nat.mul_le_mul_right pool.chunkSize before
  rw [Nat.add_mul, Nat.one_mul] at steps
  unfold block
  omega

theorem apart_of_ne {pool : ObjectMemoryPool} {first second : Nat} (one : first ∈ pool.blocks)
    (two : second ∈ pool.blocks) (different : first ≠ second) :
    first + pool.chunkSize ≤ second ∨ second + pool.chunkSize ≤ first := by
  obtain ⟨i, _, rfl⟩ := mem_blocks.mp one
  obtain ⟨j, _, rfl⟩ := mem_blocks.mp two
  rcases Nat.lt_trichotomy i j with before | same | behind
  · exact Or.inl (pool.block_apart before)
  · exact absurd (congrArg pool.block same) different
  · exact Or.inr (pool.block_apart behind)

theorem pointerSize_le_chunkSizeOf (requested : Nat) : pointerSize ≤ chunkSizeOf requested := by
  unfold chunkSizeOf
  split
  · exact Nat.le_refl pointerSize
  · exact Nat.le_of_not_lt (by assumption)

/-! ## The constructor -/

theorem readWord_setNext {memory : ByteMemory} {node next : Nat}
    (fits : next < 256 ^ pointerSize) : (setNext memory node next).readWord node pointerSize =
      next := by
  rw [setNext, ByteMemory.readWord_writeWord, Nat.mod_eq_of_lt fits]

/-- After `count` iterations the blocks so far are linked and the last one is current. -/
theorem connected_spec {memoryBlock chunkSize count : Nat} (memory : ByteMemory)
    (large : pointerSize ≤ chunkSize)
    (fits : memoryBlock + (count + 1) * chunkSize ≤ 256 ^ pointerSize) :
    ((List.range' 1 count).foldl (connect memoryBlock chunkSize) (memory, memoryBlock)).2 =
        memoryBlock + count * chunkSize ∧
      ∀ i < count, (((List.range' 1 count).foldl (connect memoryBlock chunkSize)
          (memory, memoryBlock)).1).readWord (memoryBlock + i * chunkSize) pointerSize =
        memoryBlock + (i + 1) * chunkSize := by
  induction count with
  | zero => exact ⟨by simp, nofun⟩
  | succ count ih =>
      have width : (count + 1 + 1) * chunkSize = count * chunkSize + chunkSize + chunkSize := by
        rw [Nat.add_mul, Nat.add_mul, Nat.one_mul]
      have shorter : (count + 1) * chunkSize = count * chunkSize + chunkSize := by
        rw [Nat.add_mul, Nat.one_mul]
      obtain ⟨current, linked⟩ := ih (by omega)
      rw [List.range'_1_concat, List.foldl_append, List.foldl_cons, List.foldl_nil]
      generalize (List.range' 1 count).foldl (connect memoryBlock chunkSize)
        (memory, memoryBlock) = loop at current linked
      simp only [connect, current, Nat.add_comm 1 count, true_and]
      intro i below
      rcases Nat.lt_succ_iff_lt_or_eq.mp below with earlier | rfl
      · have room : (i + 1) * chunkSize ≤ count * chunkSize :=
          Nat.mul_le_mul_right chunkSize earlier
        rw [Nat.add_mul, Nat.one_mul] at room
        rw [setNext, ByteMemory.readWord_writeWord_apart _ (Or.inl (by omega))]
        exact linked i earlier
      · have positive : 0 < chunkSize := Nat.lt_of_lt_of_le (by decide) large
        exact readWord_setNext (by omega)

/-- Positions which are linked one after another. -/
theorem linked_range {next : Nat → Nat} {block : Nat → Nat} {first count : Nat}
    (links : ∀ i, first ≤ i → i < first + count → next (block i) = block (i + 1))
    (last : next (block (first + count)) = nullptr)
    (not_null : ∀ i, block i ≠ nullptr) :
    Linked next nullptr (block first) ((List.range' first (count + 1)).map block) := by
  induction count generalizing first with
  | zero => exact ⟨rfl, not_null first, last⟩
  | succ count ih =>
      rw [List.range'_succ, List.map_cons]
      refine ⟨rfl, not_null first, ?_⟩
      rw [links first (Nat.le_refl first) (by omega)]
      refine ih (fun i low high => links i (by omega) (by omega)) ?_
      rw [Nat.add_right_comm first 1 count]
      exact last

/-- The memory which the constructor leaves. -/
theorem construct_next {requested count : Nat}
    (allocation : Allocation (chunkSizeOf requested * (count + 1))) (memory : ByteMemory) :
    let pool := construct requested (count + 1) allocation memory
    pool.next (pool.block count) = nullptr ∧
      ∀ i < count, pool.next (pool.block i) = pool.block (i + 1) := by
  have large := pointerSize_le_chunkSizeOf requested
  have size := Nat.mul_comm (count + 1) (chunkSizeOf requested)
  obtain ⟨current, links⟩ := connected_spec memory large
    (Nat.le_trans (Nat.le_of_eq (congrArg (allocation.address + ·) size)) allocation.fits)
  intro pool
  have written : pool.memory = setNext _ (pool.block count) nullptr :=
    congrArg (setNext _ · nullptr) current
  unfold next
  rw [written]
  refine ⟨readWord_setNext (by decide), fun i before => ?_⟩
  have earlier : pool.block i + chunkSizeOf requested ≤ pool.block count :=
    pool.block_apart before
  rw [setNext, ByteMemory.readWord_writeWord_apart _ (Or.inl (by omega))]
  exact links i before

/-- The constructor links all blocks. -/
theorem construct_linked {requested poolSize : Nat} (positive : 0 < poolSize)
    (allocation : Allocation (chunkSizeOf requested * poolSize)) (memory : ByteMemory) :
    Linked (construct requested poolSize allocation memory).next nullptr allocation.address
      (construct requested poolSize allocation memory).blocks := by
  cases poolSize with
  | zero => exact absurd positive (Nat.lt_irrefl 0)
  | succ count =>
      obtain ⟨last, links⟩ := construct_next allocation memory
      have first : (construct requested (count + 1) allocation memory).block 0 =
          allocation.address :=
        (congrArg (allocation.address + ·) (Nat.zero_mul _)).trans (Nat.add_zero _)
      rw [← first, blocks, List.range_eq_range']
      refine linked_range (fun i _ below => links i (by omega)) ?_ fun i => ?_
      · rw [Nat.zero_add]
        exact last
      · have notNull : 0 < allocation.address := allocation.not_null
        change allocation.address + i * chunkSizeOf requested ≠ 0
        omega

end ObjectMemoryPool

/-! ## Owners -/

/-- The pool and the blocks which are in use. -/
structure PoolUse where
  pool : ObjectMemoryPool
  allocated : Finset Nat := ∅

namespace PoolUse

inductive Event where
  | allocate
  | deallocate (ptr : Nat)
  | write (address : Nat) (byte : UInt8)
  deriving DecidableEq

/-- The address is inside a block which is in use. -/
def Owned (use : PoolUse) (address : Nat) : Prop :=
  ∃ block ∈ use.allocated, block ≤ address ∧ address < block + use.pool.chunkSize

instance (use : PoolUse) (address : Nat) : Decidable (use.Owned address) :=
  inferInstanceAs (Decidable (∃ block ∈ use.allocated, _))

/-- Only blocks in use are given back, and owners write into their blocks only. -/
def step (use : PoolUse) : Event → Option PoolUse
  | .allocate =>
      some { pool := use.pool.allocate.2
             allocated := use.allocated ∪ use.pool.allocate.1.toFinset }
  | .deallocate ptr =>
      if ptr = nullptr ∨ ptr ∈ use.allocated then
        some { pool := use.pool.deallocate ptr
               allocated := use.allocated.erase ptr }
      else none
  | .write address byte =>
      if use.Owned address then
        some { use with
          pool := { use.pool with memory := Function.update use.pool.memory address byte } }
      else none

def start (requested poolSize : Nat)
    (allocation : Allocation (ObjectMemoryPool.chunkSizeOf requested * poolSize))
    (memory : ByteMemory) : PoolUse where
  pool := .construct requested poolSize allocation memory

/-- The free list holds the blocks which are not in use, each once. -/
structure KeepsFreeList (use : PoolUse) : Prop where
  listed : ∃ list, Linked use.pool.next nullptr use.pool.freeListHead list ∧ list.Nodup ∧
    ∀ block, block ∈ list ↔ block ∈ use.pool.blocks ∧ block ∉ use.allocated
  exhausted : use.pool.allocate.1 = none ↔ ∀ block ∈ use.pool.blocks, block ∈ use.allocated
  fresh : ∀ block, use.pool.allocate.1 = some block →
    block ∈ use.pool.blocks ∧ block ∉ use.allocated

/-- `allocate` takes the front of the list. -/
theorem keepsFreeList_of_listed {use : PoolUse} {list : List Nat}
    (linked : Linked use.pool.next nullptr use.pool.freeListHead list)
    (exactly : ∀ block, block ∈ list ↔ block ∈ use.pool.blocks ∧ block ∉ use.allocated) :
    use.KeepsFreeList := by
  refine ⟨⟨list, linked, linked.nodup, exactly⟩, ?_, ?_⟩
  · unfold ObjectMemoryPool.allocate
    split
    · rename_i null
      rw [null] at linked
      obtain rfl := linked.eq_nil
      refine iff_of_true rfl fun block ours => ?_
      by_contra free
      exact absurd ((exactly block).mpr ⟨ours, free⟩) List.not_mem_nil
    · rename_i some
      refine iff_of_false nofun fun all => ?_
      cases list with
      | nil => exact some linked
      | cons first rest =>
          obtain ⟨ours, free⟩ := (exactly first).mp List.mem_cons_self
          exact free (all first ours)
  · intro block given
    unfold ObjectMemoryPool.allocate at given
    split at given
    · cases given
    · rename_i some
      cases given
      cases list with
      | nil => exact absurd linked some
      | cons first rest =>
          refine (exactly _).mp ?_
          rw [linked.1]
          exact List.mem_cons_self

/-- What holds of the blocks in use as long as the free list is kept. -/
structure Sound (use : PoolUse) : Prop where
  large : pointerSize ≤ use.pool.chunkSize
  ours : ∀ block ∈ use.allocated, block ∈ use.pool.blocks
  not_null : nullptr ∉ use.pool.blocks

theorem start_sound (requested poolSize : Nat)
    (allocation : Allocation (ObjectMemoryPool.chunkSizeOf requested * poolSize))
    (memory : ByteMemory) : (start requested poolSize allocation memory).Sound where
  large := ObjectMemoryPool.pointerSize_le_chunkSizeOf requested
  ours := fun _ member => absurd member (Finset.notMem_empty _)
  not_null := fun member => by
    obtain ⟨i, _, null⟩ := ObjectMemoryPool.mem_blocks.mp member
    have notNull : 0 < allocation.address := allocation.not_null
    change allocation.address + i * ObjectMemoryPool.chunkSizeOf requested = 0 at null
    omega

theorem start_keepsFreeList {requested poolSize : Nat} (positive : 0 < poolSize)
    (allocation : Allocation (ObjectMemoryPool.chunkSizeOf requested * poolSize))
    (memory : ByteMemory) : (start requested poolSize allocation memory).KeepsFreeList :=
  keepsFreeList_of_listed (ObjectMemoryPool.construct_linked positive allocation memory)
    fun _ => ⟨fun ours => ⟨ours, Finset.notMem_empty _⟩, And.left⟩

/-! ## Steps -/

variable {use next : PoolUse} {event : Event}

/-- `deallocate` finds the head of the free list as the link of the block. -/
def ReturnsLinked (use : PoolUse) : Event → Prop
  | .deallocate ptr => ptr = nullptr ∨ use.pool.next ptr = use.pool.freeListHead
  | _ => True

instance (use : PoolUse) (event : Event) : Decidable (use.ReturnsLinked event) := by
  cases event <;> unfold ReturnsLinked <;> infer_instance

/-- Where the blocks lie never changes. -/
theorem step_blocks (taken : use.step event = some next) :
    next.pool.blocks = use.pool.blocks ∧ next.pool.chunkSize = use.pool.chunkSize := by
  cases event with
  | allocate =>
      cases taken
      dsimp only
      unfold ObjectMemoryPool.allocate
      split
      · exact ⟨rfl, rfl⟩
      · exact ⟨rfl, rfl⟩
  | deallocate ptr =>
      obtain ⟨_, taken⟩ := Option.ite_none_right_eq_some.mp taken
      cases taken
      dsimp only
      unfold ObjectMemoryPool.deallocate
      split
      · exact ⟨rfl, rfl⟩
      · exact ⟨rfl, rfl⟩
  | write address byte =>
      obtain ⟨_, taken⟩ := Option.ite_none_right_eq_some.mp taken
      cases taken
      exact ⟨rfl, rfl⟩

theorem Sound.step (sound : use.Sound) (keeps : use.KeepsFreeList)
    (taken : use.step event = some next) : next.Sound := by
  obtain ⟨blocks, size⟩ := step_blocks taken
  refine ⟨size ▸ sound.large, fun block member => ?_, blocks ▸ sound.not_null⟩
  rw [blocks]
  cases event with
  | allocate =>
      cases taken
      rcases Finset.mem_union.mp member with old | new
      · exact sound.ours block old
      · exact (keeps.fresh block (Option.mem_toFinset.mp new)).1
  | deallocate ptr =>
      obtain ⟨_, taken⟩ := Option.ite_none_right_eq_some.mp taken
      cases taken
      exact sound.ours block (Finset.mem_of_mem_erase member)
  | write address byte =>
      obtain ⟨_, taken⟩ := Option.ite_none_right_eq_some.mp taken
      cases taken
      exact sound.ours block member

theorem KeepsFreeList.allocate (keeps : use.KeepsFreeList)
    (taken : use.step .allocate = some next) : next.KeepsFreeList := by
  obtain ⟨list, linked, nodup, exactly⟩ := keeps.listed
  cases taken
  unfold ObjectMemoryPool.allocate
  split
  · rw [Option.toFinset_none, Finset.union_empty]
    exact keeps
  · rename_i some
    cases list with
    | nil => exact absurd linked some
    | cons first rest =>
        obtain ⟨head, _, later⟩ := linked
        obtain ⟨notAgain, _⟩ := List.nodup_cons.mp nodup
        refine keepsFreeList_of_listed (head ▸ later) fun block => ?_
        · dsimp only
          rw [Option.toFinset_some, Finset.mem_union, Finset.mem_singleton, head, not_or,
            ← and_assoc]
          refine Iff.trans ?_ (and_congr_left' (exactly block))
          rw [List.mem_cons]
          constructor
          · exact fun inRest => ⟨Or.inr inRest, fun same => notAgain (same ▸ inRest)⟩
          · exact fun ⟨member, other⟩ => member.resolve_left other

theorem keepsFreeList_deallocate_iff (sound : use.Sound) (keeps : use.KeepsFreeList)
    {ptr : Nat} (taken : use.step (.deallocate ptr) = some next) :
    next.KeepsFreeList ↔ use.ReturnsLinked (.deallocate ptr) := by
  obtain ⟨list, linked, nodup, exactly⟩ := keeps.listed
  obtain ⟨given, taken⟩ := Option.ite_none_right_eq_some.mp taken
  cases taken
  unfold ObjectMemoryPool.deallocate
  rcases eq_or_ne ptr nullptr with rfl | notNull
  · have unused : nullptr ∉ use.allocated := fun member => sound.not_null (sound.ours _ member)
    rw [if_pos rfl, Finset.erase_eq_of_notMem unused]
    exact iff_of_true keeps (Or.inl rfl)
  · have used := given.resolve_left notNull
    have freed (block : Nat) : block ∈ ptr :: list ↔
        block ∈ use.pool.blocks ∧ block ∉ use.allocated.erase ptr := by
      rw [List.mem_cons, exactly, Finset.mem_erase]
      rcases eq_or_ne block ptr with rfl | other
      · exact iff_of_true (Or.inl rfl) ⟨sound.ours block used, fun erased => erased.1 rfl⟩
      · simp [other]
    have notListed : ptr ∉ list := fun member => ((exactly ptr).mp member).2 used
    have returns : use.ReturnsLinked (.deallocate ptr) ↔
        use.pool.next ptr = use.pool.freeListHead := or_iff_right notNull
    rw [if_neg notNull, returns]
    constructor
    · intro kept
      obtain ⟨longer, linkedLonger, nodupLonger, exactlyLonger⟩ := kept.listed
      cases longer with
      | nil => exact absurd linkedLonger notNull
      | cons first rest =>
          obtain ⟨rfl, _, later⟩ := linkedLonger
          obtain ⟨notAgain, nodupRest⟩ := List.nodup_cons.mp nodupLonger
          have same : list.Perm rest := by
            refine (List.perm_ext_iff_of_nodup nodup nodupRest).mpr fun block => ?_
            have both := (freed block).trans (exactlyLonger block).symm
            rw [List.mem_cons, List.mem_cons] at both
            rcases eq_or_ne block ptr with rfl | other
            · exact iff_of_false notListed notAgain
            · rwa [or_iff_right other, or_iff_right other] at both
          exact (linked.head_eq_of_perm later same).symm
    · intro link
      have relinked : Linked use.pool.next nullptr ptr (ptr :: list) :=
        ⟨rfl, notNull, link ▸ linked⟩
      exact keepsFreeList_of_listed relinked freed

/-- Owners write into no free block. -/
theorem KeepsFreeList.write (sound : use.Sound) (keeps : use.KeepsFreeList) {address : Nat}
    {byte : UInt8} (taken : use.step (.write address byte) = some next) :
    next.KeepsFreeList := by
  obtain ⟨list, linked, _, exactly⟩ := keeps.listed
  obtain ⟨⟨owned, used, low, high⟩, taken⟩ := Option.ite_none_right_eq_some.mp taken
  cases taken
  refine keepsFreeList_of_listed (linked.congr fun block member => ?_) exactly
  obtain ⟨ours, free⟩ := (exactly block).mp member
  have different : owned ≠ block := fun same => free (same ▸ used)
  have large := sound.large
  refine ByteMemory.readWord_congr fun position from_ until_ => Function.update_of_ne ?_ _ _
  rcases ObjectMemoryPool.apart_of_ne (sound.ours owned used) ours different with before | behind
  · omega
  · omega

theorem keepsFreeList_step_iff (sound : use.Sound) (keeps : use.KeepsFreeList)
    (taken : use.step event = some next) : next.KeepsFreeList ↔ use.ReturnsLinked event := by
  cases event with
  | allocate => exact iff_of_true (keeps.allocate taken) trivial
  | deallocate ptr => exact keepsFreeList_deallocate_iff sound keeps taken
  | write address byte => exact iff_of_true (keeps.write sound taken) trivial

/-- The free list is kept in every state of a run if and only if every block which is given
back holds the head of the free list as its link. -/
theorem always_keepsFreeList_iff {requested poolSize : Nat} (positive : 0 < poolSize)
    (allocation : Allocation (ObjectMemoryPool.chunkSizeOf requested * poolSize))
    (memory : ByteMemory) (events : List Event) :
    Execution.Always step KeepsFreeList (start requested poolSize allocation memory) events ↔
      Execution.Throughout step ReturnsLinked (start requested poolSize allocation memory)
        events :=
  Execution.always_iff_throughout_while
    (fun _ _ _ sound keeps => Sound.step sound keeps)
    (fun _ _ _ sound keeps => keepsFreeList_step_iff sound keeps)
    (start_sound requested poolSize allocation memory)
    (start_keepsFreeList positive allocation memory) events

/-- Two blocks of eight bytes, from address 8 on. -/
def twoBlocks : Allocation (ObjectMemoryPool.chunkSizeOf 8 * 2) where
  address := 8
  not_null := by decide
  fits := by decide

/-- The first block is given back while the second one is in use. -/
def returnFirst : List Event := [.allocate, .allocate, .deallocate 8, .allocate]

theorem always_keepsFreeList_iff_returnFirst :
    Execution.Always step KeepsFreeList (start 8 2 twoBlocks fun _ => 0) returnFirst ↔
      Execution.Throughout step ReturnsLinked (start 8 2 twoBlocks fun _ => 0) returnFirst :=
  always_keepsFreeList_iff (by decide) twoBlocks (fun _ => 0) returnFirst

/-- The first block still links to the second one, which is handed out while it is in use. -/
theorem returnFirst_not_keepsFreeList :
    ¬ Execution.Always step KeepsFreeList (start 8 2 twoBlocks fun _ => 0) returnFirst := by
  intro always
  have seen : (Execution.run? step (start 8 2 twoBlocks fun _ => 0) returnFirst).map
      (fun last => (last.pool.allocate.1, last.allocated)) = some (some 16, {16, 8}) := by
    decide +kernel
  obtain ⟨last, keeps, observed⟩ := always.observed seen
  obtain ⟨given, used⟩ := Prod.mk.inj observed
  refine (keeps.fresh 16 given).2 ?_
  rw [used]
  exact Finset.mem_insert_self 16 {8}

end PoolUse

end IOCPChatServer

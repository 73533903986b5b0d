import Mathlib

/-!
# Trees in prefix order

A tree is written as the list of its nodes in prefix order, every inner node with the number
of its children.  `push` reads such a list with a stack of the nodes whose children are not
complete: this is how a protocol parser builds nested values without recursion.  Pushing the
nodes of a tree yields the tree (`pushAll_tokens`), and whatever is yielded was written by
the nodes which were pushed (`pushAll_pending`).
-/

inductive PrefixTree (Leaf Label : Type*) where
  | leaf (value : Leaf)
  | node (label : Label) (children : List (PrefixTree Leaf Label))

namespace PrefixTree

/-- One node of a tree, without its children. -/
inductive Token (Leaf Label : Type*) where
  | leaf (value : Leaf)
  | node (label : Label) (count : Nat)
  deriving DecidableEq, Repr

/-- A node which waits for children. -/
structure Frame (Leaf Label : Type*) where
  label : Label
  count : Nat
  filled : List (PrefixTree Leaf Label) := []

variable {Leaf Label : Type*}

mutual

/-- The nodes of a tree in prefix order. -/
def tokens : PrefixTree Leaf Label → List (Token Leaf Label)
  | .leaf value => [.leaf value]
  | .node label children => .node label children.length :: tokensAll children

def tokensAll : List (PrefixTree Leaf Label) → List (Token Leaf Label)
  | [] => []
  | tree :: rest => tokens tree ++ tokensAll rest

end

mutual

/-- How many nodes with a label lie on one path. -/
def height : PrefixTree Leaf Label → Nat
  | .leaf _ => 0
  | .node _ children => heightAll children + 1

def heightAll : List (PrefixTree Leaf Label) → Nat
  | [] => 0
  | tree :: rest => max (height tree) (heightAll rest)

end

/-- A finished tree goes into the node on top of the stack, which may be finished by that. -/
def complete (tree : PrefixTree Leaf Label) :
    List (Frame Leaf Label) → Option (PrefixTree Leaf Label) × List (Frame Leaf Label)
  | [] => (some tree, [])
  | frame :: below =>
      if frame.filled.length + 1 = frame.count then
        complete (.node frame.label (frame.filled ++ [tree])) below
      else (none, { frame with filled := frame.filled ++ [tree] } :: below)

/-- One node is read. -/
def push (stack : List (Frame Leaf Label)) :
    Token Leaf Label → Option (PrefixTree Leaf Label) × List (Frame Leaf Label)
  | .leaf value => complete (.leaf value) stack
  | .node label 0 => complete (.node label []) stack
  | .node label (count + 1) => (none, { label, count := count + 1 } :: stack)

/-- The trees which a list of nodes finishes, and the stack which is left. -/
def pushAll (stack : List (Frame Leaf Label)) :
    List (Token Leaf Label) → List (PrefixTree Leaf Label) × List (Frame Leaf Label)
  | [] => ([], stack)
  | token :: rest =>
      let pushed := push stack token
      let later := pushAll pushed.2 rest
      (pushed.1.toList ++ later.1, later.2)

theorem pushAll_append (stack : List (Frame Leaf Label)) (front back : List (Token Leaf Label)) :
    pushAll stack (front ++ back) =
      ((pushAll stack front).1 ++ (pushAll (pushAll stack front).2 back).1,
        (pushAll (pushAll stack front).2 back).2) := by
  induction front generalizing stack with
  | nil => rfl
  | cons token rest ih =>
      simp only [List.cons_append, pushAll, ih, List.append_assoc]

theorem tokensAll_append (front back : List (PrefixTree Leaf Label)) :
    tokensAll (front ++ back) = tokensAll front ++ tokensAll back := by
  induction front with
  | nil => rfl
  | cons tree rest ih => simp only [List.cons_append, tokensAll, ih, List.append_assoc]

/-! ## Reading what was written -/

theorem more_missing {frame : Frame Leaf Label} {first second : PrefixTree Leaf Label}
    {rest : List (PrefixTree Leaf Label)}
    (missing : frame.filled.length + (first :: second :: rest).length = frame.count) :
    frame.filled.length + 1 ≠ frame.count := by
  simp only [List.length_cons] at missing
  omega

theorem one_filled {frame : Frame Leaf Label} {first : PrefixTree Leaf Label}
    {rest : List (PrefixTree Leaf Label)}
    (missing : frame.filled.length + (first :: rest).length = frame.count) :
    (frame.filled ++ [first]).length + rest.length = frame.count := by
  simp only [List.length_cons, List.length_append, List.length_nil] at missing ⊢
  omega

mutual

/-- The nodes of a tree finish the tree. -/
theorem pushAll_tokens (stack : List (Frame Leaf Label)) :
    (tree : PrefixTree Leaf Label) →
      pushAll stack tree.tokens = ((complete tree stack).1.toList, (complete tree stack).2)
  | .leaf value => by simp [tokens, pushAll, push]
  | .node label [] => by simp [tokens, tokensAll, pushAll, push]
  | .node label (first :: rest) => by
      have filled := pushAll_tokensAll { label, count := rest.length + 1 } stack (first :: rest)
        (List.cons_ne_nil _ _) (Nat.zero_add _)
      simpa [tokens, pushAll, push] using filled

/-- The nodes of all missing children finish the node which waits for them. -/
theorem pushAll_tokensAll (frame : Frame Leaf Label) (below : List (Frame Leaf Label)) :
    (children : List (PrefixTree Leaf Label)) → children ≠ [] →
      frame.filled.length + children.length = frame.count →
      pushAll (frame :: below) (tokensAll children) =
        ((complete (.node frame.label (frame.filled ++ children)) below).1.toList,
          (complete (.node frame.label (frame.filled ++ children)) below).2)
  | [], nonempty, _ => absurd rfl nonempty
  | [first], _, missing => by
      have last : frame.filled.length + 1 = frame.count := missing
      have done := pushAll_tokens (frame :: below) first
      rw [complete, if_pos last] at done
      rw [tokensAll, tokensAll, List.append_nil, done]
  | first :: second :: rest, _, missing => by
      have one := pushAll_tokens (frame :: below) first
      rw [complete, if_neg (more_missing missing)] at one
      have others := pushAll_tokensAll { frame with filled := frame.filled ++ [first] } below
        (second :: rest) (List.cons_ne_nil _ _) (one_filled missing)
      rw [tokensAll, pushAll_append, one, others, List.append_assoc]
      rfl

end

/-- From an empty stack the nodes of some trees yield the trees, in order. -/
theorem pushAll_tokensAll_nil (trees : List (PrefixTree Leaf Label)) :
    pushAll [] (tokensAll trees) = (trees, []) := by
  induction trees with
  | nil => rfl
  | cons tree rest ih =>
      rw [tokensAll, pushAll_append, pushAll_tokens]
      simp [complete, ih]

/-! ## Nothing else is read -/

/-- The nodes which were pushed since the last tree was finished. -/
def pending : List (Frame Leaf Label) → List (Token Leaf Label)
  | [] => []
  | frame :: below => pending below ++ .node frame.label frame.count :: tokensAll frame.filled

theorem complete_pending (tree : PrefixTree Leaf Label) (stack : List (Frame Leaf Label)) :
    pending stack ++ tree.tokens =
      tokensAll (complete tree stack).1.toList ++ pending (complete tree stack).2 := by
  induction stack generalizing tree with
  | nil => simp [pending, complete, tokensAll]
  | cons frame below ih =>
      unfold complete
      split
      · rename_i last
        rw [← ih]
        simp [pending, tokens, tokensAll_append, tokensAll, last]
      · simp [pending, tokensAll_append, tokensAll]

theorem push_pending (stack : List (Frame Leaf Label)) (token : Token Leaf Label) :
    pending stack ++ [token] =
      tokensAll (push stack token).1.toList ++ pending (push stack token).2 := by
  match token with
  | .leaf value => exact complete_pending (.leaf value) stack
  | .node label 0 => exact complete_pending (.node label []) stack
  | .node label (count + 1) => simp [push, pending, tokensAll]

/-- Whatever was pushed makes up the trees which were finished and those which are not. -/
theorem pushAll_pending (stack : List (Frame Leaf Label)) (pushed : List (Token Leaf Label)) :
    pending stack ++ pushed =
      tokensAll (pushAll stack pushed).1 ++ pending (pushAll stack pushed).2 := by
  induction pushed generalizing stack with
  | nil => simp [pushAll, tokensAll]
  | cons token rest ih =>
      have one := push_pending stack token
      rw [List.append_cons, one, List.append_assoc, ih, ← List.append_assoc, ← tokensAll_append]
      rfl

/-! ## The stack -/

/-- Every node on the stack waits for a child at least. -/
def Waiting (stack : List (Frame Leaf Label)) : Prop :=
  ∀ frame ∈ stack, frame.filled.length < frame.count

theorem waiting_nil : Waiting ([] : List (Frame Leaf Label)) := nofun

theorem waiting_cons {frame : Frame Leaf Label} {below : List (Frame Leaf Label)} :
    Waiting (frame :: below) ↔ frame.filled.length < frame.count ∧ Waiting below :=
  List.forall_mem_cons

theorem Waiting.complete {stack : List (Frame Leaf Label)} (waiting : Waiting stack)
    (tree : PrefixTree Leaf Label) : Waiting (complete tree stack).2 := by
  induction stack generalizing tree with
  | nil => exact waiting
  | cons frame below ih =>
      obtain ⟨top, rest⟩ := waiting_cons.mp waiting
      unfold PrefixTree.complete
      split
      · exact ih rest _
      · rename_i more
        refine waiting_cons.mpr ⟨?_, rest⟩
        exact List.length_append.trans_lt (Nat.lt_of_le_of_ne top more)

theorem Waiting.push {stack : List (Frame Leaf Label)} (waiting : Waiting stack)
    (token : Token Leaf Label) : Waiting (push stack token).2 := by
  match token with
  | .leaf value => exact waiting.complete _
  | .node label 0 => exact waiting.complete _
  | .node label (count + 1) => exact waiting_cons.mpr ⟨Nat.succ_pos count, waiting⟩

/-- The stack never grows by a finished tree. -/
theorem length_complete_le (tree : PrefixTree Leaf Label) (stack : List (Frame Leaf Label)) :
    (complete tree stack).2.length ≤ stack.length := by
  induction stack generalizing tree with
  | nil => exact Nat.le_refl _
  | cons frame below ih =>
      unfold complete
      split
      · exact (ih _).trans (Nat.le_succ _)
      · exact Nat.le_refl _

/-- No node which waits is new. -/
theorem forall_count_complete (holds : Nat → Prop) {stack : List (Frame Leaf Label)}
    (all : ∀ frame ∈ stack, holds frame.count) (tree : PrefixTree Leaf Label) :
    ∀ frame ∈ (complete tree stack).2, holds frame.count := by
  induction stack generalizing tree with
  | nil => exact all
  | cons frame below ih =>
      obtain ⟨top, rest⟩ := List.forall_mem_cons.mp all
      unfold complete
      split
      · exact ih rest _
      · exact List.forall_mem_cons.mpr ⟨top, rest⟩

/-- A tree is only yielded when the stack is empty. -/
theorem complete_yields {tree result : PrefixTree Leaf Label} {stack : List (Frame Leaf Label)}
    (yields : (complete tree stack).1 = some result) : (complete tree stack).2 = [] := by
  induction stack generalizing tree with
  | nil => rfl
  | cons frame below ih =>
      unfold complete at yields ⊢
      split
      · rename_i last
        rw [if_pos last] at yields
        exact ih yields
      · rename_i more
        rw [if_neg more] at yields
        cases yields

theorem push_yields {token : Token Leaf Label} {result : PrefixTree Leaf Label}
    {stack : List (Frame Leaf Label)} (yields : (push stack token).1 = some result) :
    (push stack token).2 = [] := by
  match token with
  | .leaf value => exact complete_yields yields
  | .node label 0 => exact complete_yields yields
  | .node label (count + 1) => cases yields

/-! ## Texts -/

section Spelling

variable {Letter : Type*} (spells : Nat → Token Leaf Label → List Letter → Prop)

mutual

/-- A tree is spelled by its nodes in prefix order.  How a node is spelled may depend on the
number of nodes around it. -/
def Spelled (depth : Nat) : PrefixTree Leaf Label → List Letter → Prop
  | .leaf value, letters => spells depth (.leaf value) letters
  | .node label children, letters =>
      ∃ front back, letters = front ++ back ∧ spells depth (.node label children.length) front ∧
        SpelledAll (depth + 1) children back

def SpelledAll (depth : Nat) : List (PrefixTree Leaf Label) → List Letter → Prop
  | [], letters => letters = []
  | tree :: rest, letters =>
      ∃ front back, letters = front ++ back ∧ Spelled depth tree front ∧ SpelledAll depth rest back

end

/-- The nodes of a list are spelled while they are pushed. -/
def SpelledFrom : List (Frame Leaf Label) → List (Token Leaf Label) → List Letter → Prop
  | _, [], letters => letters = []
  | stack, token :: rest, letters =>
      ∃ front back, letters = front ++ back ∧ spells stack.length token front ∧
        SpelledFrom (push stack token).2 rest back

variable {spells}

theorem spelledFrom_append {stack : List (Frame Leaf Label)} {front back : List (Token Leaf Label)}
    {letters : List Letter} :
    SpelledFrom spells stack (front ++ back) letters ↔
      ∃ first second, letters = first ++ second ∧ SpelledFrom spells stack front first ∧
        SpelledFrom spells (pushAll stack front).2 back second := by
  induction front generalizing stack letters with
  | nil =>
      constructor
      · intro spelled
        exact ⟨[], letters, rfl, rfl, spelled⟩
      · rintro ⟨first, second, rfl, rfl, spelled⟩
        exact spelled
  | cons token rest ih =>
      simp only [List.cons_append, SpelledFrom, pushAll, ih]
      constructor
      · rintro ⟨head, _, rfl, spelled, first, second, rfl, later, behind⟩
        exact ⟨head ++ first, second, (List.append_assoc ..).symm,
          ⟨head, first, rfl, spelled, later⟩, behind⟩
      · rintro ⟨_, second, rfl, ⟨head, first, rfl, spelled, later⟩, behind⟩
        exact ⟨head, first ++ second, List.append_assoc .., spelled, first, second, rfl, later,
          behind⟩

mutual

/-- Pushing the nodes of a tree goes through the depths of the tree. -/
theorem spelledFrom_tokens (stack : List (Frame Leaf Label)) :
    (tree : PrefixTree Leaf Label) → (letters : List Letter) →
      (SpelledFrom spells stack tree.tokens letters ↔ Spelled spells stack.length tree letters)
  | .leaf value, letters => by
      constructor
      · rintro ⟨front, _, rfl, spelled, rfl⟩
        exact (List.append_nil front).symm ▸ spelled
      · intro spelled
        exact ⟨letters, [], (List.append_nil letters).symm, spelled, rfl⟩
  | .node label [], letters => Iff.rfl
  | .node label (first :: rest), letters => by
      have inner := fun back => spelledFrom_tokensAll { label, count := rest.length + 1 } stack
        (first :: rest) back (List.cons_ne_nil _ _) (Nat.zero_add _)
      simp only [tokens, SpelledFrom, push, Spelled, List.length_cons, inner]

theorem spelledFrom_tokensAll (frame : Frame Leaf Label) (below : List (Frame Leaf Label)) :
    (children : List (PrefixTree Leaf Label)) → (letters : List Letter) → children ≠ [] →
      frame.filled.length + children.length = frame.count →
      (SpelledFrom spells (frame :: below) (tokensAll children) letters ↔
        SpelledAll spells (below.length + 1) children letters)
  | [], _, nonempty, _ => absurd rfl nonempty
  | [first], letters, _, _ => by
      have one := fun front => spelledFrom_tokens (frame :: below) first front
      simp only [tokensAll, List.append_nil, one, SpelledAll, List.length_cons]
      constructor
      · intro spelled
        exact ⟨letters, [], (List.append_nil letters).symm, spelled, rfl⟩
      · rintro ⟨front, _, rfl, spelled, rfl⟩
        exact (List.append_nil front).symm ▸ spelled
  | first :: second :: rest, letters, _, missing => by
      have one := fun front => spelledFrom_tokens (frame :: below) first front
      have others := fun back => spelledFrom_tokensAll
        { frame with filled := frame.filled ++ [first] } below (second :: rest) back
        (List.cons_ne_nil _ _) (one_filled missing)
      rw [tokensAll, spelledFrom_append]
      simp only [pushAll_tokens, complete, if_neg (more_missing missing), one, others,
        List.length_cons]
      rfl

end

/-- From an empty stack the nodes of some trees are spelled as the trees are. -/
theorem spelledFrom_tokensAll_nil (trees : List (PrefixTree Leaf Label)) (letters : List Letter) :
    SpelledFrom spells [] (tokensAll trees) letters ↔ SpelledAll spells 0 trees letters := by
  induction trees generalizing letters with
  | nil => exact Iff.rfl
  | cons tree rest ih =>
      rw [tokensAll, spelledFrom_append]
      simp only [pushAll_tokens, complete, spelledFrom_tokens, ih]
      rfl

end Spelling

end PrefixTree

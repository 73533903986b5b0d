import IOCPChatServer.Hiredis.ReaderRuns

/-!
# Safety of the reply parser

Whatever the server sends, the parser's position is inside the buffer, there are no more
tasks than `rstack` has places, and every object is stored in a place which its parent's
`element` has (`receive_safe`).
-/

namespace IOCPChatServer

namespace Hiredis

open PrefixTree (Frame Token push complete Waiting)

/-- The incomplete aggregates which the parser can have. -/
structure ReplyStack.Sound (stack : ReplyStack) : Prop where
  waiting : Waiting stack
  shallow : stack.length ≤ depthLimit
  counted : ∀ frame ∈ stack, frame.count < 2 ^ 31

def Mode.Sound : Mode → Prop
  | .parsing stack type =>
      ReplyStack.Sound stack ∧ ∀ known, type = some known → Mode.tooDeep stack known = false
  | _ => True

namespace ReplyStack

theorem Sound.nil : ReplyStack.Sound [] := ⟨PrefixTree.waiting_nil, Nat.zero_le _, nofun⟩

theorem Sound.complete {stack : ReplyStack} (sound : ReplyStack.Sound stack)
    (tree : RedisReply) : ReplyStack.Sound (complete tree stack).2 where
  waiting := sound.waiting.complete tree
  shallow := (PrefixTree.length_complete_le tree stack).trans sound.shallow
  counted := PrefixTree.forall_count_complete (· < 2 ^ 31) sound.counted tree

/-- A node which the parser accepts at this depth. -/
theorem Sound.push {stack : ReplyStack} (sound : ReplyStack.Sound stack) {token : ReplyToken}
    (accepted : ∀ type count, token = .node type count → stack.length ≠ depthLimit ∧
      count < 2 ^ 31) : ReplyStack.Sound (push stack token).2 := by
  match token with
  | .leaf value => exact sound.complete _
  | .node type 0 => exact sound.complete _
  | .node type (count + 1) =>
      obtain ⟨notFull, small⟩ := accepted type (count + 1) rfl
      exact {
        waiting := sound.waiting.push (.node type (count + 1))
        shallow := Nat.lt_of_le_of_ne sound.shallow notFull
        counted := List.forall_mem_cons.mpr ⟨small, sound.counted⟩ }

end ReplyStack

/-- Only an aggregate gives a node, and `calloc` has granted its elements. -/
theorem node_of_lex {library : CLibrary} (counts : library.CountsElements) {type : ReplyType}
    {unread : Bytes} {label : AggregateType} {count consumed : Nat}
    (found : lex library type unread = .token (.node label count) consumed) :
    (∃ aggregate, type = .aggregate aggregate) ∧ count < 2 ^ 31 := by
  have lineCase {type : ReplyType}
      (found : lexLine library type unread = .token (.node label count) consumed) : False := by
    unfold lexLine at found
    repeat' split at found
    all_goals cases found
  cases type with
  | string =>
      simp only [lex, lexBulk] at found
      repeat' split at found
      all_goals cases found
  | aggregate aggregate =>
      refine ⟨⟨aggregate, rfl⟩, ?_⟩
      simp only [lex, lexAggregate] at found
      split at found
      · cases found
      · split at found
        · cases found
        · split at found
          · cases found
          · split at found
            · cases found
            · generalize (if aggregate = AggregateType.map then _ else _) = elements at found
              split at found
              · split at found
                · rename_i granted
                  cases found
                  exact counts count granted
                · cases found
              · cases found
                decide
  | error => exact (@lineCase .error found).elim
  | status => exact (@lineCase .status found).elim
  | integer => exact (@lineCase .integer found).elim
  | double => exact (@lineCase .double found).elim
  | nil => exact (@lineCase .nil found).elim
  | bool => exact (@lineCase .bool found).elim

theorem Mode.Sound.init : (Mode.parsing [] none).Sound := ⟨ReplyStack.Sound.nil, nofun⟩

/-- One step of the parser. -/
theorem Mode.Sound.step {library : CLibrary} (counts : library.CountsElements) {mode : Mode}
    (sound : mode.Sound) {unread : Bytes} {taken : Resumable.Taken Mode RedisReply}
    (takes : Mode.step library mode unread = some taken) : taken.state.Sound := by
  match mode, unread with
  | .parsing stack (some type), unread =>
      obtain ⟨stackSound, notDeep⟩ := sound
      simp only [Mode.step, Mode.stepItem] at takes
      split at takes
      · cases takes
      · cases takes
        trivial
      · cases takes
        trivial
      · rename_i token consumed found
        cases takes
        refine ⟨stackSound.push fun label count same => ?_,
          fun known same => absurd same.symm (Option.some_ne_none known)⟩
        subst same
        obtain ⟨⟨aggregate, rfl⟩, small⟩ := node_of_lex counts found
        exact ⟨by simpa [Mode.tooDeep] using notDeep _ rfl, small⟩
  | .parsing stack none, byte :: rest =>
      cases takes
      simp only [Mode.stepType]
      split
      · trivial
      · split
        · trivial
        · rename_i type _ accepted
          refine ⟨sound.1, ?_⟩
          rintro known ⟨⟩
          exact Bool.eq_false_iff.mpr accepted
  | .failed error, byte :: rest =>
      cases takes
      trivial
  | .overrun, byte :: rest =>
      cases takes
      trivial

/-- All steps of the parser. -/
theorem Mode.Sound.reading {library : CLibrary} (counts : library.CountsElements) {mode : Mode}
    (sound : mode.Sound) (input : Bytes) : (reading library mode input).state.Sound :=
  (lawful_next library).read_induction (fun mode _ reading => mode.Sound → reading.state.Sound)
    (fun _ _ _ sound => sound)
    (fun _ _ _ _ takes later sound => later (sound.step counts takes)) mode input sound

/-! ## The parser's own state -/

/-- A task can store its object in its parent. -/
structure RedisReadTask.FitsIn (child parent : RedisReadTask) : Prop where
  aggregate : ∃ type, parent.type = some (.aggregate type)
  lower : 0 ≤ child.idx
  upper : child.idx < parent.elements
  next : child.idx = parent.obj.length

/-- `pos` is inside the buffer, `rstack` has place for its tasks, and each of them has one in
its parent's `element`. -/
structure RedisReader.Safe (reader : RedisReader) : Prop where
  inside : reader.pos ≤ reader.buf.length
  places : reader.rstack.length ≤ 9
  stored : reader.rstack.IsChain RedisReadTask.FitsIn

theorem isChain_containers {stack : ReplyStack} (waiting : Waiting stack) (task : RedisReadTask)
    (index : task.idx = indexIn stack) :
    (task :: containers stack).IsChain RedisReadTask.FitsIn := by
  induction stack generalizing task with
  | nil => exact .singleton task
  | cons frame below ih =>
      obtain ⟨top, rest⟩ := PrefixTree.waiting_cons.mp waiting
      refine .cons_cons ⟨⟨frame.label, rfl⟩, ?_, ?_, index⟩ (ih rest _ rfl)
      · rw [index]
        exact Int.natCast_nonneg _
      · rw [index]
        exact Int.ofNat_lt.mpr top

theorem Represents.safe {reader : RedisReader} {mode : Mode} (represents : Represents reader mode)
    (sound : mode.Sound) : reader.Safe := by
  cases represents with
  | between good free inside nothing =>
      refine ⟨inside, ?_, ?_⟩
      · simp [free]
      · simp [free]
  | parsing good busy inside nothing shallow =>
      refine ⟨inside, ?_, ?_⟩
      · rw [busy, tasks, List.length_cons, length_containers]
        exact Nat.succ_le_succ sound.1.shallow
      · rw [busy]
        exact isChain_containers sound.1.waiting _ rfl
  | failed error => exact ⟨Nat.le_refl _, Nat.zero_le _, .nil⟩

end Hiredis

end IOCPChatServer

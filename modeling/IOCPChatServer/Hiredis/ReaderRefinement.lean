import IOCPChatServer.Hiredis.ReplyMachine

/-!
# The reply parser refines its machine

Every call of `redisReaderGetReply` makes as many steps of the machine as there are up to the
next reply, and stops where the machine waits.  So the replies which are taken, and what is
left, are those of the machine for the whole input: the chunks in which the server's bytes
are received do not matter (`receive_congr`).
-/

namespace IOCPChatServer

namespace Hiredis

open PrefixTree (Frame Token push complete)
open Resumable (Taken Reading)

/-- `calloc` grants no more pointers than an `int` counts. -/
def CLibrary.CountsElements (library : CLibrary) : Prop :=
  ∀ count, library.calloc count = true → count < 2 ^ 31

/-- A C library with little memory. -/
def CLibrary.small : CLibrary where
  calloc count := count < 100
  strtod _ := false

theorem CLibrary.countsElements_small : CLibrary.small.CountsElements :=
  fun _ granted => (of_decide_eq_true granted).trans (by decide)

/-! ## The task stack of a stack of frames -/

/-- The index of the current item in its parent. -/
def indexIn : ReplyStack → Int
  | [] => -1
  | frame :: _ => frame.filled.length

/-- The tasks of the incomplete aggregates. -/
def containers : ReplyStack → List RedisReadTask
  | [] => []
  | frame :: below =>
      { type := some (.aggregate frame.label)
        elements := frame.count
        idx := indexIn below
        obj := frame.filled } :: containers below

/-- The task of the current item. -/
def currentTask (stack : ReplyStack) (type : Option ReplyType) : RedisReadTask :=
  { type := type, idx := indexIn stack }

def tasks (stack : ReplyStack) (type : Option ReplyType) : List RedisReadTask :=
  currentTask stack type :: containers stack

theorem length_containers (stack : ReplyStack) : (containers stack).length = stack.length := by
  induction stack with
  | nil => rfl
  | cons frame below ih => simp only [containers, List.length_cons, ih]

/-- The tasks after an object was finished. -/
def tasksAfter (completed : Option RedisReply × ReplyStack) : List RedisReadTask :=
  match completed.1 with
  | some _ => []
  | none => tasks completed.2 none

/-- `moveToNextTask` completes the aggregates as the stack of frames does. -/
theorem moveToNextTask_containers (obj : RedisReply) (stack : ReplyStack) (cur : RedisReadTask)
    (index : cur.idx = indexIn stack) :
    RedisReader.moveToNextTask obj cur (containers stack) =
      ((complete obj stack).1, tasksAfter (complete obj stack)) := by
  induction stack generalizing obj cur with
  | nil => rfl
  | cons frame below ih =>
      have last : cur.idx = (frame.count : Int) - 1 ↔ frame.filled.length + 1 = frame.count := by
        rw [index]
        simp only [indexIn]
        omega
      simp only [containers, RedisReader.moveToNextTask, last]
      unfold complete
      split
      · exact ih _ _ rfl
      · simp [tasksAfter, tasks, currentTask, containers, index, indexIn]

/-- The reader's state for a state of the machine.  Between two replies there are no tasks, or
the one which `redisReaderGetReply` begins with. -/
inductive Represents : RedisReader → Mode → Prop where
  | between {reader : RedisReader} (good : reader.err = none) (free : reader.rstack = [])
      (inside : reader.pos ≤ reader.buf.length) (nothing : reader.reply = none) :
      Represents reader (.parsing [] none)
  | parsing {reader : RedisReader} {stack : ReplyStack} {type : Option ReplyType}
      (good : reader.err = none) (busy : reader.rstack = tasks stack type)
      (inside : reader.pos ≤ reader.buf.length) (nothing : reader.reply = none)
      (shallow : ∀ known, type = some known → Mode.tooDeep stack known = false) :
      Represents reader (.parsing stack type)
  | failed (error : ReaderError) : Represents (RedisReader.setError error) (.failed error)

theorem represents_init : Represents {} (.parsing [] none) :=
  .between rfl rfl (Nat.le_refl 0) rfl

namespace RedisReader

theorem length_unread (reader : RedisReader) :
    reader.unread.length = reader.buf.length - reader.pos := List.length_drop

theorem unread_setError (error : ReaderError) : (setError error).unread = [] := rfl

/-- The reader behind an item. -/
def advance (reader : RedisReader) (stack : ReplyStack) (token : ReplyToken) (consumed : Nat) :
    RedisReader :=
  { reader with
    pos := reader.pos + consumed
    rstack := tasksAfter (push stack token)
    reply := (push stack token).1.or reader.reply }

theorem unread_advance (reader : RedisReader) (stack : ReplyStack) (token : ReplyToken)
    (consumed : Nat) :
    (reader.advance stack token consumed).unread = reader.unread.drop consumed :=
  List.drop_drop.symm

/-- What the functions for the types make of what is behind the type byte. -/
def follows (reader : RedisReader) (stack : ReplyStack) : Lexed → Option (Bool × RedisReader)
  | .wait => some (false, reader)
  | .fail error _ => some (false, setError error)
  | .overrun _ => none
  | .token token consumed => some (true, reader.advance stack token consumed)

/-- An object without elements was created. -/
theorem created_leaf (reader : RedisReader) (stack : ReplyStack) (value : ScalarReply)
    (cur : RedisReadTask) (index : cur.idx = indexIn stack) (consumed : Nat) :
    { reader with pos := reader.pos + consumed }.created cur (containers stack) (.leaf value) =
      reader.advance stack (.leaf value) consumed := by
  simp only [created, moveToNextTask_containers _ stack cur index]
  rfl

theorem processLineItem_eq (library : CLibrary) (reader : RedisReader) (type : ReplyType)
    (stack : ReplyStack) (cur : RedisReadTask) (index : cur.idx = indexIn stack) :
    some (reader.processLineItem library type cur (containers stack)) =
      reader.follows stack (lexLine library type reader.unread) := by
  unfold processLineItem readLine lexLine
  cases seekNewline reader.unread with
  | none => rfl
  | some position =>
      simp only [Option.map_some]
      cases lineObject library type (reader.unread.take position) with
      | error error => rfl
      | ok value => exact congrArg (fun after => some (true, after)) (created_leaf _ _ _ _ index _)

theorem processBulkItem_eq (reader : RedisReader) (stack : ReplyStack) (cur : RedisReadTask)
    (index : cur.idx = indexIn stack) (fits : reader.unread.length ≤ capacity)
    (inside : reader.pos ≤ reader.buf.length) :
    reader.processBulkItem cur (containers stack) =
      reader.follows stack (lexBulk reader.unread) := by
  have created (value : ScalarReply) (consumed : Nat) :=
    created_leaf reader stack value cur index consumed
  have bound : capacity = 2 ^ 31 := rfl
  have length := reader.length_unread
  unfold processBulkItem lexBulk
  cases found : seekNewline reader.unread with
  | none => rfl
  | some position =>
      have room := seekNewline_lt found
      dsimp only
      cases string2ll (reader.unread.take position) with
      | none => rfl
      | some len =>
          dsimp only
          by_cases negative : len < -1
          · rw [if_pos negative, if_pos negative]
            rfl
          · rw [if_neg negative, if_neg negative]
            by_cases nil : len = -1
            · rw [if_pos nil, if_pos nil, created]
              rfl
            · rw [if_neg nil, if_neg nil]
              by_cases there : position + 2 + (len.toNat + 2) ≤ reader.unread.length
              · have short : (position + 2 + (len.toNat + 2)) % 2 ^ 32 =
                    position + 2 + (len.toNat + 2) := Nat.mod_eq_of_lt (by omega)
                have behind : len.toNat ≤ (reader.unread.drop (position + 2)).length := by
                  rw [List.length_drop]
                  omega
                rw [if_pos there, short, if_pos (by omega), if_pos behind, created]
                rfl
              · rw [if_neg there]
                by_cases wrapped :
                    (position + 2 + (len.toNat + 2)) % 2 ^ 32 ≤ reader.unread.length
                · have missing : ¬ len.toNat ≤ (reader.unread.drop (position + 2)).length := by
                    rw [List.length_drop]
                    omega
                  rw [if_pos wrapped, if_pos (by omega), if_neg missing]
                  rfl
                · rw [if_neg wrapped, if_neg (by omega)]
                  rfl

theorem processAggregateItem_eq {library : CLibrary} (counts : library.CountsElements)
    (reader : RedisReader) (type : AggregateType) (stack : ReplyStack) (cur : RedisReadTask)
    (known : cur = currentTask stack (some (.aggregate type)))
    (shallow : stack.length ≠ depthLimit) :
    some (reader.processAggregateItem library type cur (containers stack)) =
      reader.follows stack (lexAggregate library type reader.unread) := by
  have index : cur.idx = indexIn stack := by rw [known, currentTask]
  have created (value : ScalarReply) (consumed : Nat) :=
    created_leaf reader stack value cur index consumed
  have accepted : stack.length ≠ 8 := shallow
  unfold processAggregateItem readLine lexAggregate
  rw [length_containers, if_neg accepted]
  cases seekNewline reader.unread with
  | none => rfl
  | some position =>
      simp only [Option.map_some]
      cases string2ll (reader.unread.take position) with
      | none => rfl
      | some announced =>
          dsimp only
          by_cases negative : announced < -1
          · rw [if_pos negative, if_pos negative]
            rfl
          · rw [if_neg negative, if_neg negative]
            by_cases nil : announced = -1
            · rw [if_pos nil, if_pos nil, created]
              rfl
            · rw [if_neg nil, if_neg nil]
              generalize (if type = AggregateType.map then announced.toNat * 2
                else announced.toNat) = elements
              by_cases positive : 0 < elements
              · rw [if_pos positive, if_pos positive]
                by_cases granted : library.calloc elements = true
                · have small := counts elements granted
                  rw [if_pos granted, if_pos granted, toInt_eq (by omega) (by omega), known]
                  obtain ⟨count, rfl⟩ :=
                    Nat.exists_eq_succ_of_ne_zero (Nat.pos_iff_ne_zero.mp positive)
                  rfl
                · rw [if_neg granted, if_neg granted]
                  rfl
              · rw [if_neg positive, if_neg positive]
                have moved := moveToNextTask_containers (.node type []) stack cur index
                simp only [RedisReader.created, moved]
                rfl

/-- The functions for the types find what the machine finds. -/
theorem processTyped_eq {library : CLibrary} (counts : library.CountsElements)
    (reader : RedisReader) (type : ReplyType) (stack : ReplyStack)
    (fits : reader.unread.length ≤ capacity) (inside : reader.pos ≤ reader.buf.length)
    (shallow : Mode.tooDeep stack type = false) :
    reader.processTyped library type (currentTask stack (some type)) (containers stack) =
      reader.follows stack (lex library type reader.unread) := by
  cases type with
  | string => exact processBulkItem_eq reader stack _ rfl fits inside
  | aggregate type =>
      refine processAggregateItem_eq counts reader type stack _ rfl ?_
      simpa [Mode.tooDeep] using shallow
  | _ => exact processLineItem_eq library reader _ stack _ rfl

end RedisReader

/-! ## One item -/

/-- The machine's reading of some bytes. -/
def reading (library : CLibrary) (mode : Mode) (input : Bytes) : Reading Mode UInt8 RedisReply :=
  Resumable.read (Mode.next library) mode input

theorem reading_failed (library : CLibrary) (error : ReaderError) (input : Bytes) :
    reading library (.failed error) input = ⟨.failed error, [], []⟩ := by
  induction input with
  | nil => rfl
  | cons byte rest ih =>
      have taken : Mode.next library (.failed error) (byte :: rest) =
          some { state := .failed error, consumed := 1 } := Mode.next_cons fun _ => rfl
      exact ((lawful_next library).read_of_some taken).trans
        (congrArg (Reading.after { state := .failed error, consumed := 1 }) ih)

theorem reading_overrun (library : CLibrary) (input : Bytes) :
    reading library .overrun input = ⟨.overrun, [], []⟩ := by
  induction input with
  | nil => rfl
  | cons byte rest ih =>
      have taken : Mode.next library .overrun (byte :: rest) =
          some { state := .overrun, consumed := 1 } := Mode.next_cons fun _ => rfl
      exact ((lawful_next library).read_of_some taken).trans
        (congrArg (Reading.after { state := .overrun, consumed := 1 }) ih)

/-- What `processItem` makes of a reading of the machine: it stops where the machine waits,
or goes on behind an item.  `start` is the number of bytes which it had. -/
inductive ItemCase (library : CLibrary) (start : Nat) (whole : Reading Mode UInt8 RedisReply) :
    Option (Bool × RedisReader) → Prop where
  | waits (next : RedisReader) (stack : ReplyStack) (type : Option ReplyType)
      (represents : Represents next (.parsing stack type)) (busy : next.rstack ≠ [])
      (same : whole = ⟨.parsing stack type, next.unread, []⟩) :
      ItemCase library start whole (some (false, next))
  | failed (error : ReaderError) (same : whole = ⟨.failed error, [], []⟩) :
      ItemCase library start whole (some (false, RedisReader.setError error))
  | overrun (same : whole = ⟨.overrun, [], []⟩) : ItemCase library start whole none
  | item (next : RedisReader) (completed : Option RedisReply × ReplyStack) (good : next.err = none)
      (moved : next.rstack = tasksAfter completed) (inside : next.pos ≤ next.buf.length)
      (stored : next.reply = completed.1) (shorter : next.unread.length < start)
      (empty : ∀ reply, completed.1 = some reply → completed.2 = [])
      (same : whole = { reading library (.parsing completed.2 none) next.unread with
        outputs := completed.1.toList ++
          (reading library (.parsing completed.2 none) next.unread).outputs }) :
      ItemCase library start whole (some (true, next))

/-- An item whose type is known. -/
theorem itemCase_typed {library : CLibrary} (counts : library.CountsElements)
    (reader : RedisReader) {stack : ReplyStack} {type : ReplyType} (start : Nat)
    (good : reader.err = none) (busy : reader.rstack = tasks stack (some type))
    (inside : reader.pos ≤ reader.buf.length) (nothing : reader.reply = none)
    (shallow : Mode.tooDeep stack type = false) (fits : reader.unread.length ≤ capacity)
    (enough : reader.unread.length ≤ start) :
    ItemCase library start (reading library (.parsing stack (some type)) reader.unread)
      (reader.processTyped library type (currentTask stack (some type)) (containers stack)) := by
  rw [RedisReader.processTyped_eq counts reader type stack fits inside shallow]
  have lawful := lawful_next library
  have next : Mode.next library (.parsing stack (some type)) reader.unread =
      Mode.stepItem library stack type reader.unread := Mode.next_eq fits
  cases found : lex library type reader.unread with
  | wait =>
      have waits : Mode.next library (.parsing stack (some type)) reader.unread = none := by
        simp only [next, Mode.stepItem, found]
      refine .waits reader stack (some type) (.parsing good busy inside nothing ?_) ?_
        (Resumable.read_of_none waits)
      · rintro known ⟨⟩
        exact shallow
      · rw [busy]
        exact List.cons_ne_nil _ _
  | fail error consumed =>
      have takes : Mode.next library (.parsing stack (some type)) reader.unread =
          some { state := .failed error, consumed } := by
        simp only [next, Mode.stepItem, found]
      refine .failed error ?_
      rw [reading, lawful.read_of_some takes, ← reading, reading_failed]
      rfl
  | overrun consumed =>
      have takes : Mode.next library (.parsing stack (some type)) reader.unread =
          some { state := .overrun, consumed } := by
        simp only [next, Mode.stepItem, found]
      refine .overrun ?_
      rw [reading, lawful.read_of_some takes, ← reading, reading_overrun]
      rfl
  | token token consumed =>
      have takes : Mode.next library (.parsing stack (some type)) reader.unread =
          some {
            state := .parsing (push stack token).2 none
            consumed
            output := (push stack token).1 } := by
        simp only [next, Mode.stepItem, found]
      have available := lawful.available takes
      have positive := lawful.positive takes
      dsimp only at available positive
      have length := reader.length_unread
      refine .item (reader.advance stack token consumed) (push stack token) good rfl ?_ ?_ ?_
        (fun reply yields => PrefixTree.push_yields yields) ?_
      · simp only [RedisReader.advance]
        omega
      · simp only [RedisReader.advance, nothing, Option.or_none]
      · rw [RedisReader.unread_advance, List.length_drop]
        omega
      · rw [RedisReader.unread_advance, reading, lawful.read_of_some takes]
        rfl

/-- `processItem` in any state in which there is a task. -/
theorem itemCase_processItem {library : CLibrary} (counts : library.CountsElements)
    {reader : RedisReader} {stack : ReplyStack} {type : Option ReplyType}
    (good : reader.err = none) (busy : reader.rstack = tasks stack type)
    (inside : reader.pos ≤ reader.buf.length) (nothing : reader.reply = none)
    (shallow : ∀ known, type = some known → Mode.tooDeep stack known = false)
    (fits : reader.unread.length ≤ capacity) :
    ItemCase library reader.unread.length (reading library (.parsing stack type) reader.unread)
      (reader.processItem library) := by
  unfold RedisReader.processItem
  rw [busy]
  cases type with
  | some type =>
      exact itemCase_typed counts reader _ good busy inside nothing (shallow type rfl) fits
        (Nat.le_refl _)
  | none =>
      simp only [tasks, currentTask]
      cases input : reader.unread with
      | nil =>
          refine .waits reader stack none (.parsing good busy inside nothing nofun) ?_ ?_
          · rw [busy]
            exact List.cons_ne_nil _ _
          · rw [input]
            exact Resumable.read_of_none rfl
      | cons byte rest =>
          have takes : Mode.next library (.parsing stack none) (byte :: rest) =
              some { state := Mode.stepType stack byte, consumed := 1 } :=
            Mode.next_cons fun _ => rfl
          have first : reading library (.parsing stack none) (byte :: rest) =
              reading library (Mode.stepType stack byte) rest :=
            (lawful_next library).read_of_some takes
          rw [first]
          unfold Mode.stepType
          dsimp only
          cases RedisReader.replyType byte with
          | none => exact .failed _ (reading_failed library _ rest)
          | some type =>
              dsimp only
              have length := reader.length_unread
              rw [input, List.length_cons] at length fits
              have behind : { reader with
                  pos := reader.pos + 1
                  rstack := tasks stack (some type) }.unread = rest := by
                have dropped : reader.buf.drop (reader.pos + 1) = reader.unread.drop 1 :=
                  List.drop_drop.symm
                exact dropped.trans (congrArg (List.drop 1) input)
              cases deep : Mode.tooDeep stack type with
              | true =>
                  rw [if_pos rfl]
                  cases type with
                  | aggregate type =>
                      have limit : stack.length = 8 := by
                        simpa [Mode.tooDeep, depthLimit] using deep
                      simp only [RedisReader.processTyped, RedisReader.processAggregateItem,
                        length_containers, limit, if_true]
                      exact .failed _ (reading_failed library _ rest)
                  | _ => cases deep
              | false =>
                  rw [if_neg Bool.false_ne_true]
                  have room : reader.pos + 1 ≤ reader.buf.length := by omega
                  have typed := itemCase_typed counts { reader with
                      pos := reader.pos + 1
                      rstack := tasks stack (some type) }
                    (rest.length + 1) good rfl room nothing deep
                  rw [behind] at typed
                  exact typed (by omega) (Nat.le_succ _)

end Hiredis

end IOCPChatServer

import IOCPChatServer.Hiredis.ReaderRefinement

/-!
# Runs of the reply parser

From one item to a reply, from a reply to all replies in the buffer, and from there to all
chunks which the server sends.  The parser always stops where the machine waits, so the
machine's law about chunks is one about the parser.
-/

namespace IOCPChatServer

namespace Hiredis

open PrefixTree (push)
open Resumable (Reading)

/-! ## One reply -/

/-- What the loop over the items makes of a reading of the machine.  `start` is the number of
bytes which it had. -/
inductive LoopCase (library : CLibrary) (start : Nat) (whole : Reading Mode UInt8 RedisReply) :
    Option RedisReader → Prop where
  | waits (next : RedisReader) (stack : ReplyStack) (type : Option ReplyType)
      (represents : Represents next (.parsing stack type)) (busy : next.rstack ≠ [])
      (same : whole = ⟨.parsing stack type, next.unread, []⟩) :
      LoopCase library start whole (some next)
  | failed (error : ReaderError) (same : whole = ⟨.failed error, [], []⟩) :
      LoopCase library start whole (some (RedisReader.setError error))
  | overrun (same : whole = ⟨.overrun, [], []⟩) : LoopCase library start whole none
  | yields (next : RedisReader) (reply : RedisReply) (good : next.err = none)
      (free : next.rstack = []) (inside : next.pos ≤ next.buf.length)
      (stored : next.reply = some reply) (shorter : next.unread.length < start)
      (same : whole = { reading library (.parsing [] none) next.unread with
        outputs := reply :: (reading library (.parsing [] none) next.unread).outputs }) :
      LoopCase library start whole (some next)

theorem LoopCase.mono {library : CLibrary} {start later : Nat}
    {whole : Reading Mode UInt8 RedisReply} {result : Option RedisReader}
    (outcome : LoopCase library start whole result) (grows : start ≤ later) :
    LoopCase library later whole result := by
  cases outcome with
  | waits next stack type represents busy same => exact .waits next stack type represents busy same
  | failed error same => exact .failed error same
  | overrun same => exact .overrun same
  | yields next reply good free inside stored shorter same =>
      exact .yields next reply good free inside stored (shorter.trans_le grows) same

theorem loopCase_processItems {library : CLibrary} (counts : library.CountsElements) {fuel : Nat}
    {reader : RedisReader} {stack : ReplyStack} {type : Option ReplyType}
    (good : reader.err = none) (busy : reader.rstack = tasks stack type)
    (inside : reader.pos ≤ reader.buf.length) (nothing : reader.reply = none)
    (shallow : ∀ known, type = some known → Mode.tooDeep stack known = false)
    (fits : reader.unread.length ≤ capacity) (enough : reader.unread.length < fuel) :
    LoopCase library reader.unread.length (reading library (.parsing stack type) reader.unread)
      (reader.processItems library fuel) := by
  induction fuel generalizing reader stack type with
  | zero => exact absurd enough (Nat.not_lt_zero _)
  | succ fuel ih =>
      have item := itemCase_processItem counts good busy inside nothing shallow fits
      have some_task : reader.rstack.isEmpty = false := by
        rw [busy]
        rfl
      unfold RedisReader.processItems
      rw [some_task, if_neg Bool.false_ne_true]
      generalize reader.processItem library = processed at item
      cases item with
      | waits next stack type represents busy same =>
          exact .waits next stack type represents busy same
      | failed error same => exact .failed error same
      | overrun same => exact .overrun same
      | item next completed good moved inside stored shorter empty same =>
          obtain ⟨finished, below⟩ := completed
          cases finished with
          | some reply =>
              have alone : below = [] := empty reply rfl
              subst alone
              have stops : next.processItems library fuel = some next := by
                cases fuel with
                | zero => rfl
                | succ fuel => simp only [RedisReader.processItems, moved, tasksAfter,
                    List.isEmpty_nil, if_true]
              dsimp only
              rw [stops]
              exact .yields next reply good moved inside stored shorter same
          | none =>
              have untyped : ∀ known, (none : Option ReplyType) = some known →
                  Mode.tooDeep below known = false :=
                fun known same => absurd same.symm (Option.some_ne_none known)
              have later := ih good moved inside stored untyped (by omega) (by omega)
              rw [same]
              exact later.mono shorter.le

namespace RedisReader

theorem unread_discard (reader : RedisReader) : reader.discard.unread = reader.unread := by
  unfold discard
  split
  · exact List.drop_zero
  · rfl

theorem rstack_discard (reader : RedisReader) : reader.discard.rstack = reader.rstack := by
  unfold discard
  split <;> rfl

theorem reply_discard (reader : RedisReader) : reader.discard.reply = reader.reply := by
  unfold discard
  split <;> rfl

theorem err_discard (reader : RedisReader) : reader.discard.err = reader.err := by
  unfold discard
  split <;> rfl

theorem inside_discard {reader : RedisReader} (inside : reader.pos ≤ reader.buf.length) :
    reader.discard.pos ≤ reader.discard.buf.length := by
  unfold discard
  split
  · exact Nat.zero_le _
  · exact inside

end RedisReader

theorem represents_discard {reader : RedisReader} {stack : ReplyStack} {type : Option ReplyType}
    (represents : Represents reader (.parsing stack type)) :
    Represents reader.discard (.parsing stack type) := by
  cases represents with
  | between good free inside nothing =>
      exact .between ((reader.err_discard).trans good) ((reader.rstack_discard).trans free)
        (RedisReader.inside_discard inside) ((reader.reply_discard).trans nothing)
  | parsing good busy inside nothing shallow =>
      exact .parsing ((reader.err_discard).trans good) ((reader.rstack_discard).trans busy)
        (RedisReader.inside_discard inside) ((reader.reply_discard).trans nothing) shallow

/-- What `redisReaderGetReply` makes of a reading of the machine. -/
inductive ReplyCase (library : CLibrary) (start : Nat) (whole : Reading Mode UInt8 RedisReply) :
    Option (Option RedisReply × RedisReader) → Prop where
  | waits (next : RedisReader) (represents : Represents next whole.state)
      (same : whole = ⟨whole.state, next.unread, []⟩) :
      ReplyCase library start whole (some (none, next))
  | overrun (same : whole = ⟨.overrun, [], []⟩) : ReplyCase library start whole none
  | yields (next : RedisReader) (reply : RedisReply)
      (represents : Represents next (.parsing [] none)) (shorter : next.unread.length < start)
      (same : whole = { reading library (.parsing [] none) next.unread with
        outputs := reply :: (reading library (.parsing [] none) next.unread).outputs }) :
      ReplyCase library start whole (some (some reply, next))

/-- `redisReaderGetReply` when there is something in the buffer. -/
theorem replyCase_of_loopCase {library : CLibrary} {start : Nat}
    {whole : Reading Mode UInt8 RedisReply} {result : Option RedisReader}
    (outcome : LoopCase library start whole result) :
    ReplyCase library start whole (result.map fun after =>
      if after.err.isSome then (none, after)
      else
        let discarded := after.discard
        if discarded.rstack.isEmpty then (discarded.reply, { discarded with reply := none })
        else (none, discarded)) := by
  cases outcome with
  | waits next stack type represents busy same =>
      have good : next.err = none := by
        cases represents <;> assumption
      have some_task : next.discard.rstack.isEmpty = false := by
        rw [next.rstack_discard]
        simpa using busy
      simp only [Option.map_some, good, Option.isSome_none, Bool.false_eq_true, if_false,
        some_task]
      subst same
      refine .waits next.discard (represents_discard represents) ?_
      rw [next.unread_discard]
  | failed error same =>
      subst same
      exact .waits (RedisReader.setError error) (.failed error) rfl
  | overrun same => exact .overrun same
  | yields next reply good free inside stored shorter same =>
      have no_task : next.discard.rstack.isEmpty = true := by
        rw [next.rstack_discard, free]
        rfl
      have kept : { next.discard with reply := none }.unread = next.unread := next.unread_discard
      simp only [Option.map_some, good, Option.isSome_none, Bool.false_eq_true, if_false,
        no_task, if_true, next.reply_discard, stored]
      refine .yields { next.discard with reply := none } reply ?_ ?_ ?_
      · exact .between (next.err_discard.trans good) (next.rstack_discard.trans free)
          (RedisReader.inside_discard inside) rfl
      · rwa [kept]
      · rwa [kept]

theorem next_nil (library : CLibrary) (mode : Mode) : Mode.next library mode [] = none := by
  cases taken : Mode.next library mode [] with
  | none => rfl
  | some taken =>
      have shorter := (lawful_next library).shorter taken
      exact absurd shorter (Nat.not_lt_zero _)

theorem reading_nil (library : CLibrary) (mode : Mode) :
    reading library mode [] = ⟨mode, [], []⟩ := Resumable.read_of_none (next_nil library mode)

theorem replyCase_redisReaderGetReply {library : CLibrary} (counts : library.CountsElements)
    {reader : RedisReader} {mode : Mode} (represents : Represents reader mode)
    (fits : reader.unread.length ≤ capacity) :
    ReplyCase library reader.unread.length (reading library mode reader.unread)
      (reader.redisReaderGetReply library) := by
  have loop (begun : RedisReader) (stack : ReplyStack) (type : Option ReplyType)
      (same : begun.unread = reader.unread) (good : begun.err = none)
      (busy : begun.rstack = tasks stack type) (inside : begun.pos ≤ begun.buf.length)
      (nothing : begun.reply = none)
      (shallow : ∀ known, type = some known → Mode.tooDeep stack known = false) :=
    replyCase_of_loopCase (same ▸ loopCase_processItems counts good busy inside nothing shallow
      (same ▸ fits) (Nat.lt_succ_self _))
  have empty {stack : ReplyStack} {type : Option ReplyType} (blank : reader.buf.isEmpty = true)
      (represents : Represents reader (.parsing stack type)) :
      ReplyCase library reader.unread.length
        (reading library (.parsing stack type) reader.unread) (some (none, reader)) := by
    have nothing : reader.unread = [] := by
      rw [RedisReader.unread, List.isEmpty_iff.mp blank, List.drop_nil]
    rw [nothing, reading_nil]
    refine .waits reader represents ?_
    rw [nothing]
  unfold RedisReader.redisReaderGetReply
  cases represents with
  | failed error =>
      rw [RedisReader.unread_setError, reading_failed]
      exact .waits (RedisReader.setError error) (.failed error) rfl
  | between good free inside nothing =>
      have notFailed : reader.err.isSome = false := congrArg Option.isSome good
      rw [notFailed, Bool.false_or]
      split
      · exact empty ‹_› (.between good free inside nothing)
      · simp only [free, List.isEmpty_nil, if_true]
        exact loop { reader with rstack := [{}] } [] none rfl good rfl inside nothing nofun
  | parsing good busy inside nothing shallow =>
      have notFailed : reader.err.isSome = false := congrArg Option.isSome good
      have some_task : reader.rstack.isEmpty = false := congrArg List.isEmpty busy
      rw [notFailed, Bool.false_or]
      split
      · exact empty ‹_› (.parsing good busy inside nothing shallow)
      · rw [some_task, if_neg Bool.false_ne_true]
        exact loop reader _ _ rfl good busy inside nothing shallow

/-! ## All replies -/

/-- What taking all replies makes of a reading of the machine. -/
inductive RepliesCase (whole : Reading Mode UInt8 RedisReply) :
    Option (List RedisReply × RedisReader) → Prop where
  | read (next : RedisReader) (represents : Represents next whole.state)
      (left : next.unread = whole.rest) : RepliesCase whole (some (whole.outputs, next))
  | overrun (lost : whole.state = .overrun) (nothing : whole.rest = []) : RepliesCase whole none

theorem repliesCase_replies {library : CLibrary} (counts : library.CountsElements) {fuel : Nat}
    {reader : RedisReader} {mode : Mode} (represents : Represents reader mode)
    (fits : reader.unread.length ≤ capacity) (enough : reader.unread.length < fuel) :
    RepliesCase (reading library mode reader.unread) (reader.replies library fuel) := by
  induction fuel generalizing reader mode with
  | zero => exact absurd enough (Nat.not_lt_zero _)
  | succ fuel ih =>
      have one := replyCase_redisReaderGetReply counts represents fits
      unfold RedisReader.replies
      generalize reader.redisReaderGetReply library = result at one
      cases one with
      | waits next represents same =>
          rw [same]
          exact .read next represents rfl
      | overrun same =>
          rw [same]
          exact .overrun rfl rfl
      | yields next reply represents shorter same =>
          have later := ih represents (by omega) (by omega)
          dsimp only
          rw [same]
          generalize next.replies library fuel = taken at later
          cases later with
          | read last represents left => exact .read last represents left
          | overrun lost nothing => exact .overrun lost nothing

/-- More bytes for the parser. -/
theorem represents_feed {reader : RedisReader} {stack : ReplyStack} {type : Option ReplyType}
    (represents : Represents reader (.parsing stack type)) (chunk : Bytes) :
    Represents (reader.redisReaderFeed chunk) (.parsing stack type) ∧
      (reader.redisReaderFeed chunk).unread = reader.unread ++ chunk := by
  have longer (inside : reader.pos ≤ reader.buf.length) :
      reader.pos ≤ (reader.buf ++ chunk).length := by
    rw [List.length_append]
    omega
  cases represents with
  | between good free inside nothing =>
      rw [RedisReader.redisReaderFeed, if_neg (by simp [good])]
      exact ⟨.between good free (longer inside) nothing, List.drop_append_of_le_length inside⟩
  | parsing good busy inside nothing shallow =>
      rw [RedisReader.redisReaderFeed, if_neg (by simp [good])]
      exact ⟨.parsing good busy (longer inside) nothing shallow,
        List.drop_append_of_le_length inside⟩

/-! ## All chunks -/

/-- The bytes which wait in the buffer are never more than the parser's counters hold. -/
def RedisReader.WithinCapacity (library : CLibrary) : RedisReader → List Bytes → Prop
  | _, [] => True
  | reader, chunk :: later =>
      (reader.redisReaderFeed chunk).unread.length ≤ capacity ∧
        ∀ now, (reader.redisReaderFeed chunk).replies library
            ((reader.redisReaderFeed chunk).unread.length + 1) = some now →
          WithinCapacity library now.2 later

theorem receive_failed (library : CLibrary) (error : ReaderError) (chunks : List Bytes) :
    RedisReader.receive library (RedisReader.setError error) chunks =
      some ([], RedisReader.setError error) := by
  induction chunks with
  | nil => rfl
  | cons chunk later ih =>
      have same : RedisReader.receive library (RedisReader.setError error) (chunk :: later) =
          (RedisReader.receive library (RedisReader.setError error) later).bind
            fun rest => some ([] ++ rest.1, rest.2) := rfl
      rw [same, ih]
      rfl

theorem reading_append (library : CLibrary) (mode : Mode) (input more : Bytes) :
    reading library mode (input ++ more) =
      (reading library mode input).andThen
        (reading library (reading library mode input).state
          ((reading library mode input).rest ++ more)) :=
  (lawful_next library).read_append mode input more

theorem reading_stops (library : CLibrary) (mode : Mode) (input : Bytes) :
    reading library (reading library mode input).state (reading library mode input).rest =
      ⟨(reading library mode input).state, (reading library mode input).rest, []⟩ :=
  Resumable.read_of_none ((lawful_next library).read_waits mode input)

/-- The parser makes of the chunks what the machine makes of all their bytes. -/
theorem repliesCase_receive {library : CLibrary} (counts : library.CountsElements)
    {chunks : List Bytes} {reader : RedisReader} {mode : Mode}
    (represents : Represents reader mode)
    (waits : reading library mode reader.unread = ⟨mode, reader.unread, []⟩)
    (within : reader.WithinCapacity library chunks) :
    RepliesCase (reading library mode (reader.unread ++ chunks.flatten))
      (reader.receive library chunks) := by
  induction chunks generalizing reader mode with
  | nil =>
      rw [List.flatten_nil, List.append_nil, waits]
      exact .read reader represents rfl
  | cons chunk later ih =>
      rw [List.flatten_cons, ← List.append_assoc, reading_append]
      cases mode with
      | overrun => cases represents
      | failed error =>
          cases represents
          rw [receive_failed, reading_failed, reading_failed]
          exact .read (RedisReader.setError error) (.failed error) rfl
      | parsing stack type =>
          obtain ⟨fed, unread⟩ := represents_feed represents chunk
          obtain ⟨fits, withinLater⟩ := within
          have now := repliesCase_replies counts fed fits (Nat.lt_succ_self _)
          have stops := reading_stops library (.parsing stack type) (reader.unread ++ chunk)
          unfold RedisReader.receive
          dsimp only [Option.bind_eq_bind]
          generalize RedisReader.replies library _ _ = taken at now withinLater ⊢
          rw [unread] at now
          generalize reading library (.parsing stack type) (reader.unread ++ chunk) = whole
            at now stops ⊢
          cases now with
          | overrun lost nothing =>
              rw [lost, reading_overrun]
              exact .overrun rfl rfl
          | read next represents left =>
              have rest := ih represents (left ▸ stops) (withinLater _ rfl)
              rw [left] at rest
              dsimp only [Option.bind_some]
              generalize next.receive library later = received at rest ⊢
              cases rest with
              | overrun lost nothing => exact .overrun lost nothing
              | read last represents left => exact .read last represents left

/-- No buffer is too large when everything together is not. -/
theorem withinCapacity_of_length {library : CLibrary} (counts : library.CountsElements)
    {chunks : List Bytes} {reader : RedisReader} {mode : Mode}
    (represents : Represents reader mode)
    (fits : (reader.unread ++ chunks.flatten).length ≤ capacity) :
    reader.WithinCapacity library chunks := by
  induction chunks generalizing reader mode with
  | nil => trivial
  | cons chunk later ih =>
      rw [List.flatten_cons, ← List.append_assoc, List.length_append] at fits
      have fed : ∃ mode, Represents (reader.redisReaderFeed chunk) mode ∧
          (reader.redisReaderFeed chunk).unread.length ≤ (reader.unread ++ chunk).length := by
        cases mode with
        | overrun => cases represents
        | failed error =>
            cases represents
            exact ⟨.failed error, .failed error, Nat.zero_le _⟩
        | parsing stack type =>
            obtain ⟨fed, unread⟩ := represents_feed represents chunk
            exact ⟨_, fed, unread ▸ Nat.le_refl _⟩
      obtain ⟨mode, represents, shorter⟩ := fed
      have now := repliesCase_replies counts represents (by omega) (Nat.lt_succ_self _)
      have suffix := ((lawful_next library).read_suffix mode
        (reader.redisReaderFeed chunk).unread).length_le
      refine ⟨by omega, fun taken same => ?_⟩
      rw [same] at now
      cases now with
      | read next represents left =>
          refine ih represents ?_
          rw [left, List.length_append]
          exact (Nat.add_le_add_right (suffix.trans shorter) _).trans fits

/-- What the user of the parser gets: the replies, the error and what is left.  `none` stands
for a copy of bytes which are not in the buffer. -/
def observed (received : Option (List RedisReply × RedisReader)) :
    Option (List RedisReply × Option ReaderError × Bytes) :=
  received.map fun taken => (taken.1, taken.2.err, taken.2.unread)

/-- The same of a reading of the machine. -/
def observedOf (whole : Reading Mode UInt8 RedisReply) :
    Option (List RedisReply × Option ReaderError × Bytes) :=
  match whole.state with
  | .parsing _ _ => some (whole.outputs, none, whole.rest)
  | .failed error => some (whole.outputs, some error, whole.rest)
  | .overrun => none

theorem RepliesCase.observed_eq {whole : Reading Mode UInt8 RedisReply}
    {received : Option (List RedisReply × RedisReader)} (outcome : RepliesCase whole received) :
    observed received = observedOf whole := by
  obtain ⟨state, rest, outputs⟩ := whole
  cases outcome with
  | read next represents left =>
      cases represents with
      | between good free inside nothing => simp [observed, observedOf, good, left]
      | parsing good busy inside nothing shallow => simp [observed, observedOf, good, left]
      | failed error =>
          have nothing : ([] : Bytes) = rest := left
          rw [← nothing]
          rfl
  | overrun lost nothing =>
      dsimp only at lost
      subst lost
      rfl

/-- A parser which was given nothing before. -/
theorem repliesCase_receive_nil {library : CLibrary} (counts : library.CountsElements)
    {chunks : List Bytes} (within : RedisReader.WithinCapacity library {} chunks) :
    RepliesCase (reading library (.parsing [] none) chunks.flatten)
      (RedisReader.receive library {} chunks) :=
  repliesCase_receive counts represents_init (reading_nil library _) within

end Hiredis

end IOCPChatServer

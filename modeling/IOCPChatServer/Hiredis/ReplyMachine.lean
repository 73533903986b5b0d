import IOCPChatServer.Hiredis.Reader
import IOCPChatServer.Library.Resumable

/-!
# The reply parser as a resumable reader

An abstract description of `redisReader`: the aggregates which are not complete as a stack
of frames, the type of the current item once its byte was read, and one step for a type byte
and one for the rest of an item.  `lawfulUpTo_step` shows that no step depends on bytes which
have not come yet, up to the size which the counters of `seekNewline` can hold.
-/

namespace IOCPChatServer

namespace Hiredis

open PrefixTree (Frame Token push)

/-- The incomplete aggregates, the innermost first. -/
abbrev ReplyStack := List (Frame ScalarReply AggregateType)

abbrev ReplyToken := Token ScalarReply AggregateType

/-- What is found behind a type byte, with the number of bytes which decide it. -/
inductive Lexed where
  | wait
  | fail (error : ReaderError) (consumed : Nat)
  | overrun (consumed : Nat)
  | token (token : ReplyToken) (consumed : Nat)

def lexLine (library : CLibrary) (type : ReplyType) (unread : Bytes) : Lexed :=
  match seekNewline unread with
  | none => .wait
  | some len =>
      match RedisReader.lineObject library type (unread.take len) with
      | .error error => .fail error (len + 2)
      | .ok obj => .token (.leaf obj) (len + 2)

def lexBulk (unread : Bytes) : Lexed :=
  match seekNewline unread with
  | none => .wait
  | some position =>
      match string2ll (unread.take position) with
      | none => .fail .badBulkLength (position + 2)
      | some len =>
          if len < -1 then .fail .bulkLengthOutOfRange (position + 2)
          else if len = -1 then .token (.leaf .nil) (position + 2)
          else
            let needed := position + 2 + (len.toNat + 2)
            if needed ≤ unread.length then
              .token (.leaf (.string ((unread.drop (position + 2)).take len.toNat))) needed
            -- the length does not fit an `unsigned long`
            else if needed % 2 ^ 32 ≤ unread.length then .overrun (position + 2)
            else .wait

def lexAggregate (library : CLibrary) (type : AggregateType) (unread : Bytes) : Lexed :=
  match seekNewline unread with
  | none => .wait
  | some len =>
      match string2ll (unread.take len) with
      | none => .fail .badMultiBulkLength (len + 2)
      | some announced =>
          if announced < -1 then .fail .multiBulkLengthOutOfRange (len + 2)
          else if announced = -1 then .token (.leaf .nil) (len + 2)
          else
            let elements := if type = .map then announced.toNat * 2 else announced.toNat
            if 0 < elements then
              if library.calloc elements then .token (.node type elements) (len + 2)
              else .fail .outOfMemory (len + 2)
            else .token (.node type 0) (len + 2)

def Lexed.consumed : Lexed → Option Nat
  | .wait => none
  | .fail _ consumed => some consumed
  | .overrun consumed => some consumed
  | .token _ consumed => some consumed

/-- The item behind a type byte. -/
def lex (library : CLibrary) (type : ReplyType) (unread : Bytes) : Lexed :=
  match type with
  | .string => lexBulk unread
  | .aggregate type => lexAggregate library type unread
  | type => lexLine library type unread

/-- The state of the parser; an error is never left. -/
inductive Mode where
  | parsing (stack : ReplyStack) (type : Option ReplyType)
  | failed (error : ReaderError)
  | overrun

/-- The deepest aggregate which is accepted. -/
def depthLimit : Nat := 8

namespace Mode

/-- One step behind a type byte. -/
def stepItem (library : CLibrary) (stack : ReplyStack) (type : ReplyType) (unread : Bytes) :
    Option (Resumable.Taken Mode RedisReply) :=
  match lex library type unread with
  | .wait => none
  | .fail error consumed => some { state := .failed error, consumed }
  | .overrun consumed => some { state := .overrun, consumed }
  | .token token consumed =>
      some {
        state := .parsing (push stack token).2 none
        consumed
        output := (push stack token).1 }

/-- Whether the type is refused at this depth. -/
def tooDeep (stack : ReplyStack) : ReplyType → Bool
  | .aggregate _ => stack.length == depthLimit
  | _ => false

/-- One step at a type byte. -/
def stepType (stack : ReplyStack) (byte : UInt8) : Mode :=
  match RedisReader.replyType byte with
  | none => .failed (.replyTypeByte byte)
  | some type =>
      if tooDeep stack type then .failed .nestedTooDeep else .parsing stack (some type)

/-- The steps of the parser.  After an error all bytes are skipped. -/
def step (library : CLibrary) : Mode → Bytes → Option (Resumable.Taken Mode RedisReply)
  | .parsing stack (some type), unread => stepItem library stack type unread
  | .parsing _ none, [] => none
  | .parsing stack none, byte :: _ => some { state := stepType stack byte, consumed := 1 }
  | .failed _, [] => none
  | .failed error, _ :: _ => some { state := .failed error, consumed := 1 }
  | .overrun, [] => none
  | .overrun, _ :: _ => some { state := .overrun, consumed := 1 }

end Mode

/-! ## The steps are lawful -/

/-- What was found consumes something that is there, and more bytes do not change it. -/
structure Lexed.Settled (found : Bytes → Lexed) (unread : Bytes) (consumed : Nat) : Prop where
  positive : 0 < consumed
  available : consumed ≤ unread.length
  stable : ∀ more, (unread ++ more).length ≤ capacity → found (unread ++ more) = found unread

/-- A newline which was found is found when more bytes come, with the same line before it. -/
theorem seekNewline_append {unread more : Bytes} {position : Nat}
    (found : seekNewline unread = some position) (fits : (unread ++ more).length ≤ capacity) :
    seekNewline (unread ++ more) = some position ∧
      (unread ++ more).take position = unread.take position := by
  have shorter : unread.length ≤ capacity := by
    rw [List.length_append] at fits
    omega
  rw [seekNewline_eq shorter] at found
  have room := findNewline_lt found
  refine ⟨?_, List.take_append_of_le_length (by omega)⟩
  rw [seekNewline_eq fits]
  exact findNewline_append found more

/-- The newline is in the bytes, whatever their number. -/
theorem seekNewline_lt {unread : Bytes} {position : Nat}
    (found : seekNewline unread = some position) : position + 2 ≤ unread.length := by
  have room := findNewline_lt found
  rw [List.length_take] at room
  omega

theorem settled_lexLine {library : CLibrary} {type : ReplyType} {unread : Bytes} {consumed : Nat}
    (taken : (lexLine library type unread).consumed = some consumed) :
    Lexed.Settled (lexLine library type) unread consumed := by
  cases found : seekNewline unread with
  | none => simp [lexLine, found, Lexed.consumed] at taken
  | some position =>
      have whole : consumed = position + 2 := by
        simp only [lexLine, found] at taken
        split at taken
        · exact (Option.some.inj taken).symm
        · exact (Option.some.inj taken).symm
      subst whole
      refine ⟨Nat.succ_pos _, seekNewline_lt found, fun more fits => ?_⟩
      obtain ⟨later, line⟩ := seekNewline_append found fits
      simp only [lexLine, found, later, line]

theorem settled_lexAggregate {library : CLibrary} {type : AggregateType} {unread : Bytes}
    {consumed : Nat} (taken : (lexAggregate library type unread).consumed = some consumed) :
    Lexed.Settled (lexAggregate library type) unread consumed := by
  cases found : seekNewline unread with
  | none => simp [lexAggregate, found, Lexed.consumed] at taken
  | some position =>
      have whole : consumed = position + 2 := by
        simp only [lexAggregate, found] at taken
        repeat' split at taken
        all_goals exact (Option.some.inj taken).symm
      subst whole
      refine ⟨Nat.succ_pos _, seekNewline_lt found, fun more fits => ?_⟩
      obtain ⟨later, line⟩ := seekNewline_append found fits
      simp only [lexAggregate, found, later, line]

/-- A bulk string which is there, or would be read from behind the buffer: its length counts
in `bytelen` unless the string is longer than any buffer. -/
theorem settled_lexBulk {unread : Bytes} {consumed : Nat}
    (taken : (lexBulk unread).consumed = some consumed) :
    Lexed.Settled lexBulk unread consumed := by
  cases found : seekNewline unread with
  | none => simp [lexBulk, found, Lexed.consumed] at taken
  | some position =>
      have room := seekNewline_lt found
      cases length : string2ll (unread.take position) with
      | none =>
          simp only [lexBulk, found, length] at taken
          cases taken
          refine ⟨Nat.succ_pos _, room, fun more fits => ?_⟩
          obtain ⟨later, line⟩ := seekNewline_append found fits
          simp only [lexBulk, found, later, line, length]
      | some len =>
          simp only [lexBulk, found, length] at taken
          split at taken
          · rename_i negative
            cases taken
            refine ⟨Nat.succ_pos _, room, fun more fits => ?_⟩
            obtain ⟨later, line⟩ := seekNewline_append found fits
            simp only [lexBulk, found, later, line, length, negative, if_true]
          · rename_i notNegative
            split at taken
            · rename_i nil
              cases taken
              refine ⟨Nat.succ_pos _, room, fun more fits => ?_⟩
              obtain ⟨later, line⟩ := seekNewline_append found fits
              simp only [lexBulk, found, later, line, length, nil, if_true]
            · rename_i notNil
              split at taken
              · rename_i there
                cases taken
                refine ⟨by omega, there, fun more fits => ?_⟩
                obtain ⟨later, line⟩ := seekNewline_append found fits
                have thereLater : position + 2 + (len.toNat + 2) ≤ (unread ++ more).length := by
                  rw [List.length_append]
                  omega
                have string : ((unread ++ more).drop (position + 2)).take len.toNat =
                    (unread.drop (position + 2)).take len.toNat := by
                  rw [List.drop_append_of_le_length room, List.take_append_of_le_length]
                  rw [List.length_drop]
                  omega
                simp only [lexBulk, found, later, line, length, notNegative, notNil, if_false,
                  there, thereLater, if_true, string]
              · rename_i missing
                split at taken
                · rename_i wrapped
                  cases taken
                  refine ⟨Nat.succ_pos _, room, fun more fits => ?_⟩
                  obtain ⟨later, line⟩ := seekNewline_append found fits
                  have bound : capacity = 2 ^ 31 := rfl
                  rw [List.length_append] at fits
                  have missingLater :
                      ¬ position + 2 + (len.toNat + 2) ≤ (unread ++ more).length := by
                    rw [List.length_append]
                    omega
                  have wrappedLater :
                      (position + 2 + (len.toNat + 2)) % 2 ^ 32 ≤ (unread ++ more).length := by
                    rw [List.length_append]
                    omega
                  simp only [lexBulk, found, later, line, length, notNegative, notNil, if_false,
                    missing, missingLater, wrapped, wrappedLater, if_true]
                · cases taken

/-- Whatever stands behind a type byte. -/
theorem settled_lex {library : CLibrary} {type : ReplyType} {unread : Bytes} {consumed : Nat}
    (taken : (lex library type unread).consumed = some consumed) :
    Lexed.Settled (lex library type) unread consumed := by
  have line {type : ReplyType} (taken : (lexLine library type unread).consumed = some consumed) :
      Lexed.Settled (lexLine library type) unread consumed := settled_lexLine taken
  cases type with
  | string => exact settled_lexBulk taken
  | aggregate type => exact settled_lexAggregate taken
  | error => exact @line .error taken
  | status => exact @line .status taken
  | integer => exact @line .integer taken
  | double => exact @line .double taken
  | nil => exact @line .nil taken
  | bool => exact @line .bool taken

theorem stepItem_some {library : CLibrary} {stack : ReplyStack} {type : ReplyType}
    {unread : Bytes} {taken : Resumable.Taken Mode RedisReply}
    (takes : Mode.stepItem library stack type unread = some taken) :
    (lex library type unread).consumed = some taken.consumed := by
  unfold Mode.stepItem at takes
  split at takes
  · cases takes
  all_goals
    rename_i found
    cases takes
    rw [found]
    rfl

theorem lawfulUpTo_step (library : CLibrary) :
    Resumable.LawfulUpTo capacity (Mode.step library) where
  positive {mode unread taken} takes := by
    match mode, unread with
    | .parsing stack (some type), unread => exact (settled_lex (stepItem_some takes)).positive
    | .parsing stack none, byte :: rest =>
        cases takes
        exact Nat.one_pos
    | .failed error, byte :: rest =>
        cases takes
        exact Nat.one_pos
    | .overrun, byte :: rest =>
        cases takes
        exact Nat.one_pos
  available {mode unread taken} takes := by
    match mode, unread with
    | .parsing stack (some type), unread => exact (settled_lex (stepItem_some takes)).available
    | .parsing stack none, byte :: rest =>
        cases takes
        exact Nat.succ_pos _
    | .failed error, byte :: rest =>
        cases takes
        exact Nat.succ_pos _
    | .overrun, byte :: rest =>
        cases takes
        exact Nat.succ_pos _
  stable {mode unread taken} takes more fits := by
    match mode, unread with
    | .parsing stack (some type), unread =>
        have same := (settled_lex (stepItem_some takes)).stable more fits
        simp only [Mode.step, Mode.stepItem, same] at takes ⊢
        exact takes
    | .parsing stack none, byte :: rest => exact takes
    | .failed error, byte :: rest => exact takes
    | .overrun, byte :: rest => exact takes

/-- The steps of a parser which looks no further than its counters reach. -/
def Mode.next (library : CLibrary) : Mode → Bytes → Option (Resumable.Taken Mode RedisReply) :=
  Resumable.limited capacity (Mode.step library)

theorem lawful_next (library : CLibrary) : Resumable.Lawful (Mode.next library) :=
  (lawfulUpTo_step library).limited

theorem Mode.next_eq {library : CLibrary} {mode : Mode} {unread : Bytes}
    (fits : unread.length ≤ capacity) :
    Mode.next library mode unread = Mode.step library mode unread :=
  Resumable.limited_eq fits

/-- A step which only looks at the first byte. -/
theorem Mode.next_cons {library : CLibrary} {mode : Mode} {byte : UInt8} {rest : Bytes}
    {taken : Resumable.Taken Mode RedisReply}
    (first : ∀ rest, Mode.step library mode (byte :: rest) = some taken) :
    Mode.next library mode (byte :: rest) = some taken := by
  obtain ⟨below, same⟩ : ∃ below, capacity = below + 1 := ⟨2 ^ 31 - 1, rfl⟩
  rw [Mode.next, Resumable.limited, same, List.take_succ_cons, first]

end Hiredis

end IOCPChatServer

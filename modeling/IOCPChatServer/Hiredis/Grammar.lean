import IOCPChatServer.Hiredis.ReaderSafety

/-!
# The grammar of replies

What the reply parser accepts, as a grammar: the bytes of one item, and with them the bytes
of a tree in prefix order.  The parser takes the replies which are spelled by what it
received, and no others (`receive_iff`).  Behind a bulk string it skips two bytes, whatever
they are.
-/

namespace IOCPChatServer

namespace Hiredis

open PrefixTree (Frame Token push pushAll pending tokensAll SpelledFrom SpelledAll)
open Resumable (Reading)

/-- The types whose item is one line. -/
def ReplyType.isLine : ReplyType → Bool
  | .string => false
  | .aggregate _ => false
  | _ => true

/-- The number of elements of an aggregate for the number in its line. -/
def elements (type : AggregateType) (announced : Nat) : Nat :=
  if type = .map then announced * 2 else announced

/-- The bytes of an item behind its type byte. -/
inductive Body (library : CLibrary) : ReplyType → ReplyToken → Bytes → Prop where
  | line (type : ReplyType) (isLineType : type.isLine = true) (line : Bytes)
      (isLine : IsLine line) (value : ScalarReply)
      (read : RedisReader.lineObject library type line = .ok value) :
      Body library type (.leaf value) (line ++ crlf)
  | string (string behind : Bytes) (two : behind.length = 2) :
      Body library .string (.leaf (.string string))
        (decimal string.length ++ crlf ++ (string ++ behind))
  | nilString : Body library .string (.leaf .nil) (decimal (-1) ++ crlf)
  | nilAggregate (type : AggregateType) :
      Body library (.aggregate type) (.leaf .nil) (decimal (-1) ++ crlf)
  | aggregate (type : AggregateType) (announced : Nat) (fits : IsLongLong announced)
      (granted : 0 < elements type announced →
        library.calloc (elements type announced) = true) :
      Body library (.aggregate type) (.node type (elements type announced))
        (decimal announced ++ crlf)

/-- The byte of a type. -/
def typeByte : ReplyType → UInt8
  | .error => 45
  | .status => 43
  | .integer => 58
  | .double => 44
  | .nil => 95
  | .string => 36
  | .aggregate .array => 42
  | .aggregate .map => 37
  | .aggregate .set => 126
  | .bool => 35

theorem replyType_typeByte (type : ReplyType) :
    RedisReader.replyType (typeByte type) = some type := by
  match type with
  | .aggregate .array => rfl
  | .aggregate .map => rfl
  | .aggregate .set => rfl
  | .error | .status | .integer | .double | .nil | .string | .bool => rfl

theorem typeByte_of_replyType {byte : UInt8} {type : ReplyType}
    (known : RedisReader.replyType byte = some type) : byte = typeByte type := by
  simp only [RedisReader.replyType, List.lookup] at known
  repeat' split at known
  all_goals
    first
    | cases known
      done
    | rename_i same
      cases known
      exact beq_iff_eq.mp same

/-- The bytes of an item with its type byte.  An aggregate is accepted below the limit. -/
structure Lexeme (library : CLibrary) (depth : Nat) (token : ReplyToken) (letters : Bytes) :
    Prop where
  item : ∃ type body, letters = typeByte type :: body ∧ body.length ≤ capacity ∧
    (∀ aggregate, type = .aggregate aggregate → depth < depthLimit) ∧
    Body library type token body

/-! ## Items -/

/-- A line in front is found. -/
theorem seekNewline_line {line : Bytes} (isLine : IsLine line) {rest : Bytes}
    (fits : (line ++ crlf ++ rest).length ≤ capacity) :
    seekNewline (line ++ crlf ++ rest) = some line.length := by
  rw [seekNewline_eq fits, findNewline_line isLine]

theorem take_line (line rest : Bytes) : (line ++ crlf ++ rest).take line.length = line := by
  rw [List.append_assoc, List.take_left]

theorem drop_line (line rest : Bytes) : (line ++ crlf ++ rest).drop (line.length + 2) = rest :=
  List.drop_left' (List.length_append.trans rfl)

theorem string2ll_decimal {value : Int} (fits : IsLongLong value) :
    string2ll (decimal value) = some value :=
  (string2ll_eq_some_iff _ _).mpr ⟨fits, rfl⟩

theorem lex_of_isLine {library : CLibrary} {type : ReplyType} (isLineType : type.isLine = true)
    (unread : Bytes) : lex library type unread = lexLine library type unread := by
  cases type with
  | string => cases isLineType
  | aggregate type => cases isLineType
  | _ => rfl

/-- The bytes of an item are found, whatever follows. -/
theorem lex_of_body {library : CLibrary} {type : ReplyType} {token : ReplyToken} {body : Bytes}
    (spelled : Body library type token body) {rest : Bytes}
    (fits : (body ++ rest).length ≤ capacity) :
    lex library type (body ++ rest) = .token token body.length := by
  have nilLine : IsLine (decimal (-1)) := isLine_decimal _
  have nilRead : string2ll (decimal (-1)) = some (-1) := string2ll_decimal (by decide)
  cases spelled with
  | line _ isLineType line isLine value read =>
      rw [lex_of_isLine isLineType]
      simp only [lexLine, seekNewline_line isLine fits, take_line, read, List.length_append]
      rfl
  | string string behind two =>
      have bound : capacity = 2 ^ 31 := rfl
      have length : (decimal string.length ++ crlf ++ (string ++ behind) ++ rest).length =
          (decimal string.length).length + 2 + (string.length + 2) + rest.length := by
        simp only [List.length_append, two]
        rfl
      have fitsLength : IsLongLong string.length := by
        constructor <;> omega
      have shape : decimal string.length ++ crlf ++ (string ++ behind) ++ rest =
          decimal string.length ++ crlf ++ (string ++ behind ++ rest) :=
        List.append_assoc _ _ _
      have there : (string ++ behind ++ rest).take string.length = string := by
        rw [List.append_assoc, List.take_left]
      have enough : (decimal string.length).length + 2 + (string.length + 2) ≤
          (decimal string.length ++ crlf ++ (string ++ behind ++ rest)).length := by
        rw [← shape, length]
        omega
      have whole : (decimal string.length ++ crlf ++ (string ++ behind)).length =
          (decimal string.length).length + 2 + (string.length + 2) := by
        simp only [List.length_append, two]
        rfl
      have notNegative : ¬ ((string.length : Int) < -1) := by omega
      have notNil : ¬ ((string.length : Int) = -1) := by omega
      rw [whole]
      rw [shape] at fits ⊢
      simp only [lex, lexBulk, seekNewline_line (isLine_decimal _) fits, take_line,
        string2ll_decimal fitsLength, notNegative, notNil, if_false, Int.toNat_natCast, enough,
        if_true, drop_line, there]
  | nilString =>
      simp only [lex, lexBulk, seekNewline_line nilLine fits, take_line, nilRead]
      rfl
  | nilAggregate type =>
      simp only [lex, lexAggregate, seekNewline_line nilLine fits, take_line, nilRead]
      rfl
  | aggregate type announced fitsAnnounced granted =>
      have notNegative : ¬ ((announced : Int) < -1) := by omega
      have notNil : ¬ ((announced : Int) = -1) := by omega
      have length : (decimal announced ++ crlf).length = (decimal announced).length + 2 :=
        List.length_append
      simp only [lex, lexAggregate, seekNewline_line (isLine_decimal _) fits, take_line,
        string2ll_decimal fitsAnnounced, notNegative, notNil, if_false, Int.toNat_natCast]
      change (if 0 < elements type announced then
          if library.calloc (elements type announced) then _ else _
        else _) = _
      by_cases positive : 0 < elements type announced
      · rw [if_pos positive, if_pos (granted positive), length]
        rfl
      · have none : elements type announced = 0 := Nat.eq_zero_of_not_pos positive
        rw [if_neg positive, length, none]

/-- What is found is an item. -/
theorem body_of_lex {library : CLibrary} {type : ReplyType} {unread : Bytes} {token : ReplyToken}
    {consumed : Nat} (found : lex library type unread = .token token consumed)
    (fits : unread.length ≤ capacity) : Body library type token (unread.take consumed) := by
  -- the line at the front, and its number
  have split {position : Nat} (newline : seekNewline unread = some position) :
      IsLine (unread.take position) ∧
        unread.take (position + 2) = unread.take position ++ crlf := by
    rw [seekNewline_eq fits] at newline
    have room := findNewline_lt newline
    obtain ⟨isLine, whole⟩ := findNewline_split newline
    refine ⟨isLine, ?_⟩
    have front : (unread.take position ++ crlf).length = position + 2 := by
      rw [List.length_append, List.length_take_of_le (by omega)]
      rfl
    calc
      unread.take (position + 2) =
          (unread.take position ++ crlf ++ unread.drop (position + 2)).take (position + 2) := by
        rw [← whole]
      _ = unread.take position ++ crlf := List.take_left' front
  cases type with
  | string =>
      simp only [lex, lexBulk] at found
      cases newline : seekNewline unread with
      | none =>
          rw [newline] at found
          cases found
      | some position =>
          obtain ⟨_, front⟩ := split newline
          cases length : string2ll (unread.take position) with
          | none =>
              simp only [newline, length] at found
              cases found
          | some len =>
              simp only [newline, length] at found
              obtain ⟨_, printed⟩ := (string2ll_eq_some_iff _ _).mp length
              by_cases negative : len < -1
              · rw [if_pos negative] at found
                cases found
              · rw [if_neg negative] at found
                by_cases nil : len = -1
                · rw [if_pos nil] at found
                  cases found
                  rw [front, printed, nil]
                  exact .nilString
                · rw [if_neg nil] at found
                  split at found
                  · rename_i there
                    cases found
                    have parts : unread.take (position + 2 + (len.toNat + 2)) =
                        unread.take position ++ crlf ++
                          ((unread.drop (position + 2)).take len.toNat ++
                            ((unread.drop (position + 2)).drop len.toNat).take 2) := by
                      rw [List.take_add, front, List.take_add]
                    have two : (((unread.drop (position + 2)).drop len.toNat).take 2).length =
                        2 := by
                      simp only [List.length_take, List.length_drop]
                      omega
                    have exact_length : ((unread.drop (position + 2)).take len.toNat).length =
                        len.toNat := by
                      simp only [List.length_take, List.length_drop]
                      omega
                    have number : decimal len =
                        decimal ((unread.drop (position + 2)).take len.toNat).length := by
                      rw [exact_length, Int.toNat_of_nonneg (by omega)]
                    rw [parts, printed, number]
                    exact .string _ _ two
                  · split at found
                    · cases found
                    · cases found
  | aggregate type =>
      simp only [lex, lexAggregate] at found
      cases newline : seekNewline unread with
      | none =>
          rw [newline] at found
          cases found
      | some position =>
          obtain ⟨_, front⟩ := split newline
          cases length : string2ll (unread.take position) with
          | none =>
              simp only [newline, length] at found
              cases found
          | some announced =>
              simp only [newline, length] at found
              obtain ⟨fitsAnnounced, printed⟩ := (string2ll_eq_some_iff _ _).mp length
              by_cases negative : announced < -1
              · rw [if_pos negative] at found
                cases found
              · rw [if_neg negative] at found
                by_cases nil : announced = -1
                · rw [if_pos nil] at found
                  cases found
                  rw [front, printed, nil]
                  exact .nilAggregate type
                · rw [if_neg nil] at found
                  obtain ⟨number, rfl⟩ := Int.eq_ofNat_of_zero_le (show 0 ≤ announced by omega)
                  change (if 0 < elements type number then
                      if library.calloc (elements type number) then _ else _
                    else _) = _ at found
                  by_cases positive : 0 < elements type number
                  · rw [if_pos positive] at found
                    by_cases granted : library.calloc (elements type number) = true
                    · rw [if_pos granted] at found
                      cases found
                      rw [front, printed]
                      exact .aggregate type number fitsAnnounced fun _ => granted
                    · rw [if_neg granted] at found
                      cases found
                  · rw [if_neg positive] at found
                    have none : elements type number = 0 := Nat.eq_zero_of_not_pos positive
                    cases found
                    rw [front, printed, ← none]
                    exact .aggregate type number fitsAnnounced fun some => absurd some positive
  | error | status | integer | double | nil | bool =>
      simp only [lex, lexLine] at found
      cases newline : seekNewline unread with
      | none =>
          rw [newline] at found
          cases found
      | some position =>
          obtain ⟨isLine, front⟩ := split newline
          simp only [newline] at found
          split at found
          · cases found
          · rename_i value read
            cases found
            rw [front]
            exact .line _ rfl _ isLine value read

/-! ## Replies -/

/-- The bytes of the current type. -/
def typeBytes : Option ReplyType → Bytes
  | none => []
  | some type => [typeByte type]

theorem tooDeep_eq_false {stack : ReplyStack} (sound : ReplyStack.Sound stack)
    (type : ReplyType) : Mode.tooDeep stack type = false ↔
      ∀ aggregate, type = .aggregate aggregate → stack.length < depthLimit := by
  have shallow := sound.shallow
  cases type with
  | aggregate type =>
      simp only [Mode.tooDeep, beq_eq_false_iff_ne, ne_eq, ReplyType.aggregate.injEq,
        forall_eq']
      exact ⟨Nat.lt_of_le_of_ne shallow, Nat.ne_of_lt⟩
  | _ => simp [Mode.tooDeep]

theorem stepType_typeByte {stack : ReplyStack} {type : ReplyType}
    (accepted : Mode.tooDeep stack type = false) :
    Mode.stepType stack (typeByte type) = .parsing stack (some type) := by
  simp only [Mode.stepType, replyType_typeByte, accepted, Bool.false_eq_true, if_false]

/-- One item is read. -/
theorem reading_lexeme {library : CLibrary} {stack : ReplyStack} (sound : ReplyStack.Sound stack)
    {token : ReplyToken} {letters : Bytes} (spelled : Lexeme library stack.length token letters)
    (rest : Bytes) :
    reading library (.parsing stack none) (letters ++ rest) =
      { reading library (.parsing (push stack token).2 none) rest with
        outputs := (push stack token).1.toList ++
          (reading library (.parsing (push stack token).2 none) rest).outputs } := by
  obtain ⟨type, body, rfl, fits, shallow, spelled⟩ := spelled.item
  have accepted := (tooDeep_eq_false sound type).mpr shallow
  have typed : Mode.next library (.parsing stack none) (typeByte type :: (body ++ rest)) =
      some { state := .parsing stack (some type), consumed := 1 } :=
    Mode.next_cons fun rest => by
      rw [Mode.step, stepType_typeByte accepted]
  have found : Mode.next library (.parsing stack (some type)) (body ++ rest) =
      some {
        state := .parsing (push stack token).2 none
        consumed := body.length
        output := (push stack token).1 } := by
    have front : (body ++ rest).take capacity = body ++ rest.take (capacity - body.length) := by
      rw [List.take_append, List.take_of_length_le fits]
    have lexed := lex_of_body spelled (front ▸ List.length_take_le _ _)
    simp only [Mode.next, Resumable.limited, front, Mode.step, Mode.stepItem, lexed]
  have lawful := lawful_next library
  have behind : (body ++ rest).drop body.length = rest := List.drop_left
  unfold reading
  rw [List.cons_append, lawful.read_of_some typed, List.drop_succ_cons, List.drop_zero,
    lawful.read_of_some found, behind]
  rfl

theorem push_sound {library : CLibrary} (counts : library.CountsElements) {stack : ReplyStack}
    (sound : ReplyStack.Sound stack) {token : ReplyToken} {letters : Bytes}
    (spelled : Lexeme library stack.length token letters) :
    ReplyStack.Sound (push stack token).2 := by
  obtain ⟨type, body, rfl, fits, shallow, spelled⟩ := spelled.item
  refine sound.push fun label count same => ?_
  subst same
  cases spelled with
  | aggregate _ announced _ granted =>
      refine ⟨(shallow label rfl).ne, ?_⟩
      rcases Nat.eq_zero_or_pos (elements label announced) with none | positive
      · rw [none]
        decide
      · exact counts _ (granted positive)

/-- All items are read. -/
theorem reading_spelledFrom {library : CLibrary} (counts : library.CountsElements)
    {stack : ReplyStack} (sound : ReplyStack.Sound stack) {items : List ReplyToken}
    {letters : Bytes} (spelled : SpelledFrom (Lexeme library) stack items letters)
    (rest : Bytes) :
    reading library (.parsing stack none) (letters ++ rest) =
      { reading library (.parsing (pushAll stack items).2 none) rest with
        outputs := (pushAll stack items).1 ++
          (reading library (.parsing (pushAll stack items).2 none) rest).outputs } := by
  induction items generalizing stack letters with
  | nil =>
      subst spelled
      rfl
  | cons token items ih =>
      obtain ⟨front, back, rfl, first, later⟩ := spelled
      rw [List.append_assoc, reading_lexeme sound first, ih (push_sound counts sound first) later]
      simp only [pushAll, List.append_assoc]

/-- What a reading says about the bytes which were read: the items were spelled by them, but for
those which are left and the byte of the current type. -/
structure Spelling (library : CLibrary) (stack : ReplyStack) (read : Bytes)
    (whole : Reading Mode UInt8 RedisReply) (items : List ReplyToken) (letters tail : Bytes) :
    Prop where
  spelled : SpelledFrom (Lexeme library) stack items letters
  input : read = letters ++ tail
  outputs : whole.outputs = (pushAll stack items).1
  left : ∀ later type, whole.state = .parsing later type →
    later = (pushAll stack items).2 ∧ tail = typeBytes type ++ whole.rest
  lost : whole.state = .overrun → ∃ behind consumed, tail = typeByte .string :: behind ∧
    lexBulk (behind.take capacity) = .overrun consumed

/-- A parser in error reads nothing. -/
structure Stopped (mode : Mode) (whole : Reading Mode UInt8 RedisReply) : Prop where
  nothing : whole.outputs = []
  same : whole.state = mode

theorem Stopped.spelling_failed {library : CLibrary} {error : ReaderError}
    {whole : Reading Mode UInt8 RedisReply} (stopped : Stopped (.failed error) whole)
    (stack : ReplyStack) (read : Bytes) : Spelling library stack read whole [] [] read where
  spelled := rfl
  input := rfl
  outputs := stopped.nothing
  left := by simp [stopped.same]
  lost := by simp [stopped.same]

theorem Stopped.spelling_overrun {library : CLibrary} {whole : Reading Mode UInt8 RedisReply}
    (stopped : Stopped .overrun whole) (stack : ReplyStack) {behind : Bytes} {consumed : Nat}
    (found : lexBulk (behind.take capacity) = .overrun consumed) :
    Spelling library stack (typeByte .string :: behind) whole [] []
      (typeByte .string :: behind) where
  spelled := rfl
  input := rfl
  outputs := stopped.nothing
  left := by simp [stopped.same]
  lost _ := ⟨behind, consumed, rfl, found⟩

/-- Only a bulk string can be so long. -/
theorem string_of_lex {library : CLibrary} {type : ReplyType} {unread : Bytes} {consumed : Nat}
    (found : lex library type unread = .overrun consumed) :
    type = .string ∧ lexBulk unread = .overrun consumed := by
  have lineCase {type : ReplyType}
      (found : lexLine library type unread = .overrun consumed) : False := by
    unfold lexLine at found
    repeat' split at found
    all_goals cases found
  cases type with
  | string => exact ⟨rfl, found⟩
  | aggregate type =>
      simp only [lex, lexAggregate] at found
      repeat' split at found
      all_goals cases found
  | error => exact (@lineCase .error found).elim
  | status => exact (@lineCase .status found).elim
  | integer => exact (@lineCase .integer found).elim
  | double => exact (@lineCase .double found).elim
  | nil => exact (@lineCase .nil found).elim
  | bool => exact (@lineCase .bool found).elim

/-- An item comes before what was spelled. -/
theorem Spelling.cons {library : CLibrary} {stack : ReplyStack} {token : ReplyToken}
    {first read : Bytes} {whole : Reading Mode UInt8 RedisReply} {items : List ReplyToken}
    {letters tail : Bytes} (lexeme : Lexeme library stack.length token first)
    (later : Spelling library (push stack token).2 read whole items letters tail)
    (state : Mode) (consumed : Nat) :
    Spelling library stack (first ++ read)
      (whole.after { state, consumed, output := (push stack token).1 }) (token :: items)
      (first ++ letters) tail where
  spelled := ⟨first, letters, rfl, lexeme, later.spelled⟩
  input := by rw [later.input, List.append_assoc]
  outputs := congrArg ((push stack token).1.toList ++ ·) later.outputs
  left := later.left
  lost := later.lost

/-- Whatever is read was spelled. -/
theorem exists_spelling {library : CLibrary} (counts : library.CountsElements) (mode : Mode)
    (input : Bytes) (sound : mode.Sound) :
    (∀ stack type, mode = .parsing stack type →
      ∃ items letters tail, Spelling library stack (typeBytes type ++ input)
        (reading library mode input) items letters tail) ∧
    ((∀ stack type, mode ≠ .parsing stack type) → Stopped mode (reading library mode input)) := by
  refine (lawful_next library).read_induction (fun mode input whole => mode.Sound →
    (∀ stack type, mode = .parsing stack type →
      ∃ items letters tail, Spelling library stack (typeBytes type ++ input) whole items letters
        tail) ∧
    ((∀ stack type, mode ≠ .parsing stack type) → Stopped mode whole)) ?_ ?_ mode input sound
  · intro mode input _ _
    refine ⟨?_, fun _ => ⟨rfl, rfl⟩⟩
    rintro stack type rfl
    refine ⟨[], [], _, rfl, rfl, rfl, ?_, nofun⟩
    rintro _ _ ⟨⟩
    exact ⟨rfl, rfl⟩
  · intro mode input taken whole takes ih sound
    obtain ⟨goesOn, stops⟩ := ih (sound.step counts takes)
    match mode with
    | .overrun =>
        cases input with
        | nil => cases takes
        | cons byte rest =>
            rw [Mode.next_cons (fun _ => rfl)] at takes
            cases takes
            have stopped := stops nofun
            exact ⟨nofun, fun _ => ⟨stopped.nothing, stopped.same⟩⟩
    | .failed error =>
        cases input with
        | nil => cases takes
        | cons byte rest =>
            rw [Mode.next_cons (fun _ => rfl)] at takes
            cases takes
            have stopped := stops nofun
            exact ⟨nofun, fun _ => ⟨stopped.nothing, stopped.same⟩⟩
    | .parsing stack none =>
        refine ⟨?_, fun other => absurd rfl (other _ _)⟩
        rintro _ _ ⟨⟩
        cases input with
        | nil => cases takes
        | cons byte rest =>
            rw [Mode.next_cons (fun _ => rfl)] at takes
            cases takes
            dsimp only [Mode.stepType] at goesOn stops
            cases known : RedisReader.replyType byte with
            | none =>
                simp only [known] at stops
                have stopped := stops nofun
                exact ⟨[], [], _, Stopped.spelling_failed ⟨stopped.nothing, stopped.same⟩ stack _⟩
            | some type =>
                simp only [known] at goesOn stops
                split at goesOn
                · rename_i deep
                  rw [if_pos deep] at stops
                  have stopped := stops nofun
                  exact ⟨[], [], _,
                    Stopped.spelling_failed ⟨stopped.nothing, stopped.same⟩ stack _⟩
                · obtain ⟨items, letters, tail, spelling⟩ := goesOn stack (some type) rfl
                  have same : typeBytes (some type) ++ rest = byte :: rest :=
                    congrArg (· :: rest) (typeByte_of_replyType known).symm
                  rw [List.drop_succ_cons, List.drop_zero, same] at spelling
                  exact ⟨items, letters, tail, spelling.spelled, spelling.input, spelling.outputs,
                    spelling.left, spelling.lost⟩
    | .parsing stack (some type) =>
        refine ⟨?_, fun other => absurd rfl (other _ _)⟩
        rintro _ _ ⟨⟩
        have steps : Mode.stepItem library stack type (input.take capacity) = some taken := takes
        unfold Mode.stepItem at steps
        split at steps
        · cases steps
        · cases steps
          have stopped := stops nofun
          exact ⟨[], [], _, Stopped.spelling_failed ⟨stopped.nothing, stopped.same⟩ stack _⟩
        · rename_i found
          cases steps
          have stopped := stops nofun
          obtain ⟨rfl, found⟩ := string_of_lex found
          exact ⟨[], [], _,
            Stopped.spelling_overrun ⟨stopped.nothing, stopped.same⟩ stack found⟩
        · rename_i token consumed found
          cases steps
          obtain ⟨items, letters, tail, spelling⟩ := goesOn _ none rfl
          have limited : Mode.step library (.parsing stack (some type)) (input.take capacity) =
              some _ := takes
          have consumedFits : consumed ≤ capacity :=
            ((lawfulUpTo_step library).available limited).trans (List.length_take_le _ _)
          have body := body_of_lex found (List.length_take_le _ _)
          rw [List.take_take, Nat.min_eq_left consumedFits] at body
          have lexeme : Lexeme library stack.length token (typeByte type :: input.take consumed) :=
            ⟨type, _, rfl, (List.length_take_le _ _).trans consumedFits,
              (tooDeep_eq_false sound.1 type).mp (sound.2 type rfl), body⟩
          have whole := spelling.cons lexeme (.parsing (push stack token).2 none) consumed
          have parts : typeByte type :: input.take consumed ++ (typeBytes none ++
              input.drop consumed) = typeBytes (some type) ++ input := by
            simp [typeBytes, List.take_append_drop]
          exact ⟨token :: items, _, tail, parts ▸ whole⟩

/-- Everything was parsed, and nothing but replies. -/
structure RedisReader.Idle (reader : RedisReader) : Prop where
  good : reader.err = none
  nothing : reader.unread = []
  free : ∀ task ∈ reader.rstack, task.type = none

theorem Represents.idle_iff {reader : RedisReader} {mode : Mode}
    (represents : Represents reader mode) :
    reader.Idle ↔ mode = .parsing [] none ∧ reader.unread = [] := by
  cases represents with
  | between good free inside nothing =>
      exact ⟨fun idle => ⟨rfl, idle.nothing⟩, fun empty => ⟨good, empty.2, by simp [free]⟩⟩
  | parsing good busy inside nothing shallow =>
      rename_i stack type
      rw [Mode.parsing.injEq]
      constructor
      · rintro ⟨_, empty, free⟩
        rw [busy] at free
        obtain ⟨current, others⟩ := List.forall_mem_cons.mp free
        refine ⟨⟨?_, current⟩, empty⟩
        cases stack with
        | nil => rfl
        | cons frame below => exact absurd (others _ List.mem_cons_self) (Option.some_ne_none _)
      · rintro ⟨⟨rfl, rfl⟩, empty⟩
        refine ⟨good, empty, ?_⟩
        rw [busy]
        exact List.forall_mem_cons.mpr ⟨rfl, nofun⟩
  | failed error => exact ⟨fun idle => absurd idle.good (Option.some_ne_none _), nofun⟩

/-- The replies which are taken were spelled. -/
theorem spelled_of_receive {library : CLibrary} (counts : library.CountsElements)
    {chunks : List Bytes} (within : RedisReader.WithinCapacity library {} chunks)
    {replies : List RedisReply} {reader : RedisReader}
    (received : RedisReader.receive library {} chunks = some (replies, reader))
    (idle : reader.Idle) : SpelledAll (Lexeme library) 0 replies chunks.flatten := by
  have outcome := repliesCase_receive_nil counts within
  obtain ⟨items, letters, tail, spelling⟩ :=
    (exists_spelling counts _ chunks.flatten Mode.Sound.init).1 [] none rfl
  rw [received] at outcome
  generalize reading library (.parsing [] none) chunks.flatten = whole at outcome spelling
  cases outcome with
  | read _ represents left =>
      obtain ⟨state, empty⟩ := represents.idle_iff.mp idle
      obtain ⟨alone, behind⟩ := spelling.left [] none state
      have pushed := PrefixTree.pushAll_pending [] items
      rw [← spelling.outputs, ← alone] at pushed
      have all : items = tokensAll whole.outputs := by simpa [pending] using pushed
      have input := spelling.input
      rw [behind, ← left, empty] at input
      have same : chunks.flatten = letters := by simpa [typeBytes] using input
      rw [same, ← PrefixTree.spelledFrom_tokensAll_nil, ← all]
      exact spelling.spelled

/-- A spelling is read as the replies. -/
theorem reading_spelledAll {library : CLibrary} (counts : library.CountsElements)
    {replies : List RedisReply} {letters : Bytes}
    (spelled : SpelledAll (Lexeme library) 0 replies letters) :
    reading library (.parsing [] none) letters = ⟨.parsing [] none, [], replies⟩ := by
  have read := reading_spelledFrom counts ReplyStack.Sound.nil
    ((PrefixTree.spelledFrom_tokensAll_nil replies _).mpr spelled) []
  rwa [List.append_nil, PrefixTree.pushAll_tokensAll_nil, reading_nil, List.append_nil] at read

/-- The replies which are spelled are taken. -/
theorem receive_of_spelled {library : CLibrary} (counts : library.CountsElements)
    {chunks : List Bytes} (within : RedisReader.WithinCapacity library {} chunks)
    {replies : List RedisReply}
    (spelled : SpelledAll (Lexeme library) 0 replies chunks.flatten) :
    ∃ reader, RedisReader.receive library {} chunks = some (replies, reader) ∧ reader.Idle := by
  have outcome := repliesCase_receive_nil counts within
  rw [reading_spelledAll counts spelled] at outcome
  generalize RedisReader.receive library {} chunks = received at outcome
  cases outcome with
  | overrun lost => cases lost
  | read reader represents left => exact ⟨reader, rfl, represents.idle_iff.mpr ⟨rfl, left⟩⟩

/-- `bytelen` before it becomes an `unsigned long`. -/
def bytelen (len : Nat) : Nat := (decimal len).length + 2 + (len + 2)

/-- The announced string is not there, but `bytelen` wraps around to something which is. -/
def BytelenWraps (unread : Bytes) : Prop :=
  ∃ (len : Nat) (back : Bytes), IsLongLong len ∧ unread = decimal len ++ crlf ++ back ∧
    unread.length < bytelen len ∧ bytelen len % 2 ^ 32 ≤ unread.length

theorem lexBulk_eq_overrun {unread : Bytes} (fits : unread.length ≤ capacity) :
    (∃ consumed, lexBulk unread = .overrun consumed) ↔ BytelenWraps unread := by
  constructor
  · rintro ⟨consumed, found⟩
    unfold lexBulk at found
    cases newline : seekNewline unread with
    | none =>
        rw [newline] at found
        cases found
    | some position =>
        have room := seekNewline_lt newline
        have whole := (findNewline_split (seekNewline_eq fits ▸ newline)).2
        cases length : string2ll (unread.take position) with
        | none =>
            simp only [newline, length] at found
            cases found
        | some len =>
            simp only [newline, length] at found
            obtain ⟨fitsLength, printed⟩ := (string2ll_eq_some_iff _ _).mp length
            by_cases negative : len < -1
            · rw [if_pos negative] at found
              cases found
            · rw [if_neg negative] at found
              by_cases nil : len = -1
              · rw [if_pos nil] at found
                cases found
              · rw [if_neg nil] at found
                obtain ⟨number, rfl⟩ := Int.eq_ofNat_of_zero_le (show 0 ≤ len by omega)
                have digits : (decimal (number : Int)).length = position := by
                  rw [← printed, List.length_take_of_le (by omega)]
                split at found
                · cases found
                · rename_i missing
                  split at found
                  · rename_i wrapped
                    rw [Int.toNat_natCast] at missing wrapped
                    refine ⟨number, unread.drop (position + 2), fitsLength, ?_, ?_, ?_⟩
                    · rw [← printed]
                      exact whole
                    · rw [bytelen, digits]
                      omega
                    · rw [bytelen, digits]
                      exact wrapped
                  · cases found
  · rintro ⟨len, back, fitsLength, rfl, missing, wrapped⟩
    have notNegative : ¬ ((len : Int) < -1) := by omega
    have notNil : ¬ ((len : Int) = -1) := by omega
    refine ⟨(decimal len).length + 2, ?_⟩
    unfold bytelen at missing wrapped
    simp only [lexBulk, seekNewline_line (isLine_decimal _) fits, take_line,
      string2ll_decimal fitsLength, notNegative, notNil, if_false, Int.toNat_natCast,
      Nat.not_le.mpr missing, wrapped, if_true]

/-- A bulk string whose `bytelen` is 2 ^ 32 + 8. -/
def wrappingBulk : Bytes :=
  text ['$', '4', '2', '9', '4', '9', '6', '7', '2', '9', '0', '\r', '\n', 'a', 'b']

end Hiredis

end IOCPChatServer

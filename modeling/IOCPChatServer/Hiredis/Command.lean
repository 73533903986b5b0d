import IOCPChatServer.Hiredis.Grammar

/-!
# Commands for the Redis server

`redisvFormatCommand` of `hiredis.c` for the conversions `%s`, `%b` and `%%`.  Where a command
has its arguments is decided by the format alone (`formatFrom_argv`): nothing in a user's text
can add an argument or split one.  What is sent reads back as one array of the arguments.

A result `none` stands for an argument of another type than the conversion asks for, and for
the conversions of `printf`, which are left out.
-/

namespace IOCPChatServer

namespace Hiredis

open PrefixTree (Spelled SpelledAll)

def space : UInt8 := 32
def percent : UInt8 := 37

/-- An argument of `redisCommand`: a C string, or a pointer with a size. -/
inductive VaArg where
  | string (str : Bytes)
  | binary (data : Bytes)
  deriving DecidableEq, Repr

/-- What an argument contributes to the command. -/
def VaArg.interpolated : VaArg → Bytes
  | .string str => cString str
  | .binary data => data

/-- `countDigits`. -/
def countDigits (v : Nat) : Nat :=
  if v < 10 then 1
  else if v < 100 then 2
  else if v < 1000 then 3
  else if v < 10000 then 4
  else countDigits (v / 10000) + 4

/-- `bulklen`. -/
def bulklen (len : Nat) : Nat := 1 + countDigits len + 2 + len + 2

/-- The variables of `redisvFormatCommand`.  `argc` is the length of `argv`. -/
structure Formatted where
  argv : List Bytes := []
  curarg : Bytes := []
  touched : Bool := false
  totlen : Int := 0

namespace Formatted

/-- The current argument is complete. -/
def pushArgument (state : Formatted) : Formatted where
  argv := state.argv ++ [state.curarg]
  totlen := toInt (state.totlen + bulklen state.curarg.length)

def touch (state : Formatted) (newarg : Bytes) : Formatted :=
  { state with
    curarg := state.curarg ++ newarg
    touched := true }

/-- A character which is no conversion. -/
def literal (state : Formatted) (byte : UInt8) : Formatted :=
  if byte = space then if state.touched then state.pushArgument else state
  else state.touch [byte]

/-- The last argument is added if it was touched. -/
def finish (state : Formatted) : Formatted :=
  if state.touched then state.pushArgument else state

end Formatted

/-- The loop of `redisvFormatCommand`. -/
def formatFrom : Bytes → List VaArg → Formatted → Option Formatted
  | [], _, state => some state
  | [byte], _, state => some (state.literal byte)
  | byte :: conversion :: rest, ap, state =>
      if byte ≠ percent then formatFrom (conversion :: rest) ap (state.literal byte)
      else if conversion = percent then formatFrom rest ap (state.touch [percent])
      else
        match conversion.toNat, ap with
        | 115, .string str :: ap => formatFrom rest ap (state.touch (cString str))
        | 98, .binary data :: ap => formatFrom rest ap (state.touch data)
        | _, _ => none

/-- One argument as it is sent. -/
def bulk (arg : Bytes) : Bytes :=
  typeByte .string :: (Decimal.numeral arg.length ++ crlf ++ (arg ++ crlf))

/-- The command as it is sent. -/
def wire (argv : List Bytes) : Bytes :=
  typeByte (.aggregate .array) :: (Decimal.numeral argv.length ++ crlf) ++ argv.flatMap bulk

/-- `redisvFormatCommand`: the command and `totlen`. -/
def redisvFormatCommand (format : Bytes) (ap : List VaArg) : Option (Bytes × Int) :=
  (formatFrom (cString format) ap {}).map fun state =>
    let last := state.finish
    (wire last.argv, toInt (last.totlen + (1 + countDigits last.argv.length + 2)))

/-! ## The arguments of a format -/

/-- A character of an argument, or the place of a conversion. -/
inductive Piece where
  | letter (byte : UInt8)
  | hole
  deriving DecidableEq, Repr

/-- The words of a format, with the word which was begun. -/
def wordsFrom : Option (List Piece) → Bytes → List (List Piece)
  | current, [] => current.toList
  | current, [byte] =>
      if byte = space then current.toList else [current.getD [] ++ [.letter byte]]
  | current, byte :: conversion :: rest =>
      if byte = percent then
        wordsFrom (some (current.getD [] ++
          [if conversion = percent then .letter percent else .hole])) rest
      else if byte = space then current.toList ++ wordsFrom none (conversion :: rest)
      else wordsFrom (some (current.getD [] ++ [.letter byte])) (conversion :: rest)

/-- The words of a format. -/
def words (format : Bytes) : List (List Piece) := wordsFrom none format

/-- A word with texts in its holes, and the texts which are left. -/
def fillWord : List Piece → List Bytes → Bytes × List Bytes
  | [], texts => ([], texts)
  | .letter byte :: rest, texts =>
      let filled := fillWord rest texts
      (byte :: filled.1, filled.2)
  | .hole :: rest, texts =>
      let filled := fillWord rest texts.tail
      (texts.headD [] ++ filled.1, filled.2)

/-- All words with texts in their holes. -/
def fill : List (List Piece) → List Bytes → List Bytes
  | [], _ => []
  | word :: rest, texts => (fillWord word texts).1 :: fill rest (fillWord word texts).2

theorem fillWord_letters (letters : Bytes) (rest : List Piece) (texts : List Bytes) :
    fillWord (letters.map .letter ++ rest) texts =
      (letters ++ (fillWord rest texts).1, (fillWord rest texts).2) := by
  induction letters with
  | nil => rfl
  | cons byte letters ih => simp only [List.map_cons, List.cons_append, fillWord, ih]

theorem fillWord_map_letter (letters : Bytes) (texts : List Bytes) :
    fillWord (letters.map .letter) texts = (letters, texts) := by
  have filled := fillWord_letters letters [] texts
  rwa [List.append_nil, fillWord, List.append_nil] at filled

/-- A word which was begun is only continued. -/
theorem wordsFrom_some (format : Bytes) :
    ∃ ending others, ∀ word, wordsFrom (some word) format = (word ++ ending) :: others := by
  match format with
  | [] => exact ⟨[], [], fun word => by simp [wordsFrom]⟩
  | [byte] =>
      by_cases isSpace : byte = space
      · exact ⟨[], [], fun word => by simp [wordsFrom, isSpace]⟩
      · exact ⟨[.letter byte], [], fun word => by simp [wordsFrom, isSpace]⟩
  | byte :: conversion :: rest =>
      by_cases isPercent : byte = percent
      · obtain ⟨ending, others, same⟩ := wordsFrom_some rest
        refine ⟨(if conversion = percent then .letter percent else .hole) :: ending, others,
          fun word => ?_⟩
        simp only [wordsFrom, if_pos isPercent, Option.getD_some, same, List.append_assoc,
          List.singleton_append]
      · by_cases isSpace : byte = space
        · exact ⟨[], wordsFrom none (conversion :: rest), fun word => by
            rw [wordsFrom, if_neg isPercent, if_pos isSpace, List.append_nil]
            rfl⟩
        · obtain ⟨ending, others, same⟩ := wordsFrom_some (conversion :: rest)
          refine ⟨.letter byte :: ending, others, fun word => ?_⟩
          simp only [wordsFrom, if_neg isPercent, if_neg isSpace, Option.getD_some, same,
            List.append_assoc, List.singleton_append]

/-- A hole is as good as the text which fills it. -/
theorem fill_hole (letters newarg format : Bytes) (texts : List Bytes) :
    fill (wordsFrom (some (letters.map .letter ++ [.hole])) format) (newarg :: texts) =
      fill (wordsFrom (some ((letters ++ newarg).map .letter)) format) texts := by
  obtain ⟨ending, others, same⟩ := wordsFrom_some format
  simp only [same, fill, List.map_append, List.append_assoc, fillWord_letters,
    List.singleton_append, fillWord, List.headD_cons, List.tail_cons]

namespace Formatted

/-- What was begun of the current argument. -/
def begun (state : Formatted) : Option (List Piece) :=
  if state.touched then some (state.curarg.map .letter) else none

/-- An argument which was not touched is empty, and `totlen` counts the complete ones. -/
structure Sound (state : Formatted) : Prop where
  untouched : state.touched = false → state.curarg = []
  counted : state.totlen = toInt (state.argv.map fun arg => (bulklen arg.length : Int)).sum

theorem Sound.init : Sound {} := ⟨fun _ => rfl, rfl⟩

theorem toInt_add (first second : Int) : toInt (toInt first + second) = toInt (first + second) :=
  Int.bmod_add_bmod

theorem Sound.pushArgument {state : Formatted} (sound : state.Sound) :
    state.pushArgument.Sound where
  untouched _ := rfl
  counted := by
    simp only [Formatted.pushArgument, sound.counted, toInt_add, List.map_append, List.sum_append,
      List.map_singleton, List.sum_singleton]

theorem Sound.touch {state : Formatted} (sound : state.Sound) (newarg : Bytes) :
    (state.touch newarg).Sound where
  untouched := nofun
  counted := sound.counted

theorem Sound.literal {state : Formatted} (sound : state.Sound) (byte : UInt8) :
    (state.literal byte).Sound := by
  unfold Formatted.literal
  split
  · split
    · exact sound.pushArgument
    · exact sound
  · exact sound.touch [byte]

theorem Sound.finish {state : Formatted} (sound : state.Sound) : state.finish.Sound := by
  unfold Formatted.finish
  split
  · exact sound.pushArgument
  · exact sound

theorem begun_touch (state : Formatted) (newarg : Bytes) :
    (state.touch newarg).begun = some ((state.curarg ++ newarg).map .letter) := rfl

theorem begun_getD {state : Formatted} (sound : state.Sound) :
    state.begun.getD [] = state.curarg.map .letter := by
  cases touched : state.touched with
  | true => simp [begun, touched]
  | false => simp [begun, touched, sound.untouched touched]

/-- A space ends the current argument. -/
theorem literal_space (state : Formatted) (words : List (List Piece)) (texts : List Bytes) :
    (state.literal space).begun = none ∧
      (state.literal space).argv ++ fill words texts =
        state.argv ++ fill (state.begun.toList ++ words) texts := by
  cases touched : state.touched with
  | true =>
      simp [Formatted.literal, touched, begun, Formatted.pushArgument, fill, fillWord_map_letter]
  | false => simp [Formatted.literal, touched, begun]

theorem finish_argv (state : Formatted) (texts : List Bytes) :
    state.finish.argv = state.argv ++ fill state.begun.toList texts := by
  cases touched : state.touched with
  | true => simp [Formatted.finish, touched, begun, Formatted.pushArgument, fill,
      fillWord_map_letter]
  | false => simp [Formatted.finish, touched, begun, fill]

end Formatted

/-- The rest of a format, after any beginning which keeps the state sound. -/
theorem formatFrom_eq {format : Bytes} {ap : List VaArg} {state final : Formatted}
    (sound : state.Sound) (formatted : formatFrom format ap state = some final) :
    final.Sound ∧ final.finish.argv =
      state.argv ++ fill (wordsFrom state.begun format) (ap.map VaArg.interpolated) := by
  fun_induction formatFrom format ap state with
  | case1 =>
      cases formatted
      exact ⟨sound, Formatted.finish_argv _ _⟩
  | case2 byte ap state =>
      cases formatted
      refine ⟨sound.literal byte, ?_⟩
      rw [Formatted.finish_argv, wordsFrom]
      by_cases isSpace : byte = space
      · rw [if_pos isSpace, isSpace]
        obtain ⟨ended, whole⟩ := state.literal_space [] (ap.map VaArg.interpolated)
        rw [List.append_nil] at whole
        rw [ended, ← whole]
        rfl
      · rw [if_neg isSpace, Formatted.literal, if_neg isSpace, Formatted.begun_touch,
          Formatted.begun_getD sound, List.map_append]
        rfl
  | case3 byte conversion rest ap state notPercent ih =>
      obtain ⟨soundFinal, whole⟩ := ih (sound.literal byte) formatted
      refine ⟨soundFinal, ?_⟩
      rw [whole, wordsFrom, if_neg notPercent]
      by_cases isSpace : byte = space
      · rw [if_pos isSpace, isSpace]
        obtain ⟨ended, before⟩ := state.literal_space (wordsFrom none (conversion :: rest))
          (ap.map VaArg.interpolated)
        rw [ended, before]
      · rw [if_neg isSpace, Formatted.literal, if_neg isSpace, Formatted.begun_touch,
          Formatted.begun_getD sound, List.map_append]
        rfl
  | case4 byte rest ap state isPercent ih =>
      obtain ⟨soundFinal, whole⟩ := ih (sound.touch _) formatted
      refine ⟨soundFinal, ?_⟩
      rw [whole, wordsFrom, if_pos (not_not.mp isPercent), if_pos rfl, Formatted.begun_touch,
        Formatted.begun_getD sound, List.map_append]
      rfl
  | case5 state byte conversion rest isPercent other str ap _ ih =>
      obtain ⟨soundFinal, whole⟩ := ih (sound.touch _) formatted
      refine ⟨soundFinal, ?_⟩
      rw [whole, wordsFrom, if_pos (not_not.mp isPercent), if_neg other, Formatted.begun_touch,
        Formatted.begun_getD sound, List.map_cons, VaArg.interpolated, fill_hole]
      rfl
  | case6 state byte conversion rest isPercent other data ap _ ih =>
      obtain ⟨soundFinal, whole⟩ := ih (sound.touch _) formatted
      refine ⟨soundFinal, ?_⟩
      rw [whole, wordsFrom, if_pos (not_not.mp isPercent), if_neg other, Formatted.begun_touch,
        Formatted.begun_getD sound, List.map_cons, VaArg.interpolated, fill_hole]
      rfl
  | case7 => cases formatted

/-! ## What is sent -/

theorem countDigits_eq (v : Nat) : countDigits v = (Decimal.numeral v).length := by
  fun_induction countDigits v with
  | case1 v small => rw [Decimal.numeral_of_lt small, List.length_singleton]
  | case2 v large small =>
      rw [Decimal.numeral_of_le (by omega), Decimal.numeral_of_lt (by omega)]
      rfl
  | case3 v _ large small =>
      rw [Decimal.numeral_of_le (by omega), Decimal.numeral_of_le (by omega),
        Decimal.numeral_of_lt (by omega)]
      rfl
  | case4 v _ _ large small =>
      rw [Decimal.numeral_of_le (by omega), Decimal.numeral_of_le (by omega),
        Decimal.numeral_of_le (by omega), Decimal.numeral_of_lt (by omega)]
      rfl
  | case5 v _ _ _ large ih =>
      have quotient : v / 10 / 10 / 10 / 10 = v / 10000 := by omega
      rw [ih, Decimal.numeral_of_le (by omega : 10 ≤ v),
        Decimal.numeral_of_le (by omega : 10 ≤ v / 10),
        Decimal.numeral_of_le (by omega : 10 ≤ v / 10 / 10),
        Decimal.numeral_of_le (by omega : 10 ≤ v / 10 / 10 / 10), quotient]
      simp only [List.length_append, List.length_singleton]

theorem bulklen_eq (arg : Bytes) : bulklen arg.length = (bulk arg).length := by
  simp only [bulklen, countDigits_eq, bulk, crlf, List.length_append, List.length_cons,
    List.length_nil]
  omega

/-- The command is an array of the filled words of the format, and `totlen` is its length as
far as an `int` can count it. -/
theorem redisvFormatCommand_eq {format : Bytes} {ap : List VaArg} {cmd : Bytes} {totlen : Int}
    (formatted : redisvFormatCommand format ap = some (cmd, totlen)) :
    cmd = wire (fill (words (cString format)) (ap.map VaArg.interpolated)) ∧
      totlen = toInt cmd.length := by
  obtain ⟨final, loop, same⟩ := Option.map_eq_some_iff.mp formatted
  obtain ⟨sound, argv⟩ := formatFrom_eq Formatted.Sound.init loop
  obtain ⟨rfl, rfl⟩ := Prod.mk.inj same
  refine ⟨congrArg wire (argv.trans (List.nil_append _)), ?_⟩
  have lengths : (final.finish.argv.map fun arg => (bulklen arg.length : Int)).sum =
      ((final.finish.argv.flatMap bulk).length : Int) := by
    simp only [bulklen_eq, List.length_flatMap, Nat.cast_list_sum, List.map_map]
    rfl
  have header : (wire final.finish.argv).length =
      (final.finish.argv.flatMap bulk).length + (1 + countDigits final.finish.argv.length + 2) := by
    simp only [wire, countDigits_eq, crlf, List.length_append, List.length_cons, List.length_nil]
    omega
  rw [sound.finish.counted, Formatted.toInt_add, lengths, header]
  norm_cast

/-- An argument in its place. -/
def stringReply (arg : Bytes) : RedisReply := .leaf (.string arg)

theorem decimal_natCast (number : Nat) : decimal number = Decimal.numeral number :=
  decimal_of_nonneg (Int.natCast_nonneg number)

theorem spelled_bulk {library : CLibrary} {depth : Nat} {arg : Bytes}
    (fits : (bulk arg).length ≤ capacity) :
    Spelled (Lexeme library) depth (stringReply arg) (bulk arg) := by
  refine ⟨.string, _, rfl, ?_, nofun, ?_⟩
  · exact (Nat.le_succ _).trans fits
  · rw [← decimal_natCast]
    exact .string arg crlf rfl

theorem spelled_bulks {library : CLibrary} {depth : Nat} {argv : List Bytes}
    (fits : (argv.flatMap bulk).length ≤ capacity) :
    SpelledAll (Lexeme library) depth (argv.map stringReply) (argv.flatMap bulk) := by
  induction argv with
  | nil => rfl
  | cons arg rest ih =>
      rw [List.flatMap_cons, List.length_append] at fits
      exact ⟨bulk arg, rest.flatMap bulk, List.flatMap_cons, spelled_bulk (by omega),
        ih (by omega)⟩

/-- The command spells the array of its arguments. -/
theorem spelled_wire {library : CLibrary} {argv : List Bytes}
    (fits : (wire argv).length ≤ capacity) (granted : library.calloc argv.length = true) :
    Spelled (Lexeme library) 0 (.node .array (argv.map stringReply)) (wire argv) := by
  have bound : capacity = 2 ^ 31 := rfl
  have parts : (wire argv).length = (Decimal.numeral argv.length ++ crlf).length + 1 +
      (argv.flatMap bulk).length := List.length_append
  have many : argv.length ≤ (argv.flatMap bulk).length := by
    clear fits granted parts
    induction argv with
    | nil => exact Nat.zero_le _
    | cons arg rest ih =>
        rw [List.flatMap_cons, List.length_append, List.length_cons, bulk, List.length_cons]
        omega
  refine ⟨typeByte (.aggregate .array) :: (Decimal.numeral argv.length ++ crlf),
    argv.flatMap bulk, rfl, ⟨.aggregate .array, _, rfl, by omega, ?_, ?_⟩,
    spelled_bulks (by omega)⟩
  · intro _ _
    decide
  · rw [← decimal_natCast, List.length_map]
    exact .aggregate .array argv.length ⟨by omega, by omega⟩ fun _ => granted

/-- The format of `CRedisConn::get`. -/
def getFormat : Bytes := text ['G', 'E', 'T', ' ', '%', 's']

/-- The arguments of `GET` with a key. -/
def getArgv (key : Bytes) : List Bytes := [text ['G', 'E', 'T'], key]

theorem fill_getFormat (key : Bytes) : fill (words (cString getFormat)) [key] = getArgv key :=
  congrArg (fun last => getArgv last) (List.append_nil key)

/-- Any key is one argument, also one with spaces or line breaks. -/
theorem redisvFormatCommand_get (key : Bytes) :
    redisvFormatCommand getFormat [.string key] =
      some (wire (getArgv (cString key)), toInt (wire (getArgv (cString key))).length) := by
  cases formatted : redisvFormatCommand getFormat [.string key] with
  | none => cases formatted
  | some result =>
      obtain ⟨whole, counted⟩ := redisvFormatCommand_eq formatted
      have filled : fill (words (cString getFormat)) ([.string key].map VaArg.interpolated) =
          getArgv (cString key) := fill_getFormat (cString key)
      rw [filled] at whole
      rw [← whole, ← counted]

end Hiredis

end IOCPChatServer

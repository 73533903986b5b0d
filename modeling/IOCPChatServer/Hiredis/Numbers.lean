import IOCPChatServer.Library.Decimal
import IOCPChatServer.Packet

/-!
# Numbers and lines of the Redis protocol

`string2ll` and `seekNewline` of `hiredis/read.c`.  A `long long` is an integer below; the
unsigned accumulator of `string2ll` and the `int` counters of `seekNewline` are narrowed as
in the source.
-/

namespace IOCPChatServer

namespace Hiredis

open Decimal (IsDigit digit)

/-- `ULLONG_MAX` and `LLONG_MAX`. -/
def ullongMax : Nat := 2 ^ 64 - 1
def llongMax : Nat := 2 ^ 63 - 1

def minusSign : UInt8 := 45
def carriageReturn : UInt8 := 13
def lineFeed : UInt8 := 10

/-- `\r\n`. -/
def crlf : Bytes := [carriageReturn, lineFeed]

/-- The conversion to `int`. -/
def toInt (value : Int) : Int := value.bmod (2 ^ 32)

theorem toInt_eq {value : Int} (low : 0 ≤ value) (high : value < 2 ^ 31) : toInt value = value := by
  unfold toInt
  rw [Int.bmod_eq_of_le] <;> omega

/-! ## string2ll -/

/-- The loop of `string2ll`: the value and what is behind the digits, or an overflow. -/
def accumulate (v : Nat) : Bytes → Option (Nat × Bytes)
  | [] => some (v, [])
  | byte :: rest =>
      if IsDigit byte then
        if ullongMax / 10 < v then none
        else if ullongMax - digit byte < 10 * v then none
        else accumulate (10 * v + digit byte) rest
      else some (v, byte :: rest)

/-- `string2ll` behind the sign. -/
def unsignedValue : Bytes → Option Nat
  | [] => none
  | first :: rest =>
      if IsDigit first ∧ 0 < digit first then
        match accumulate (digit first) rest with
        | some (v, []) => some v
        | _ => none
      else none

/-- `string2ll`; `none` is `REDIS_ERR`. -/
def string2ll (s : Bytes) : Option Int :=
  match s with
  | [] => none
  | first :: rest =>
      if s = [Decimal.digitByte 0] then some 0
      else if first = minusSign then
        (unsignedValue rest).bind fun v => if llongMax + 1 < v then none else some (-v)
      else
        (unsignedValue s).bind fun v => if llongMax < v then none else some v

/-- A `long long` as it is printed. -/
def decimal (value : Int) : Bytes :=
  if value < 0 then minusSign :: Decimal.numeral value.natAbs else Decimal.numeral value.natAbs

/-- A value which a `long long` can have. -/
def IsLongLong (value : Int) : Prop := -2 ^ 63 ≤ value ∧ value < 2 ^ 63

instance (value : Int) : Decidable (IsLongLong value) := inferInstanceAs (Decidable (_ ∧ _))

/-- The loop reads all of the text exactly if it is digits whose value fits. -/
theorem accumulate_eq_some_nil {start : Nat} (s : Bytes) (v : Nat) (fits : start ≤ ullongMax) :
    accumulate start s = some (v, []) ↔
      (∀ byte ∈ s, IsDigit byte) ∧ Decimal.valueFrom start s = v ∧ v ≤ ullongMax := by
  induction s generalizing start with
  | nil =>
      simp only [accumulate, Decimal.valueFrom, List.foldl_nil, Option.some.injEq, Prod.mk.injEq,
        and_true, List.not_mem_nil, false_implies, implies_true, true_and]
      constructor
      · rintro rfl
        exact ⟨rfl, fits⟩
      · exact And.left
  | cons byte rest ih =>
      have next : Decimal.valueFrom start (byte :: rest) =
          Decimal.valueFrom (10 * start + digit byte) rest := rfl
      unfold accumulate
      by_cases isDigit : IsDigit byte
      · have small := Decimal.digit_lt isDigit
        have grown := Decimal.le_valueFrom (10 * start + digit byte) rest
        rw [if_pos isDigit, next]
        by_cases fitsNext : 10 * start + digit byte ≤ ullongMax
        · have quotient : ¬ ullongMax / 10 < start := by omega
          have sum : ¬ ullongMax - digit byte < 10 * start := by omega
          rw [if_neg quotient, if_neg sum, ih fitsNext]
          simp [isDigit]
        · have overflow : ¬ (Decimal.valueFrom (10 * start + digit byte) rest = v ∧
              v ≤ ullongMax) := by
            rintro ⟨rfl, low⟩
            omega
          have large : 9 ≤ ullongMax := by decide
          have failed : (if ullongMax / 10 < start then none
              else if ullongMax - digit byte < 10 * start then none
              else accumulate (10 * start + digit byte) rest) = none := by
            split
            · rfl
            · rw [if_pos (by omega)]
          rw [failed]
          exact ⟨nofun, fun read => absurd read.2 overflow⟩
      · rw [if_neg isDigit]
        exact ⟨nofun, fun read => absurd (read.1 byte List.mem_cons_self) isDigit⟩

theorem unsignedValue_eq_some {s : Bytes} {v : Nat} :
    unsignedValue s = some v ↔ s = Decimal.numeral v ∧ 0 < v ∧ v ≤ ullongMax := by
  cases s with
  | nil =>
      refine ⟨nofun, fun printed => ?_⟩
      exact absurd printed.1.symm (Decimal.numeral_ne_nil v)
  | cons first rest =>
      have read : Decimal.value (first :: rest) = Decimal.valueFrom (digit first) rest := by
        simp [Decimal.value, Decimal.valueFrom]
      simp only [unsignedValue]
      by_cases leading : IsDigit first ∧ 0 < digit first
      · have small := Decimal.digit_lt leading.1
        have whole := accumulate_eq_some_nil rest v (small.le.trans (by decide))
        have loop : (match accumulate (digit first) rest with
            | some (v, []) => some v
            | _ => none) = some v ↔ accumulate (digit first) rest = some (v, []) := by
          split
          · rename_i other result
            rw [result]
            simp
          · rename_i different
            exact ⟨nofun, fun all => absurd all (different v)⟩
        rw [if_pos leading, loop, whole]
        constructor
        · rintro ⟨digits, value, fits⟩
          have all : ∀ byte ∈ first :: rest, IsDigit byte :=
            List.forall_mem_cons.mpr ⟨leading.1, digits⟩
          have grown := Decimal.le_valueFrom (digit first) rest
          refine ⟨?_, by omega, fits⟩
          rw [← value, ← read, Decimal.numeral_value leading.2 all]
        · rintro ⟨printed, _, fits⟩
          have all := Decimal.isDigit_numeral v
          rw [← printed] at all
          refine ⟨(List.forall_mem_cons.mp all).2, ?_, fits⟩
          rw [← read, printed, Decimal.value_numeral]
      · rw [if_neg leading]
        refine ⟨nofun, fun ⟨printed, positive, _⟩ => ?_⟩
        obtain ⟨head, tail, same, isDigit, nonzero⟩ := Decimal.head_numeral positive
        rw [same] at printed
        obtain ⟨rfl, rfl⟩ := List.cons.inj printed
        exact absurd ⟨isDigit, nonzero⟩ leading

theorem decimal_ne_nil (value : Int) : decimal value ≠ [] := by
  unfold decimal
  split
  · exact List.cons_ne_nil _ _
  · exact Decimal.numeral_ne_nil _

theorem numeral_zero : Decimal.numeral 0 = [Decimal.digitByte 0] :=
  Decimal.numeral_of_lt (by decide)

/-- A sign is no digit. -/
theorem head_ne_minusSign (number : Nat) (rest : Bytes) :
    Decimal.numeral number ≠ minusSign :: rest := by
  intro same
  have isDigit := Decimal.isDigit_numeral number minusSign (same ▸ List.mem_cons_self)
  exact absurd isDigit (by decide)

/-- The value behind the sign, under a bound. -/
theorem bounded_eq_some {bound : Nat} (below : bound ≤ ullongMax) {sign : Nat → Int} {s : Bytes}
    {value : Int} :
    ((unsignedValue s).bind fun v => if bound < v then none else some (sign v)) = some value ↔
      ∃ v, s = Decimal.numeral v ∧ 0 < v ∧ v ≤ bound ∧ sign v = value := by
  rw [Option.bind_eq_some_iff]
  refine exists_congr fun v => ?_
  rw [unsignedValue_eq_some, Option.ite_none_left_eq_some, Option.some.injEq, Nat.not_lt]
  constructor
  · rintro ⟨⟨printed, positive, _⟩, fits, same⟩
    exact ⟨printed, positive, fits, same⟩
  · rintro ⟨printed, positive, fits, same⟩
    exact ⟨⟨printed, positive, fits.trans below⟩, fits, same⟩

theorem decimal_of_neg {value : Int} (negative : value < 0) :
    decimal value = minusSign :: Decimal.numeral value.natAbs := if_pos negative

theorem decimal_of_nonneg {value : Int} (nonnegative : 0 ≤ value) :
    decimal value = Decimal.numeral value.natAbs := if_neg (Int.not_lt.mpr nonnegative)

/-- `string2ll` accepts a text exactly if a `long long` is printed so, and reads that number:
the text can be obtained back from the number. -/
theorem string2ll_eq_some_iff (s : Bytes) (value : Int) :
    string2ll s = some value ↔ IsLongLong value ∧ s = decimal value := by
  cases s with
  | nil => exact ⟨nofun, fun printed => absurd printed.2.symm (decimal_ne_nil value)⟩
  | cons first rest =>
      simp only [string2ll]
      by_cases zero : first :: rest = [Decimal.digitByte 0]
      · rw [if_pos zero, zero, ← numeral_zero]
        constructor
        · intro read
          cases read
          exact ⟨by decide, rfl⟩
        · rintro ⟨_, printed⟩
          rcases Int.lt_or_le value 0 with negative | nonnegative
          · rw [decimal_of_neg negative] at printed
            exact absurd printed (head_ne_minusSign 0 _)
          · rw [decimal_of_nonneg nonnegative] at printed
            have same := Decimal.numeral_injective printed
            rw [Int.natAbs_eq_zero.mp same.symm]
      · rw [if_neg zero]
        by_cases minus : first = minusSign
        · subst minus
          rw [if_pos rfl, bounded_eq_some (by decide)]
          have bound : llongMax + 1 = 2 ^ 63 := by decide
          constructor
          · rintro ⟨v, printed, positive, fits, rfl⟩
            refine ⟨⟨by omega, by omega⟩, ?_⟩
            rw [decimal_of_neg (by omega), Int.natAbs_neg, Int.natAbs_natCast, printed]
          · rintro ⟨⟨low, _⟩, printed⟩
            rcases Int.lt_or_le value 0 with negative | nonnegative
            · rw [decimal_of_neg negative] at printed
              exact ⟨value.natAbs, (List.cons.inj printed).2, by omega, by omega, by omega⟩
            · rw [decimal_of_nonneg nonnegative] at printed
              exact absurd printed.symm (head_ne_minusSign _ _)
        · rw [if_neg minus, bounded_eq_some (by decide)]
          have bound : llongMax + 1 = 2 ^ 63 := by decide
          constructor
          · rintro ⟨v, printed, positive, fits, rfl⟩
            refine ⟨⟨by omega, by omega⟩, ?_⟩
            rw [decimal_of_nonneg (by omega), Int.natAbs_natCast, printed]
          · rintro ⟨⟨_, high⟩, printed⟩
            rcases Int.lt_or_le value 0 with negative | nonnegative
            · rw [decimal_of_neg negative] at printed
              exact absurd (List.cons.inj printed).1 minus
            · rw [decimal_of_nonneg nonnegative] at printed
              have nonzero : value.natAbs ≠ 0 := fun none => by
                rw [none, numeral_zero] at printed
                exact zero printed
              exact ⟨value.natAbs, printed, by omega, by omega, by omega⟩

/-! ## seekNewline -/

/-- The position of the first `\r\n`. -/
def findNewline : Bytes → Option Nat
  | [] => none
  | byte :: rest =>
      if byte = carriageReturn ∧ rest.head? = some lineFeed then some 0
      else (findNewline rest).map (· + 1)

/-- `seekNewline`: the length minus one is narrowed to an `int`, and only positions before it
are looked at. -/
def seekNewline (s : Bytes) : Option Nat :=
  findNewline (s.take (toInt ((s.length : Int) - 1) + 1).toNat)

/-- No `\r\n` in a line. -/
def IsLine (line : Bytes) : Prop := findNewline line = none

instance (line : Bytes) : Decidable (IsLine line) := inferInstanceAs (Decidable (_ = _))

/-- The largest buffer whose length `seekNewline` can count. -/
def capacity : Nat := 2 ^ 31

theorem seekNewline_eq {s : Bytes} (fits : s.length ≤ capacity) :
    seekNewline s = findNewline s := by
  have bound : capacity = 2 ^ 31 := rfl
  cases s with
  | nil => rfl
  | cons first rest =>
      unfold seekNewline
      have length : ((first :: rest).length : Int) - 1 = (rest.length : Int) := by simp
      rw [length, toInt_eq (by omega) (by simp only [List.length_cons] at fits; omega)]
      have all : ((rest.length : Int) + 1).toNat = (first :: rest).length := by
        simp only [List.length_cons]
        omega
      rw [all, List.take_length]

/-- The newline is where it was found when more input comes. -/
theorem findNewline_append {s : Bytes} {position : Nat} (found : findNewline s = some position)
    (more : Bytes) : findNewline (s ++ more) = some position := by
  induction s generalizing position with
  | nil => cases found
  | cons byte rest ih =>
      unfold findNewline at found
      rw [List.cons_append]
      unfold findNewline
      split at found
      · rename_i here
        cases found
        obtain ⟨isReturn, feeds⟩ := here
        cases rest with
        | nil => cases feeds
        | cons next tail => rw [if_pos ⟨isReturn, feeds⟩]
      · rename_i other
        obtain ⟨before, foundLater, rfl⟩ := Option.map_eq_some_iff.mp found
        have notHere : ¬ (byte = carriageReturn ∧ (rest ++ more).head? = some lineFeed) := by
          rintro ⟨isReturn, feeds⟩
          cases rest with
          | nil => cases foundLater
          | cons next tail => exact other ⟨isReturn, feeds⟩
        rw [if_neg notHere, ih foundLater]
        rfl

/-- There is room for the newline behind the line. -/
theorem findNewline_lt {s : Bytes} {position : Nat} (found : findNewline s = some position) :
    position + 2 ≤ s.length := by
  induction s generalizing position with
  | nil => cases found
  | cons byte rest ih =>
      unfold findNewline at found
      split at found
      · rename_i here
        cases found
        cases rest with
        | nil => cases here.2
        | cons next tail => simp
      · obtain ⟨before, foundLater, rfl⟩ := Option.map_eq_some_iff.mp found
        have later := ih foundLater
        simp only [List.length_cons]
        omega

/-- What was found is a line and a newline. -/
theorem findNewline_split {s : Bytes} {position : Nat} (found : findNewline s = some position) :
    IsLine (s.take position) ∧ s = s.take position ++ crlf ++ s.drop (position + 2) := by
  induction s generalizing position with
  | nil => cases found
  | cons byte rest ih =>
      unfold findNewline at found
      split at found
      · rename_i here
        cases found
        obtain ⟨rfl, feeds⟩ := here
        cases rest with
        | nil => cases feeds
        | cons next tail =>
            cases feeds
            exact ⟨rfl, rfl⟩
      · rename_i other
        obtain ⟨before, foundLater, rfl⟩ := Option.map_eq_some_iff.mp found
        obtain ⟨isLine, whole⟩ := ih foundLater
        refine ⟨?_, ?_⟩
        · unfold IsLine at isLine ⊢
          rw [List.take_succ_cons]
          unfold findNewline
          have notHere : ¬ (byte = carriageReturn ∧ (rest.take before).head? = some lineFeed) := by
            rintro ⟨isReturn, feeds⟩
            refine other ⟨isReturn, ?_⟩
            cases rest with
            | nil => simp at feeds
            | cons next tail =>
                cases before with
                | zero => simp at feeds
                | succ before => exact feeds
          rw [if_neg notHere, isLine]
          rfl
        · rw [List.take_succ_cons, List.cons_append, List.cons_append,
            show before + 1 + 2 = (before + 2) + 1 by omega, List.drop_succ_cons, ← whole]

/-- A line ends at its newline. -/
theorem findNewline_line {line : Bytes} (isLine : IsLine line) (rest : Bytes) :
    findNewline (line ++ crlf ++ rest) = some line.length := by
  induction line with
  | nil => rfl
  | cons byte tail ih =>
      unfold IsLine findNewline at isLine
      split at isLine
      · cases isLine
      · rename_i other
        have later := ih (Option.map_eq_none_iff.mp isLine)
        rw [List.cons_append, List.cons_append]
        unfold findNewline
        have notHere : ¬ (byte = carriageReturn ∧
            (tail ++ crlf ++ rest).head? = some lineFeed) := by
          rintro ⟨isReturn, feeds⟩
          cases tail with
          | nil => exact absurd feeds (by simp [crlf, carriageReturn, lineFeed])
          | cons next tail => exact other ⟨isReturn, feeds⟩
        rw [if_neg notHere, later]
        rfl

/-- The text of a number is a line. -/
theorem isLine_of_forall_ne {line : Bytes} (letters : ∀ byte ∈ line, byte ≠ carriageReturn) :
    IsLine line := by
  induction line with
  | nil => rfl
  | cons byte rest ih =>
      obtain ⟨first, later⟩ := List.forall_mem_cons.mp letters
      unfold IsLine at ih ⊢
      unfold findNewline
      rw [if_neg (fun here => first here.1), ih later]
      rfl

theorem isLine_decimal (value : Int) : IsLine (decimal value) := by
  refine isLine_of_forall_ne fun byte member => ?_
  have isDigit {byte : UInt8} (member : byte ∈ Decimal.numeral value.natAbs) :
      byte ≠ carriageReturn := by
    rintro rfl
    exact absurd (Decimal.isDigit_numeral _ _ member) (by decide)
  unfold decimal at member
  split at member
  · rcases List.mem_cons.mp member with rfl | digits
    · decide
    · exact isDigit digits
  · exact isDigit member

end Hiredis

end IOCPChatServer

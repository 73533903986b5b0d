import Mathlib

/-!
# Decimal numerals

Numbers in ASCII digits.  `numeral` is how a number is printed: no zero in front, but for
the number zero.  `value` reads any list of digits.  The two are inverse to each other on
lists of digits which a number can be printed as.
-/

namespace Decimal

/-- The byte of a digit. -/
def digitByte (digit : Nat) : UInt8 := UInt8.ofNat (48 + digit)

/-- The byte is one of `0` to `9`. -/
def IsDigit (byte : UInt8) : Prop := 48 ≤ byte.toNat ∧ byte.toNat ≤ 57

instance (byte : UInt8) : Decidable (IsDigit byte) := inferInstanceAs (Decidable (_ ∧ _))

/-- The number of a digit. -/
def digit (byte : UInt8) : Nat := byte.toNat - 48

/-- Digits which continue a number. -/
def valueFrom (start : Nat) (digits : List UInt8) : Nat :=
  digits.foldl (fun value byte => 10 * value + digit byte) start

def value (digits : List UInt8) : Nat := valueFrom 0 digits

/-- The number as it is printed. -/
def numeral (number : Nat) : List UInt8 :=
  (Nat.toDigits 10 number).map fun character => UInt8.ofNat character.toNat

/-! ## Single digits -/

theorem isDigit_digitByte {number : Nat} (small : number < 10) : IsDigit (digitByte number) := by
  interval_cases number <;> decide

@[simp]
theorem digit_digitByte {number : Nat} (small : number < 10) :
    digit (digitByte number) = number := by
  interval_cases number <;> rfl

theorem digit_lt {byte : UInt8} (isDigit : IsDigit byte) : digit byte < 10 := by
  unfold digit
  have last := isDigit.2
  omega

theorem digitByte_digit {byte : UInt8} (isDigit : IsDigit byte) :
    digitByte (digit byte) = byte := by
  have first := isDigit.1
  have back : 48 + digit byte = byte.toNat := by
    unfold digit
    omega
  rw [digitByte, back, UInt8.ofNat_toNat]

theorem digitChar_toNat {number : Nat} (small : number < 10) :
    UInt8.ofNat number.digitChar.toNat = digitByte number := by
  interval_cases number <;> rfl

/-! ## Printing -/

theorem numeral_of_lt {number : Nat} (small : number < 10) :
    numeral number = [digitByte number] := by
  rw [numeral, Nat.toDigits_of_lt_base small, List.map_singleton, digitChar_toNat small]

theorem numeral_of_le {number : Nat} (large : 10 ≤ number) :
    numeral number = numeral (number / 10) ++ [digitByte (number % 10)] := by
  rw [numeral, Nat.toDigits_of_base_le (by decide) large, List.map_append, List.map_singleton,
    digitChar_toNat (Nat.mod_lt number (by decide))]
  rfl

theorem numeral_ne_nil (number : Nat) : numeral number ≠ [] := by
  rcases Nat.lt_or_ge number 10 with small | large
  · rw [numeral_of_lt small]
    exact List.cons_ne_nil _ _
  · rw [numeral_of_le large]
    exact List.append_ne_nil_of_right_ne_nil _ (List.cons_ne_nil _ _)

theorem isDigit_numeral (number : Nat) : ∀ byte ∈ numeral number, IsDigit byte := by
  induction number using Nat.strong_induction_on with
  | _ number ih =>
      rcases Nat.lt_or_ge number 10 with small | large
      · rw [numeral_of_lt small]
        intro byte member
        rw [List.mem_singleton.mp member]
        exact isDigit_digitByte small
      · rw [numeral_of_le large]
        intro byte member
        rcases List.mem_append.mp member with front | last
        · exact ih (number / 10) (by omega) byte front
        · rw [List.mem_singleton.mp last]
          exact isDigit_digitByte (Nat.mod_lt number (by decide))

/-! ## Reading -/

theorem valueFrom_append (start : Nat) (front back : List UInt8) :
    valueFrom start (front ++ back) = valueFrom (valueFrom start front) back :=
  List.foldl_append

theorem value_append_digit (front : List UInt8) (byte : UInt8) :
    value (front ++ [byte]) = 10 * value front + digit byte :=
  valueFrom_append 0 front [byte]

/-- Reading on never makes the number smaller. -/
theorem le_valueFrom (start : Nat) (digits : List UInt8) : start ≤ valueFrom start digits := by
  induction digits generalizing start with
  | nil => exact Nat.le_refl start
  | cons byte rest ih =>
      have later := ih (10 * start + digit byte)
      have grown : start ≤ 10 * start + digit byte := by omega
      exact grown.trans later

@[simp]
theorem value_numeral (number : Nat) : value (numeral number) = number := by
  induction number using Nat.strong_induction_on with
  | _ number ih =>
      rcases Nat.lt_or_ge number 10 with small | large
      · rw [numeral_of_lt small]
        have single := value_append_digit [] (digitByte number)
        rw [digit_digitByte small] at single
        exact single.trans (Nat.zero_add number)
      · rw [numeral_of_le large, value_append_digit, ih (number / 10) (by omega),
          digit_digitByte (Nat.mod_lt number (by decide))]
        omega

theorem numeral_injective {first second : Nat} (same : numeral first = numeral second) :
    first = second := by
  rw [← value_numeral first, same, value_numeral]

/-- A positive number is not printed with a zero in front. -/
theorem head_numeral {number : Nat} (positive : 0 < number) :
    ∃ first rest, numeral number = first :: rest ∧ IsDigit first ∧ 0 < digit first := by
  induction number using Nat.strong_induction_on with
  | _ number ih =>
      rcases Nat.lt_or_ge number 10 with small | large
      · refine ⟨digitByte number, [], numeral_of_lt small, isDigit_digitByte small, ?_⟩
        rwa [digit_digitByte small]
      · obtain ⟨first, rest, printed, isDigit, nonzero⟩ :=
          ih (number / 10) (by omega) (by omega)
        refine ⟨first, rest ++ [digitByte (number % 10)], ?_, isDigit, nonzero⟩
        rw [numeral_of_le large, printed, List.cons_append]

/-- Digits which do not begin with a zero are the printed form of their value. -/
theorem numeral_value {first : UInt8} {rest : List UInt8} (nonzero : 0 < digit first)
    (digits : ∀ byte ∈ first :: rest, IsDigit byte) :
    numeral (value (first :: rest)) = first :: rest := by
  induction rest using List.reverseRecOn with
  | nil =>
      have isDigit := digits first List.mem_cons_self
      have single : value [first] = digit first := by
        have read := value_append_digit [] first
        exact read.trans (Nat.zero_add _)
      rw [single, numeral_of_lt (digit_lt isDigit), digitByte_digit isDigit]
  | append_singleton front last ih =>
      rw [← List.cons_append] at digits ⊢
      have isDigit := digits last (List.mem_append_right _ (List.mem_singleton_self last))
      have small := digit_lt isDigit
      have printed := ih fun byte member => digits byte (List.mem_append_left _ member)
      have positive : 0 < value (first :: front) := by
        have started := le_valueFrom (10 * 0 + digit first) front
        exact (by omega : 0 < 10 * 0 + digit first).trans_le started
      have quotient : (10 * value (first :: front) + digit last) / 10 = value (first :: front) := by
        omega
      have remainder : (10 * value (first :: front) + digit last) % 10 = digit last := by omega
      rw [value_append_digit, numeral_of_le (by omega), quotient, remainder, printed,
        digitByte_digit isDigit]

end Decimal

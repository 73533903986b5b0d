import Mathlib

/-!
# Words in a memory of bytes

A memory gives the byte at every address.  A word of `count` bytes is stored little
endian: it is read back modulo `256 ^ count`, and only these bytes are changed.
-/

abbrev ByteMemory := Nat → UInt8

namespace ByteMemory

def readWord (memory : ByteMemory) (address : Nat) : Nat → Nat
  | 0 => 0
  | count + 1 => (memory address).toNat + 256 * readWord memory (address + 1) count

def writeWord (memory : ByteMemory) (address value : Nat) : Nat → ByteMemory
  | 0 => memory
  | count + 1 =>
      Function.update (writeWord memory (address + 1) (value / 256) count) address
        (UInt8.ofNat value)

/-- A word is read from its own bytes. -/
theorem readWord_congr {first second : ByteMemory} {address count : Nat}
    (agree : ∀ position, address ≤ position → position < address + count →
      first position = second position) :
    first.readWord address count = second.readWord address count := by
  induction count generalizing address with
  | zero => rfl
  | succ count ih =>
      have rest : first.readWord (address + 1) count = second.readWord (address + 1) count :=
        ih fun position low high => agree position (by omega) (by omega)
      simp only [readWord]
      rw [rest, agree address (Nat.le_refl address) (by omega)]

/-- The other bytes are kept. -/
theorem writeWord_of_outside (memory : ByteMemory) {address value count position : Nat}
    (outside : position < address ∨ address + count ≤ position) :
    memory.writeWord address value count position = memory position := by
  induction count generalizing address value with
  | zero => rfl
  | succ count ih =>
      simp only [writeWord]
      rw [Function.update_of_ne (by omega)]
      exact ih (by omega)

theorem readWord_writeWord (memory : ByteMemory) (address value count : Nat) :
    (memory.writeWord address value count).readWord address count = value % 256 ^ count := by
  induction count generalizing address value with
  | zero => exact (Nat.mod_one value).symm
  | succ count ih =>
      have rest : (memory.writeWord address value (count + 1)).readWord (address + 1) count =
          (memory.writeWord (address + 1) (value / 256) count).readWord (address + 1) count :=
        readWord_congr fun position low _ =>
          Function.update_of_ne (by omega) _ _
      have front : (memory.writeWord address value (count + 1) address).toNat = value % 256 := by
        rw [writeWord, Function.update_self]
        exact UInt8.toNat_ofNat'
      rw [readWord, rest, ih, front, Nat.pow_succ', Nat.mod_mul (a := 256)]

/-- A word behind or in front of the one which is written. -/
theorem readWord_writeWord_apart (memory : ByteMemory) {address value other count : Nat}
    (apart : other + count ≤ address ∨ address + count ≤ other) :
    (memory.writeWord address value count).readWord other count =
      memory.readWord other count :=
  readWord_congr fun _ _ _ => writeWord_of_outside memory (by omega)

end ByteMemory

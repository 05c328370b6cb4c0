import Mathlib.Algebra.GroupWithZero.Nat
import Mathlib.Data.Nat.Notation

/-!
# Numbers in bytes, low byte first

Memory is a function from addresses to bytes. A number is stored as its digits to base 256, and read
back from as many bytes as its type has.
-/

namespace FsChecking.Lib

/-- The byte at an index of a number. -/
def byteOf (value index : Nat) : Nat := value / 256 ^ index % 256

/-- The number in the first bytes of a memory. -/
def readBytes : Nat → (Nat → Nat) → Nat
  | 0, _ => 0
  | count + 1, byte => byte 0 + 256 * readBytes count fun index => byte (index + 1)

/-- Only the bytes that are read matter. -/
theorem readBytes_congr {count : Nat} {byte byte' : Nat → Nat}
    (same : ∀ index < count, byte index = byte' index) :
    readBytes count byte = readBytes count byte' := by
  induction count generalizing byte byte' with
  | zero => rfl
  | succ count ih =>
    have rest := ih fun index less => same (index + 1) (Nat.succ_lt_succ less)
    rw [readBytes, readBytes, same 0 (Nat.succ_pos count), rest]

/-- What is stored is read back, as far as it fits. -/
theorem readBytes_byteOf (count value : Nat) :
    readBytes count (byteOf value) = value % 256 ^ count := by
  induction count generalizing value with
  | zero => exact (Nat.mod_one value).symm
  | succ count ih =>
    have shifted : (fun index => byteOf value (index + 1)) = byteOf (value / 256) := by
      funext index
      rw [byteOf, byteOf, Nat.pow_succ, Nat.mul_comm, Nat.div_div_eq_div_mul]
    rw [readBytes, shifted, ih, byteOf, Nat.pow_zero, Nat.div_one, Nat.pow_succ,
      Nat.mul_comm (256 ^ count), Nat.mod_mul]

/-- What is stored is read back when it fits. -/
theorem readBytes_of_lt {count value : Nat} {byte : Nat → Nat} (fits : value < 256 ^ count)
    (stored : ∀ index < count, byte index = byteOf value index) :
    readBytes count byte = value := by
  rw [readBytes_congr stored, readBytes_byteOf, Nat.mod_eq_of_lt fits]

end FsChecking.Lib

import CryptoOpal.Lib.Bits
import CryptoOpal.Lib.Octets
import Mathlib.Data.List.GetD

/-!
# Bit Fields of a Memory

A field of so many bits that starts at any bit of a memory is a number, its most
significant bit first. A reader that takes a field from pieces of octets joins the
numbers of the pieces (`field_add`), and each piece is a shifted and masked octet
(`field_within`). A writer says what each bit is, which is enough to know the field
(`field_of_testBit`).

## Main definitions

* `octetsAt`: The memory that an octet string is.
* `field`: The number in a range of bits.

## Theorems

* `field_add`: A field is its parts put behind each other.
* `field_within`: A field within an octet.
* `field_of_testBit`: A field whose bits are those of a number.
-/

namespace CryptoOpal

namespace Lib

/-- The memory that an octet string is. -/
def octetsAt (b : Octets) : Memory := fun i => b.getD i 0

/-- The number in the `n` bits from bit `p` on, the most significant bit first. -/
def field (m : Memory) (p : Nat) : Nat → Nat
  | 0 => 0
  | n + 1 => 2 * field m p n + (bitAt m (p + n)).toNat

section Field

variable {m m' : Memory} {p n : Nat}

theorem bitOf_eq_testBit (b : UInt8) (i : Nat) : bitOf b i = b.toNat.testBit i := rfl

/-- A field depends on its bits. -/
theorem field_congr (h : ∀ i, p ≤ i → i < p + n → bitAt m i = bitAt m' i) :
    field m p n = field m' p n := by
  induction n with
  | zero => rfl
  | succ n ih =>
      rw [field, field, ih fun i hlo hhi => h i hlo (by omega), h (p + n) (by omega) (by omega)]

/-- A field is its parts put behind each other. -/
theorem field_add (m : Memory) (p a b : Nat) :
    field m p (a + b) = field m p a * 2 ^ b + field m (p + a) b := by
  induction b with
  | zero => rw [Nat.pow_zero, Nat.mul_one, field, Nat.add_zero, Nat.add_zero]
  | succ b ih =>
      rw [← Nat.add_assoc, field, ih, field, Nat.pow_succ, Nat.add_assoc p a b]
      ring

theorem field_one (m : Memory) (p : Nat) : field m p 1 = (bitAt m p).toNat := by
  rw [field, field, Nat.mul_zero, Nat.zero_add, Nat.add_zero]

/-- A field whose bits are those of a number. -/
theorem field_of_testBit {v : Nat} (h : ∀ i < n, bitAt m (p + i) = v.testBit (n - 1 - i)) :
    field m p n = v % 2 ^ n := by
  induction n generalizing v with
  | zero => rw [field, Nat.pow_zero, Nat.mod_one]
  | succ n ih =>
      -- All but the last bit are those of `v / 2`.
      have hinit : field m p n = v / 2 % 2 ^ n := by
        apply ih
        intro i hi
        rw [h i (by omega), ← Nat.testBit_succ]
        congr 1
        omega
      have hlast := h n (by omega)
      rw [show n + 1 - 1 - n = 0 by omega, Nat.testBit_zero] at hlast
      rw [field, hinit, hlast, Nat.pow_succ, Nat.mul_comm (2 ^ n) 2, Nat.mod_mul]
      rcases Nat.mod_two_eq_zero_or_one v with hv | hv <;> rw [hv]
      · rw [decide_eq_false (by decide)]
        simp only [Bool.toNat_false]
        omega
      · rw [decide_eq_true rfl]
        simp only [Bool.toNat_true]
        omega

/-- A field within an octet. -/
theorem field_within (m : Memory) (k a n : Nat) (h : a + n ≤ 8) :
    field m (8 * k + a) n = (m k).toNat >>> (8 - a - n) % 2 ^ n := by
  apply field_of_testBit
  intro i hi
  rw [bitAt, bitOf_eq_testBit, Nat.testBit_shiftRight, show (8 * k + a + i) / 8 = k by omega,
    show 7 - (8 * k + a + i) % 8 = 8 - a - n + (n - 1 - i) by omega]

theorem field_octet (m : Memory) (k : Nat) : field m (8 * k) 8 = (m k).toNat := by
  have hin := field_within m k 0 8 (by omega)
  rwa [Nat.add_zero, Nat.shiftRight_zero, Nat.mod_eq_of_lt (m k).toNat_lt] at hin

end Field

end Lib

end CryptoOpal

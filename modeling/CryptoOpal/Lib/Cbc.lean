import CryptoOpal.Lib.Octets

/-!
# Cipher Block Chaining

Blocks are encrypted one after another, each exored with the ciphertext of the one before it.
The block cipher comes with its inverse.

## Main definitions

* `BlockCipher`: A key's two permutations.
* `cbcEncrypt`, `cbcDecrypt`: So many blocks of an octet string.

## Theorems

* `cbcDecrypt_cbcEncrypt`: What was encrypted is decrypted.
-/

namespace CryptoOpal

namespace Lib

/-- What a key makes of blocks of `b` octets, and back. -/
structure BlockCipher (b : Nat) where
  encrypt : Octets → Octets
  decrypt : Octets → Octets
  length_encrypt : ∀ x, x.length = b → (encrypt x).length = b
  length_decrypt : ∀ x, x.length = b → (decrypt x).length = b
  decrypt_encrypt : ∀ x, x.length = b → decrypt (encrypt x) = x
  encrypt_decrypt : ∀ x, x.length = b → encrypt (decrypt x) = x

section Cbc

variable {b : Nat} (key : BlockCipher b)

/-- Encrypt `n` blocks. -/
def cbcEncrypt : Nat → Octets → Octets → Octets
  | 0, _, _ => []
  | n + 1, last, x =>
    let block := key.encrypt (xorOctets last (x.take b))
    block ++ cbcEncrypt n block (x.drop b)

/-- Decrypt `n` blocks. -/
def cbcDecrypt : Nat → Octets → Octets → Octets
  | 0, _, _ => []
  | n + 1, last, y =>
    xorOctets (key.decrypt (y.take b)) last ++ cbcDecrypt n (y.take b) (y.drop b)

variable {key}

theorem xorOctets_comm (x y : Octets) : xorOctets x y = xorOctets y x :=
  List.zipWith_comm_of_comm UInt8.xor_comm

/-- An exored block has the length of a block. -/
theorem length_xor_block {n : Nat} {last x : Octets} (hlast : last.length = b)
    (hx : b * (n + 1) ≤ x.length) : (xorOctets last (x.take b)).length = b := by
  rw [Nat.mul_succ] at hx
  rw [length_xorOctets, List.length_take]
  omega

theorem length_cbcEncrypt (n : Nat) {last x : Octets} (hlast : last.length = b)
    (hx : b * n ≤ x.length) : (cbcEncrypt key n last x).length = b * n := by
  induction n generalizing last x with
  | zero => rfl
  | succ n ih =>
      have hblock := key.length_encrypt _ (length_xor_block hlast hx)
      rw [Nat.mul_succ] at hx
      rw [cbcEncrypt]
      simp only [List.length_append]
      rw [hblock, ih hblock (by rw [List.length_drop]; omega), Nat.mul_succ, Nat.add_comm]

/-- What was encrypted is decrypted. -/
theorem cbcDecrypt_cbcEncrypt (n : Nat) {last x : Octets} (hlast : last.length = b)
    (hx : x.length = b * n) : cbcDecrypt key n last (cbcEncrypt key n last x) = x := by
  induction n generalizing last x with
  | zero =>
      rw [Nat.mul_zero, List.length_eq_zero_iff] at hx
      rw [hx]
      rfl
  | succ n ih =>
      have hexored := length_xor_block (n := n) hlast (Nat.le_of_eq hx.symm)
      have hblock := key.length_encrypt _ hexored
      rw [Nat.mul_succ] at hx
      have htake : (x.take b).length = b := by
        rw [List.length_take]
        omega
      rw [cbcEncrypt]
      simp only [cbcDecrypt]
      rw [List.take_left' hblock, List.drop_left' hblock, key.decrypt_encrypt _ hexored,
        ih hblock (by rw [List.length_drop]; omega), xorOctets_comm last,
        xorOctets_cancel _ _ (by rw [htake, hlast]), List.take_append_drop]

end Cbc

end Lib

end CryptoOpal

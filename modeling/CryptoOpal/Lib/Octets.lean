import Mathlib.Data.List.Basic
import Mathlib.Data.Nat.ModEq
import Mathlib.Tactic.Ring

/-!
# Octet Strings

Packets are lists of octets, and what a program does to a packet in place is
described by three operations on them: reading a slice, writing over a slice,
and exoring a keystream into a slice. Numbers go into a packet and come out
of it in network byte order.

The lemmas are the ones an argument about buffers needs. Writing over the
middle of `a ++ b ++ c` replaces `b` (`overwrite_middle`), reading it back
gives what was written (`slice_middle`), exoring twice with one keystream
gives back the data (`xorOctets_cancel`), and a number survives its encoding
(`ofBigEndian_bigEndian`), so two numbers with one encoding agree
(`bigEndian_inj`).

## Main definitions

* `Octets`: A list of octets.
* `slice`, `overwrite`: Reading and writing part of a buffer.
* `xorOctets`: Octet-wise exclusive or.
* `bigEndian`, `ofBigEndian`: Network byte order.

## Theorems

* `split_middle`: A buffer is what precedes a slice, the slice, and the rest.
* `slice_middle`, `overwrite_middle`: Reading and writing the middle part.
* `xorOctets_cancel`: Exoring with a keystream twice changes nothing.
* `ofBigEndian_bigEndian`, `bigEndian_inj`: Encoding is faithful.
-/

namespace CryptoOpal

namespace Lib

/-- A list of octets. -/
abbrev Octets := List UInt8

/-- The `len` octets that start at `off`. -/
def slice (b : Octets) (off len : Nat) : Octets := (b.drop off).take len

/-- Write `d` over the buffer from `off` on. -/
def overwrite (b : Octets) (off : Nat) (d : Octets) : Octets :=
  b.take off ++ d ++ b.drop (off + d.length)

/-- Octet-wise exclusive or, as long as both strings last. -/
def xorOctets (a b : Octets) : Octets := List.zipWith (· ^^^ ·) a b

/-- The low `k` octets of `n`, most significant first. -/
def bigEndian : Nat → Nat → Octets
  | 0, _ => []
  | k + 1, n => UInt8.ofNat (n / 256 ^ k) :: bigEndian k n

/-- The number an octet string spells, most significant octet first. -/
def ofBigEndian : Octets → Nat
  | [] => 0
  | b :: bs => b.toNat * 256 ^ bs.length + ofBigEndian bs

/-- A check of all octets. -/
theorem forall_octet {p : UInt8 → Prop} (h : ∀ i : Fin 256, p (UInt8.ofNat i.val)) (x : UInt8) :
    p x := by
  have hx := h ⟨x.toNat, x.toNat_lt⟩
  rwa [UInt8.ofNat_toNat] at hx

section Slices

variable {a b c d : Octets}

@[simp] theorem length_slice (b : Octets) (off len : Nat) :
    (slice b off len).length = min len (b.length - off) := by
  simp only [slice, List.length_take, List.length_drop]

theorem length_overwrite (b : Octets) (off : Nat) (d : Octets) (h : off + d.length ≤ b.length) :
    (overwrite b off d).length = b.length := by
  simp only [overwrite, List.length_append, List.length_take, List.length_drop]
  omega

/-- A buffer is what precedes a slice, the slice, and what follows it. -/
theorem split_middle (b : Octets) (off len : Nat) :
    b = b.take off ++ slice b off len ++ b.drop (off + len) := by
  rw [slice, List.append_assoc, ← List.drop_drop, List.take_append_drop,
    List.take_append_drop]

theorem slice_middle (a b c : Octets) : slice (a ++ b ++ c) a.length b.length = b := by
  rw [slice, List.append_assoc, List.drop_left, List.take_left]

/-- Writing as many octets as the middle part has replaces it. -/
theorem overwrite_middle (a b c d : Octets) (h : d.length = b.length) :
    overwrite (a ++ b ++ c) a.length d = a ++ d ++ c := by
  rw [overwrite, List.append_assoc a b c, List.take_left, h, ← List.drop_drop, List.drop_left,
    List.drop_left]

/-- What precedes a write stays. -/
theorem take_overwrite (b : Octets) {off n : Nat} (d : Octets) (h : n ≤ off)
    (hb : off ≤ b.length) : (overwrite b off d).take n = b.take n := by
  rw [overwrite, List.append_assoc, List.take_append_of_le_length (by
    rw [List.length_take]; omega), List.take_take, Nat.min_eq_left h]

/-- What was written is read back. -/
theorem slice_overwrite (b : Octets) {off : Nat} (d : Octets) (hb : off ≤ b.length) :
    slice (overwrite b off d) off d.length = d := by
  have hlen : (b.take off).length = off := by rw [List.length_take, Nat.min_eq_left hb]
  have hmid := slice_middle (b.take off) d (b.drop (off + d.length))
  rwa [hlen] at hmid

/-- Writing the old octets back undoes a write. -/
theorem overwrite_back (b : Octets) {off len : Nat} (d : Octets) (hlen : d.length = len)
    (hb : off + len ≤ b.length) : overwrite (overwrite b off d) off (slice b off len) = b := by
  have htake : (b.take off).length = off := by rw [List.length_take]; omega
  have hslice : (slice b off len).length = d.length := by rw [length_slice]; omega
  have hmid := overwrite_middle (b.take off) d (b.drop (off + d.length)) _ hslice
  rw [htake] at hmid
  rw [show overwrite b off d = b.take off ++ d ++ b.drop (off + d.length) from rfl, hmid, hlen,
    ← split_middle]

end Slices

section Xor

@[simp] theorem length_xorOctets (a b : Octets) :
    (xorOctets a b).length = min a.length b.length := by
  simp only [xorOctets, List.length_zipWith]

theorem xor_cancel_right (x y : UInt8) : x ^^^ y ^^^ y = x := by
  apply UInt8.toBitVec_inj.mp
  simp only [UInt8.toBitVec_xor, BitVec.xor_assoc, BitVec.xor_self, BitVec.xor_zero]

/-- Exoring with one keystream twice changes nothing. -/
theorem xorOctets_cancel (d k : Octets) (h : d.length ≤ k.length) :
    xorOctets (xorOctets d k) k = d := by
  induction d generalizing k with
  | nil => rfl
  | cons x xs ih =>
      cases k with
      | nil => exact absurd h (by simp only [List.length_cons, List.length_nil]; omega)
      | cons y ys =>
          have hrest : xorOctets (xorOctets xs ys) ys = xs :=
            ih ys (by simpa only [List.length_cons, Nat.add_le_add_iff_right] using h)
          simp only [xorOctets] at hrest
          simp only [xorOctets, List.zipWith_cons_cons, xor_cancel_right, hrest]

/-- Exoring with one string is injective on strings no longer than it. -/
theorem xorOctets_inj {a b k : Octets} (ha : a.length ≤ k.length) (hb : b.length ≤ k.length)
    (h : xorOctets a k = xorOctets b k) : a = b := by
  rw [← xorOctets_cancel a k ha, h, xorOctets_cancel b k hb]

end Xor

section BigEndian

@[simp] theorem length_bigEndian (k n : Nat) : (bigEndian k n).length = k := by
  induction k with
  | zero => rfl
  | succ k ih => simp only [bigEndian, List.length_cons, ih]

/-- Decoding an encoded number gives its low `k` octets. -/
theorem ofBigEndian_bigEndian (k n : Nat) : ofBigEndian (bigEndian k n) = n % 256 ^ k := by
  induction k with
  | zero => simp only [bigEndian, ofBigEndian, Nat.pow_zero, Nat.mod_one]
  | succ k ih =>
      have hdigit : (UInt8.ofNat (n / 256 ^ k)).toNat = n / 256 ^ k % 256 := rfl
      rw [bigEndian, ofBigEndian, ih, length_bigEndian, hdigit, Nat.pow_succ, Nat.mod_mul,
        Nat.mul_comm, Nat.add_comm]

/-- An encoded number fits its octets. -/
theorem ofBigEndian_lt (b : Octets) : ofBigEndian b < 256 ^ b.length := by
  induction b with
  | nil => exact Nat.one_pos
  | cons x xs ih =>
      have hdigit : x.toNat + 1 ≤ 256 := x.toNat_lt
      have hscaled := Nat.mul_le_mul_right (256 ^ xs.length) hdigit
      rw [Nat.add_mul, Nat.one_mul] at hscaled
      rw [ofBigEndian, List.length_cons, Nat.pow_succ, Nat.mul_comm (256 ^ xs.length)]
      omega

/-- Two numbers below `256 ^ k` with one encoding are equal. -/
theorem bigEndian_inj {k n m : Nat} (hn : n < 256 ^ k) (hm : m < 256 ^ k)
    (h : bigEndian k n = bigEndian k m) : n = m := by
  rw [← Nat.mod_eq_of_lt hn, ← Nat.mod_eq_of_lt hm, ← ofBigEndian_bigEndian,
    ← ofBigEndian_bigEndian, h]

end BigEndian

end Lib

end CryptoOpal

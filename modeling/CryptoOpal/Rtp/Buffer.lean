import CryptoOpal.Srtp.Header

/-!
# Buffers

A `PBYTEArray`: reading and writing at an offset, and growing. Access outside
of the array ends with `fault`, and a longer array is filled up with zeros.

The frames of this directory are built front to back. So the lemmas are about
a buffer whose parts are known: what comes before the place of the access,
what is there, and what follows.

## Main definitions

* `setMinSize`: `SetMinSize`.
* `readAt`, `writeAt`: Access at an offset.

## Theorems

* `readAt_middle`, `writeAt_middle`: Access to the middle one of three parts.
* `writeAt_zeros`: Writing behind what has been written.
* `setMinSize_zeros`: A buffer that ends in zeros ends in more zeros.
-/

namespace CryptoOpal

namespace Rtp

open Lib (Octets slice overwrite)
open Srtp (Stop inside)

/-- `SetMinSize`: a longer buffer is filled up with zeros. -/
def setMinSize (array : Octets) (minSize : Nat) : Octets :=
  array ++ List.replicate (minSize - array.length) 0

/-- The `len` octets from `off` on. -/
def readAt (array : Octets) (off len : Nat) : Except Stop Octets := do
  inside array off len
  .ok (slice array off len)

/-- The buffer with `d` written from `off` on. -/
def writeAt (array : Octets) (off : Nat) (d : Octets) : Except Stop Octets := do
  inside array off d.length
  .ok (overwrite array off d)

section Access

variable {array : Octets} {off len : Nat} {d : Octets}

theorem inside_of_le (h : off + len ≤ array.length) : inside array off len = .ok () := by
  rw [inside, if_pos h]

theorem readAt_of_le (h : off + len ≤ array.length) :
    readAt array off len = .ok (slice array off len) := by
  rw [readAt, inside_of_le h]
  rfl

theorem writeAt_of_le (h : off + d.length ≤ array.length) :
    writeAt array off d = .ok (overwrite array off d) := by
  rw [writeAt, inside_of_le h]
  rfl

theorem readAt_fault (h : array.length < off + len) : readAt array off len = .error .fault := by
  rw [readAt, inside, if_neg (Nat.not_le.mpr h)]
  rfl

/-- Reading the middle one of three parts. -/
theorem readAt_middle (a b c : Octets) : readAt (a ++ b ++ c) a.length b.length = .ok b := by
  rw [readAt_of_le (by simp only [List.length_append]; omega), Lib.slice_middle]

/-- Reading what the middle one of three parts begins with. -/
theorem readAt_take (a b c : Octets) {n : Nat} (h : n ≤ b.length) :
    readAt (a ++ b ++ c) a.length n = .ok (b.take n) := by
  have hread := readAt_middle a (b.take n) (b.drop n ++ c)
  rwa [← List.append_assoc, List.append_assoc a, List.take_append_drop, List.length_take,
    Nat.min_eq_left h] at hread

/-- Writing over the middle one of three parts. -/
theorem writeAt_middle (a b c d : Octets) (h : d.length = b.length) :
    writeAt (a ++ b ++ c) a.length d = .ok (a ++ d ++ c) := by
  rw [writeAt_of_le (by simp only [List.length_append]; omega), Lib.overwrite_middle a b c d h]

/-- Writing to the zeros at the end of a buffer. -/
theorem writeAt_zeros (a d : Octets) {k : Nat} (h : d.length ≤ k) :
    writeAt (a ++ List.replicate k 0) a.length d =
      .ok (a ++ d ++ List.replicate (k - d.length) 0) := by
  have hwrite := writeAt_middle a (List.replicate d.length 0) (List.replicate (k - d.length) 0) d
    (by rw [List.length_replicate])
  rwa [List.append_assoc a, List.replicate_append_replicate, Nat.add_sub_cancel' h] at hwrite

/-- Writing a zero there. -/
theorem writeAt_zero (a : Octets) {k : Nat} (h : 0 < k) :
    writeAt (a ++ List.replicate k 0) a.length [0] = .ok (a ++ List.replicate k 0) := by
  have hsplit : List.replicate k (0 : UInt8) = [0] ++ List.replicate (k - 1) 0 := by
    rw [List.singleton_append, ← List.replicate_succ, Nat.sub_add_cancel h]
  rw [writeAt_zeros a [0] h, hsplit, List.length_singleton, List.append_assoc]

/-- A buffer that ends in zeros ends in more of them once it has grown. -/
theorem setMinSize_zeros (a : Octets) (k minSize : Nat) :
    setMinSize (a ++ List.replicate k 0) minSize =
      a ++ List.replicate (max k (minSize - a.length)) 0 := by
  rw [setMinSize, List.append_assoc, List.replicate_append_replicate, List.length_append,
    List.length_replicate]
  congr 2
  omega

end Access

end Rtp

end CryptoOpal

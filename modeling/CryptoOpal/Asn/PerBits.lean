import CryptoOpal.Asn.PerStream

/-!
# What the Primitives of a Stream Do

The place in a stream is a bit number, `position`, and `moveTo` goes to one. Here every
reading primitive is described by the bits that it reads and the place where it stops.
Nothing above this module looks at octets and offsets within octets.

A place is never behind the end of the array. That is what keeps the decoder inside it:
the primitives compare with the bits that are left, and stop there.

## Main definitions

* `position`, `moveTo`: The place in a stream.
* `bits`: The array as a memory of bits.

## Theorems

* `bind_ok`: A decoder after another.
* `singleBitDecode_moveTo`, `multiBitDecode_moveTo`, `blockDecode_moveTo`: What is read.
-/

namespace CryptoOpal

namespace Asn

open Lib (Memory octetsAt field bitAt)

section Bind

variable {α β : Type} {x : Decoder α} {f : α → Decoder β} {s s' : PerStream}

theorem bind_ok {a : α} (h : x s = .ok (a, s')) : (x >>= f) s = f a s' := by
  show Except.bind (x s) _ = _
  rw [h]
  rfl

end Bind

namespace PerStream

/-- The number of the bit that is next. -/
def position (s : PerStream) : Nat := 8 * s.byteOffset + (8 - s.bitOffset)

/-- The stream with bit `p` next. -/
def moveTo (s : PerStream) (p : Nat) : PerStream :=
  { s with byteOffset := p / 8, bitOffset := 8 - p % 8 }

/-- The array as a memory. -/
def bits (s : PerStream) : Memory := octetsAt s.theArray

/-- A bit of an octet is next. -/
structure Placed (s : PerStream) : Prop where
  one_le : 1 ≤ s.bitOffset
  le_eight : s.bitOffset ≤ 8

variable (s : PerStream) (p q : Nat)

@[simp] theorem position_moveTo : (s.moveTo p).position = p := by
  simp only [moveTo, position]
  omega

@[simp] theorem moveTo_moveTo : (s.moveTo p).moveTo q = s.moveTo q := rfl

@[simp] theorem size_moveTo : (s.moveTo p).size = s.size := rfl

@[simp] theorem bits_moveTo : (s.moveTo p).bits = s.bits := rfl

@[simp] theorem aligned_moveTo : (s.moveTo p).aligned = s.aligned := rfl

@[simp] theorem byteOffset_moveTo : (s.moveTo p).byteOffset = p / 8 := rfl

@[simp] theorem theArray_moveTo : (s.moveTo p).theArray = s.theArray := rfl

@[simp] theorem bitOffset_moveTo : (s.moveTo p).bitOffset = 8 - p % 8 := rfl

theorem placed_moveTo : (s.moveTo p).Placed := by
  constructor <;> simp only [moveTo] <;> omega

theorem nextBit_moveTo : (s.moveTo p).nextBit = s.moveTo (p + 1) := by
  rw [nextBit, bitOffset_moveTo]
  by_cases hlast : 8 - p % 8 = 1
  · rw [if_pos hlast]
    simp only [moveTo]
    congr 1 <;> omega
  · rw [if_neg hlast]
    simp only [moveTo]
    congr 1 <;> omega

variable {s}

/-- A place is given by its bit number. -/
theorem moveTo_position (h : s.Placed) : s.moveTo s.position = s := by
  have hlo := h.one_le
  have hhi := h.le_eight
  have hbyte : s.position / 8 = s.byteOffset := by rw [position]; omega
  have hbit : 8 - s.position % 8 = s.bitOffset := by rw [position]; omega
  rw [moveTo, hbyte, hbit]

/-- Streams with the same array, alignment and place are the same. -/
theorem eq_moveTo {t : PerStream} (ht : t.Placed) (harr : t.theArray = s.theArray)
    (hal : t.aligned = s.aligned) (hpos : t.position = p) : t = s.moveTo p := by
  rw [← moveTo_position ht, hpos]
  simp only [moveTo, harr, hal]

end PerStream

open PerStream

section Reading

variable {s : PerStream} {p : Nat}

theorem thisOctet_moveTo (h : p / 8 < s.size) :
    thisOctet (s.moveTo p) = .ok (s.bits (p / 8), s.moveTo p) := by
  have hin : (s.moveTo p).byteOffset < (s.moveTo p).theArray.length := h
  rw [thisOctet, dif_pos hin]
  congr 2
  rw [bits, octetsAt, List.getD_eq_getElem?_getD, List.getElem?_eq_getElem h, Option.getD_some]
  rfl

theorem nextOctet_moveTo (h : p / 8 < s.size) :
    nextOctet (s.moveTo p) = .ok (s.bits (p / 8), s.moveTo (p + 8)) := by
  rw [nextOctet, bind_ok (thisOctet_moveTo h)]
  show Except.ok (_, _) = _
  congr 2
  simp only [moveTo]
  congr 1 <;> omega

/-- Where a bit is next, it is read. At the end none is. -/
theorem singleBitDecode_moveTo (hp : p ≤ 8 * s.size) :
    singleBitDecode (s.moveTo p) =
      .ok (if p < 8 * s.size ∧ p / 8 ≤ maximumStringSize then (bitAt s.bits p, s.moveTo (p + 1))
        else (false, s.moveTo p)) := by
  have hleft : (s.moveTo p).signedBitsLeft = 8 * s.size - p := by
    simp only [signedBitsLeft, size_moveTo, byteOffset_moveTo, bitOffset_moveTo]
    omega
  rw [singleBitDecode, hleft, byteOffset_moveTo]
  by_cases hin : p < 8 * s.size ∧ p / 8 ≤ maximumStringSize
  · rw [if_neg (by omega), if_pos hin, bind_ok (thisOctet_moveTo (by omega))]
    show Except.ok (_, _) = _
    congr 2
    · rw [bitAt, bitOffset_moveTo]
      congr 1
      omega
    · exact nextBit_moveTo s p
  · rw [if_pos (by omega), if_neg hin]

/-- The loop over whole octets joins them to the value. -/
theorem wholeOctets_moveTo (k : Nat) (q value : Nat) (h : q + k ≤ s.size) :
    wholeOctets k value (s.moveTo (8 * q)) =
      .ok (value * 2 ^ (8 * k) + field s.bits (8 * q) (8 * k), s.moveTo (8 * (q + k))) := by
  induction k generalizing q value with
  | zero =>
      rw [wholeOctets, Nat.mul_zero, Nat.pow_zero, Nat.mul_one, field, Nat.add_zero, Nat.add_zero]
      rfl
  | succ k ih =>
      have hq : 8 * q / 8 = q := by omega
      rw [wholeOctets, bind_ok (nextOctet_moveTo (by omega)), hq,
        show 8 * q + 8 = 8 * (q + 1) by omega, ih (q + 1) _ (by omega),
        ← Nat.shiftLeft_add_eq_or_of_lt (s.bits q).toNat_lt, Nat.shiftLeft_eq,
        ← Lib.field_octet s.bits q, show 8 * (k + 1) = 8 + 8 * k by omega, Lib.field_add,
        show 8 * q + 8 = 8 * (q + 1) by omega, show q + 1 + k = q + (k + 1) by omega]
      congr 2
      ring

theorem lastBits_moveTo (n q value : Nat) (hn : n < 8) (h : n = 0 ∨ q < s.size) :
    lastBits value n (s.moveTo (8 * q)) =
      .ok (value * 2 ^ n + field s.bits (8 * q) n, s.moveTo (8 * q + n)) := by
  have hq : 8 * q / 8 = q := by omega
  rw [lastBits]
  by_cases hzero : n = 0
  · rw [if_pos hzero, hzero, Nat.pow_zero, Nat.mul_one, field, Nat.add_zero, Nat.add_zero]
    rfl
  · have hwithin := Lib.field_within s.bits q 0 n (by omega)
    have hoctet : (s.bits q).toNat >>> (8 - n) < 2 ^ n := by
      rw [Nat.shiftRight_eq_div_pow]
      apply Nat.div_lt_of_lt_mul
      rw [← Nat.pow_add, show 8 - n + n = 8 by omega]
      exact (s.bits q).toNat_lt
    rw [Nat.add_zero, Nat.sub_zero, Nat.mod_eq_of_lt hoctet] at hwithin
    rw [if_neg hzero, bind_ok (thisOctet_moveTo (by omega)), hq]
    show Except.ok (_, _) = _
    rw [hwithin, ← Nat.shiftLeft_add_eq_or_of_lt hoctet, Nat.shiftLeft_eq]
    congr 2
    simp only [moveTo]
    congr 1 <;> omega

theorem getBitsLeft_moveTo (hp : p ≤ 8 * s.size) :
    (s.moveTo p).getBitsLeft = (8 * s.size - p) % 2 ^ 32 := by
  simp only [getBitsLeft, signedBitsLeft, unsignedOf, size_moveTo, byteOffset_moveTo,
    bitOffset_moveTo]
  omega

/-- A field of bits is read when that many are left. -/
theorem multiBitDecode_moveTo (n : Nat) (hp : p ≤ 8 * s.size) :
    multiBitDecode n (s.moveTo p) =
      if n ≤ 32 ∧ n ≤ (8 * s.size - p) % 2 ^ 32 ∧ (n = 0 ∨ p / 8 ≤ maximumStringSize) then
        .ok (field s.bits p n, s.moveTo (p + n))
      else .error .refused := by
  have hleft := getBitsLeft_moveTo hp
  have hmod := Nat.mod_le (8 * s.size - p) (2 ^ 32)
  rw [multiBitDecode, hleft, byteOffset_moveTo, bitOffset_moveTo]
  by_cases hshort : n ≤ 32 ∧ n ≤ (8 * s.size - p) % 2 ^ 32
  swap
  · rw [if_pos (by omega), if_neg (by tauto)]
  rw [if_neg (by omega)]
  by_cases hzero : n = 0
  · rw [if_pos hzero, if_pos ⟨hshort.1, hshort.2, .inl hzero⟩, hzero, field, Nat.add_zero]
  rw [if_neg hzero]
  by_cases hfar : p / 8 ≤ maximumStringSize
  swap
  · rw [if_pos (by omega), if_neg (by tauto)]
  have hread : n ≤ 32 ∧ n ≤ (8 * s.size - p) % 2 ^ 32 ∧ (n = 0 ∨ p / 8 ≤ maximumStringSize) :=
    ⟨hshort.1, hshort.2, .inr hfar⟩
  rw [if_neg (by omega), if_pos hread]
  have hp' : p = 8 * (p / 8) + p % 8 := by omega
  by_cases hin : n < 8 - p % 8
  · -- Within an octet.
    have hwithin := Lib.field_within s.bits (p / 8) (p % 8) n (by omega)
    rw [← hp'] at hwithin
    rw [if_pos hin, bind_ok (thisOctet_moveTo (by omega)), hwithin,
      Nat.and_two_pow_sub_one_eq_mod]
    show Except.ok (_, _) = _
    congr 2
    simp only [moveTo]
    congr 1 <;> omega
  · -- The rest of an octet, whole octets, and the first bits of one more.
    obtain ⟨k, r, hkr, hr⟩ : ∃ k r, n - (8 - p % 8) = 8 * k + r ∧ r < 8 :=
      ⟨(n - (8 - p % 8)) / 8, (n - (8 - p % 8)) % 8, by omega, by omega⟩
    have hk : (n - (8 - p % 8)) / 8 = k := by omega
    have hr' : (n - (8 - p % 8)) % 8 = r := by omega
    have hwithin := Lib.field_within s.bits (p / 8) (p % 8) (8 - p % 8) (by omega)
    rw [← hp', Nat.sub_self, Nat.shiftRight_zero] at hwithin
    have hnext : nextOctet (s.moveTo p) = .ok (s.bits (p / 8), s.moveTo (p + 8)) :=
      nextOctet_moveTo (by omega)
    have hmod : (modify fun s : PerStream => { s with bitOffset := 8 } : Decoder Unit)
        (s.moveTo (p + 8)) = .ok ((), s.moveTo (8 * (p / 8 + 1))) := by
      show Except.ok (_, _) = _
      congr 2
      simp only [moveTo]
      congr 1 <;> omega
    rw [if_neg hin, bind_ok hnext, bind_ok hmod, hk, hr',
      bind_ok (wholeOctets_moveTo k (p / 8 + 1) _ (by omega)),
      lastBits_moveTo r _ _ hr (by omega), Nat.and_two_pow_sub_one_eq_mod, ← hwithin]
    have hsum : n = 8 - p % 8 + 8 * k + r := by omega
    rw [hsum, Lib.field_add, Lib.field_add, show p + (8 - p % 8) = 8 * (p / 8 + 1) by omega,
      show p + (8 - p % 8 + 8 * k) = 8 * (p / 8 + 1 + k) by omega,
      show p + (8 - p % 8 + 8 * k + r) = 8 * (p / 8 + 1 + k) + r by omega]

theorem isAtEnd_moveTo : isAtEnd (s.moveTo p) = .ok (decide (8 * s.size ≤ p), s.moveTo p) := by
  rw [isAtEnd, size_moveTo, byteOffset_moveTo]
  congr 2
  rw [decide_eq_decide]
  omega

theorem byteAlign_moveTo (hp : p ≤ 8 * s.size) :
    (s.moveTo p).byteAlign = s.moveTo ((p + 7) / 8 * 8) := by
  rw [byteAlign, size_moveTo, byteOffset_moveTo, bitOffset_moveTo]
  by_cases hzero : p % 8 = 0
  · rw [if_pos (by omega), show (p + 7) / 8 * 8 = p by omega]
  · rw [if_neg (by omega)]
    simp only [moveTo]
    congr 1 <;> omega

end Reading

end Asn

end CryptoOpal

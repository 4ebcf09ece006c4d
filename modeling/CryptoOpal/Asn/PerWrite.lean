import CryptoOpal.Asn.PerBits

/-!
# What the Encoder Writes

The encoder ors bits into octets that are clear, so all that matters is that the array
is clear from the place on, `Ready`. Then writing a number puts its bits behind what is
there, `Wrote`: whether it fits into an octet, fills one, or goes through several, is
not seen from outside.

Past `maximumStringSize` nothing is written any more. Even there the place never goes
back, `Onward`, and so an encoding that ends before that point was written in full.

## Main definitions

* `Ready`: The array is clear from the place on.
* `Wrote`: The bits of a number, behind what was there.
* `Extends`: What is written stays.
* `Onward`: The place does not go back.

## Theorems

* `wrote_putBits`: What `MultiBitEncode` does with its octets.
* `ready_multiBitEncode`, `ready_singleBitEncode`: The writing primitives, with room made.
* `onward_multiBitEncode`, `onward_singleBitEncode`: They go on.
-/

namespace CryptoOpal

namespace Asn

open Lib (Octets Memory octetsAt field bitAt bitOf)

section Arrays

variable {l : Octets} {k : Nat}

theorem octetsAt_modify (h : k < l.length) (f : UInt8 → UInt8) :
    octetsAt (l.modify k f) = Function.update (octetsAt l) k (f (octetsAt l k)) := by
  funext i
  by_cases hi : i = k
  · subst hi
    rw [Function.update_self, octetsAt, octetsAt, List.getD_eq_getElem?_getD,
      List.getElem?_modify_eq, List.getElem?_eq_getElem h, List.getD_eq_getElem?_getD,
      List.getElem?_eq_getElem h]
    rfl
  · rw [Function.update_of_ne hi, octetsAt, octetsAt, List.getD_eq_getElem?_getD,
      List.getElem?_modify_ne _ _ (Ne.symm hi), List.getD_eq_getElem?_getD]

theorem octetsAt_set (h : k < l.length) (b : UInt8) :
    octetsAt (l.set k b) = Function.update (octetsAt l) k b := by
  funext i
  by_cases hi : i = k
  · subst hi
    rw [Function.update_self, octetsAt, List.getD_eq_getElem?_getD, List.getElem?_set_self h,
      Option.getD_some]
  · rw [Function.update_of_ne hi, octetsAt, octetsAt, List.getD_eq_getElem?_getD,
      List.getElem?_set_ne (Ne.symm hi), List.getD_eq_getElem?_getD]

theorem octetsAt_append_zeros (n : Nat) :
    octetsAt (l ++ List.replicate n 0) = octetsAt l := by
  funext i
  rw [octetsAt, octetsAt]
  by_cases hi : i < l.length
  · rw [List.getD_append _ _ _ _ hi]
  · rw [List.getD_append_right _ _ _ _ (by omega), List.getD_eq_default l _ (by omega),
      List.getD_eq_getElem?_getD, List.getElem?_replicate]
    by_cases hn : i - l.length < n
    · rw [if_pos hn, Option.getD_some]
    · rw [if_neg hn, Option.getD_none]

theorem bitOf_or_ofNat (b : UInt8) (v j : Nat) (hj : j < 8) :
    bitOf (b ||| UInt8.ofNat v) j = (bitOf b j || v.testBit j) := by
  rw [Lib.bitOf_eq_testBit, Lib.bitOf_eq_testBit, UInt8.toNat_or, Nat.testBit_or]
  show (_ || (v % 2 ^ 8).testBit j) = _
  rw [Nat.testBit_mod_two_pow, decide_eq_true hj, Bool.true_and]

theorem bitOf_ofNat (v j : Nat) (hj : j < 8) : bitOf (UInt8.ofNat v) j = v.testBit j := by
  rw [Lib.bitOf_eq_testBit]
  show (v % 2 ^ 8).testBit j = _
  rw [Nat.testBit_mod_two_pow, decide_eq_true hj, Bool.true_and]

end Arrays

namespace PerStream

/-- The array is clear from the place on, which is not behind its end. -/
structure Ready (s : PerStream) : Prop extends s.Placed where
  within : s.position ≤ 8 * s.size
  clear : ∀ i, s.position ≤ i → bitAt s.bits i = false

/-- `t` is `s` with the `n` low bits of a number written behind its place. -/
structure Wrote (s t : PerStream) (value n : Nat) : Prop where
  placed : t.Placed
  size : t.size = s.size
  aligned : t.aligned = s.aligned
  position : t.position = s.position + n
  bits : ∀ i, bitAt t.bits i =
    if s.position ≤ i ∧ i < s.position + n then value.testBit (n - 1 - (i - s.position))
    else bitAt s.bits i

variable {s t u : PerStream} {value n a b : Nat}

theorem Wrote.refl (h : s.Placed) : Wrote s s value 0 where
  placed := h
  size := rfl
  aligned := rfl
  position := rfl
  bits := fun i => by rw [if_neg (by omega)]

/-- The high bits of a number, and then its low bits. -/
theorem Wrote.trans (h : Wrote s t (value >>> b) a) (h' : Wrote t u value b) :
    Wrote s u value (a + b) where
  placed := h'.placed
  size := h'.size.trans h.size
  aligned := h'.aligned.trans h.aligned
  position := by rw [h'.position, h.position, Nat.add_assoc]
  bits := by
    intro i
    rw [h'.bits, h.bits, h.position]
    by_cases hlow : s.position + a ≤ i ∧ i < s.position + a + b
    · rw [if_pos hlow, if_pos (by omega)]
      congr 1
      omega
    rw [if_neg hlow]
    by_cases hhigh : s.position ≤ i ∧ i < s.position + a
    · rw [if_pos hhigh, if_pos (by omega), Nat.testBit_shiftRight]
      congr 1
      omega
    · rw [if_neg hhigh, if_neg (by omega)]

theorem Wrote.clear (h : Wrote s t value n)
    (hclear : ∀ i, s.position ≤ i → bitAt s.bits i = false) (i : Nat) (hi : t.position ≤ i) :
    bitAt t.bits i = false := by
  rw [h.position] at hi
  rw [h.bits, if_neg (by omega), hclear i (by omega)]

theorem Wrote.ready (h : Wrote s t value n) (hs : s.Ready) (hroom : s.position + n ≤ 8 * s.size) :
    t.Ready where
  one_le := h.placed.one_le
  le_eight := h.placed.le_eight
  within := by rw [h.position, h.size]; exact hroom
  clear := h.clear hs.clear

/-- The field that was written. -/
theorem Wrote.field (h : Wrote s t value n) (hv : value < 2 ^ n) :
    Lib.field t.bits s.position n = value := by
  rw [Lib.field_of_testBit (v := value), Nat.mod_eq_of_lt hv]
  intro i hi
  rw [h.bits, if_pos (by omega), show s.position + i - s.position = i by omega]

theorem bits_orOctet {k : Nat} (h : k < s.size) (v : Nat) :
    (s.orOctet k v).bits = Function.update s.bits k (s.bits k ||| UInt8.ofNat v) :=
  octetsAt_modify h _

@[simp] theorem size_orOctet (k v : Nat) : (s.orOctet k v).size = s.size :=
  List.length_modify _ _ _

theorem bitAt_orOctet {k : Nat} (h : k < s.size) (v i : Nat) :
    bitAt (s.orOctet k v).bits i =
      (bitAt s.bits i || decide (i / 8 = k) && v.testBit (7 - i % 8)) := by
  rw [bits_orOctet h]
  by_cases hi : i / 8 = k
  · rw [Lib.bitAt_update _ hi, bitOf_or_ofNat _ _ _ (by omega), decide_eq_true hi,
      Bool.true_and, bitAt, hi]
  · rw [Lib.bitAt_update_ne _ hi, decide_eq_false hi, Bool.false_and, Bool.or_false]

/-- Oring a number into the octet that is next, behind its used bits. -/
theorem wrote_orOctet (hs : s.Placed) (hin : s.byteOffset < s.size)
    (hclear : ∀ i, s.position ≤ i → bitAt s.bits i = false) (hn : n ≤ s.bitOffset)
    (hv : value < 2 ^ n) :
    Wrote s ((s.orOctet s.byteOffset (value <<< (s.bitOffset - n))).moveTo (s.position + n))
      value n where
  placed := placed_moveTo _ _
  size := by rw [size_moveTo, size_orOctet]
  aligned := rfl
  position := position_moveTo _ _
  bits := by
    intro i
    have hlo := hs.one_le
    have hhi := hs.le_eight
    have hpos : s.position = 8 * s.byteOffset + (8 - s.bitOffset) := rfl
    rw [bits_moveTo, bitAt_orOctet hin, Nat.testBit_shiftLeft]
    by_cases hi : i / 8 = s.byteOffset
    swap
    · rw [decide_eq_false hi, if_neg (by omega), Bool.false_and, Bool.or_false]
    rw [decide_eq_true hi, Bool.true_and]
    by_cases hbefore : i < s.position
    · -- The bits of the number do not reach the used ones.
      have hhigh : value.testBit (7 - i % 8 - (s.bitOffset - n)) = false :=
        Nat.testBit_lt_two_pow (Nat.lt_of_lt_of_le hv (Nat.pow_le_pow_right (by decide) (by omega)))
      rw [if_neg (by omega), hhigh, Bool.and_false, Bool.or_false]
    rw [hclear i (by omega), Bool.false_or]
    by_cases hnew : i < s.position + n
    · rw [if_pos (by omega), decide_eq_true (by omega), Bool.true_and]
      congr 1
      omega
    · rw [if_neg (by omega), decide_eq_false (by omega), Bool.false_and]

theorem wrote_inOctet (hs : s.Placed) (hin : s.byteOffset < s.size)
    (hclear : ∀ i, s.position ≤ i → bitAt s.bits i = false) (hn : n < s.bitOffset)
    (hv : value < 2 ^ n) :
    Wrote s
      { s.orOctet s.byteOffset (value <<< (s.bitOffset - n)) with bitOffset := s.bitOffset - n }
      value n := by
  have hlo := hs.one_le
  have hhi := hs.le_eight
  have hwrote := wrote_orOctet hs hin hclear (Nat.le_of_lt hn) hv
  rwa [← eq_moveTo (s := s.orOctet s.byteOffset (value <<< (s.bitOffset - n)))
    (t := { s.orOctet s.byteOffset (value <<< (s.bitOffset - n)) with
      bitOffset := s.bitOffset - n }) (s.position + n)
    ⟨by show 1 ≤ s.bitOffset - n; omega, by show s.bitOffset - n ≤ 8; omega⟩ rfl rfl
    (by simp only [position, orOctet]; omega)] at hwrote

theorem wrote_putFirst (hs : s.Placed) (hin : s.byteOffset < s.size)
    (hclear : ∀ i, s.position ≤ i → bitAt s.bits i = false) (hn : s.bitOffset ≤ n)
    (hv : value < 2 ^ n) :
    Wrote s (s.putFirst value n) (value >>> (n - s.bitOffset)) s.bitOffset := by
  have hlo := hs.one_le
  have hhi := hs.le_eight
  have hsmall : value >>> (n - s.bitOffset) < 2 ^ s.bitOffset := by
    rw [Nat.shiftRight_eq_div_pow]
    apply Nat.div_lt_of_lt_mul
    rwa [← Nat.pow_add, show n - s.bitOffset + s.bitOffset = n by omega]
  have hwrote := wrote_orOctet hs hin hclear (Nat.le_refl s.bitOffset) hsmall
  rw [Nat.sub_self, Nat.shiftLeft_zero] at hwrote
  rwa [← eq_moveTo (s := s.orOctet s.byteOffset (value >>> (n - s.bitOffset)))
    (t := s.putFirst value n) (s.position + s.bitOffset)
    ⟨by show 1 ≤ 8; omega, by show 8 ≤ 8; omega⟩ rfl rfl
    (by simp only [position, putFirst, orOctet]; omega)] at hwrote

theorem wrote_setOctet (hs : s.bitOffset = 8) (hin : s.byteOffset < s.size) (value : Nat) :
    Wrote s
      { s with
        theArray := s.theArray.set s.byteOffset (UInt8.ofNat value)
        byteOffset := s.byteOffset + 1 }
      value 8 where
  placed := ⟨by show 1 ≤ s.bitOffset; omega, by show s.bitOffset ≤ 8; omega⟩
  size := List.length_set
  aligned := rfl
  position := by simp only [position]; omega
  bits := by
    intro i
    have hpos : s.position = 8 * s.byteOffset := by rw [position]; omega
    rw [bits, octetsAt_set hin]
    by_cases hi : i / 8 = s.byteOffset
    · rw [Lib.bitAt_update _ hi, if_pos (by omega), bitOf_ofNat _ _ (by omega)]
      congr 1
      omega
    · rw [Lib.bitAt_update_ne _ hi, if_neg (by omega)]
      rfl

theorem wrote_putOctets (value rest k : Nat) (hs : s.bitOffset = 8)
    (hroom : s.byteOffset + k ≤ s.size) :
    Wrote s (putOctets value rest k s) (value >>> rest) (8 * k) ∧
      (putOctets value rest k s).bitOffset = 8 := by
  induction k generalizing s with
  | zero => exact ⟨Wrote.refl ⟨by omega, by omega⟩, hs⟩
  | succ k ih =>
      have hfirst := wrote_setOctet hs (by omega) (value >>> (8 * k + rest))
      have hrest := @ih { s with
          theArray := s.theArray.set s.byteOffset (UInt8.ofNat (value >>> (8 * k + rest)))
          byteOffset := s.byteOffset + 1 } hs (by rw [hfirst.size]; show _ + 1 + k ≤ _; omega)
      have hvalue : value >>> (8 * k + rest) = value >>> rest >>> (8 * k) := by
        rw [Nat.add_comm, Nat.shiftRight_add]
      rw [putOctets]
      refine ⟨?_, hrest.2⟩
      rw [show 8 * (k + 1) = 8 + 8 * k by omega]
      rw [hvalue] at hfirst hrest ⊢
      exact hfirst.trans hrest.1

theorem wrote_putLast (hs : s.bitOffset = 8) (hn : n < 8)
    (hclear : ∀ i, s.position ≤ i → bitAt s.bits i = false)
    (hroom : s.position + n ≤ 8 * s.size) :
    Wrote s (s.putLast value n) (value % 2 ^ n) n := by
  rw [putLast]
  by_cases hzero : n = 0
  · rw [if_pos hzero, hzero]
    exact Wrote.refl ⟨by omega, by omega⟩
  have hpos : s.position = 8 * s.byteOffset := by rw [position]; omega
  have hwrote := wrote_inOctet (n := n) ⟨by omega, by omega⟩ (by omega) hclear (by omega)
    (Nat.mod_lt value (Nat.two_pow_pos n))
  rw [hs] at hwrote
  rwa [if_neg hzero, Nat.and_two_pow_sub_one_eq_mod]

/-- Only the low bits of a number are written. -/
theorem Wrote.of_mod (h : Wrote s t (value % 2 ^ n) n) : Wrote s t value n where
  placed := h.placed
  size := h.size
  aligned := h.aligned
  position := h.position
  bits := by
    intro i
    rw [h.bits]
    by_cases hi : s.position ≤ i ∧ i < s.position + n
    · rw [if_pos hi, if_pos hi, Nat.testBit_mod_two_pow, decide_eq_true (by omega), Bool.true_and]
    · rw [if_neg hi, if_neg hi]

theorem wrote_putBits (hs : s.Placed) (hclear : ∀ i, s.position ≤ i → bitAt s.bits i = false)
    (hfar : s.byteOffset ≤ maximumStringSize) (hn : 0 < n)
    (hroom : s.position + n ≤ 8 * s.size) (hv : value < 2 ^ n) :
    Wrote s (s.putBits value n) value n := by
  have hlo := hs.one_le
  have hhi := hs.le_eight
  have hpos : s.position = 8 * s.byteOffset + (8 - s.bitOffset) := rfl
  have hin : s.byteOffset < s.size := by omega
  rw [putBits, if_neg (by omega)]
  by_cases hsmall : n < s.bitOffset
  · rw [if_pos hsmall]
    exact wrote_inOctet hs hin hclear hsmall hv
  rw [if_neg hsmall]
  obtain ⟨k, r, hkr, hr⟩ : ∃ k r, n - s.bitOffset = r + 8 * k ∧ r < 8 :=
    ⟨(n - s.bitOffset) / 8, (n - s.bitOffset) % 8, by omega, by omega⟩
  rw [show (n - s.bitOffset) / 8 = k by omega, show (n - s.bitOffset) % 8 = r by omega]
  -- The octet that is next is filled, then come whole octets, then the first bits of one.
  have hfirst := wrote_putFirst hs hin hclear (by omega : s.bitOffset ≤ n) hv
  have hfirstPos : (s.putFirst value n).position = s.position + s.bitOffset := hfirst.position
  have hoctets := wrote_putOctets (s := s.putFirst value n) value r k rfl (by
    rw [hfirst.size]; show s.byteOffset + 1 + k ≤ s.size; omega)
  have hlast := @wrote_putLast _ value r hoctets.2 hr
    (hoctets.1.clear (hfirst.clear hclear)) (by
      rw [hoctets.1.position, hfirstPos, hoctets.1.size, hfirst.size]; omega)
  rw [hkr, Nat.shiftRight_add] at hfirst
  have hall := (hfirst.trans hoctets.1).trans hlast.of_mod
  rwa [show s.bitOffset + 8 * k + r = n by omega] at hall

@[simp] theorem bits_setSize {m : Nat} (h : s.size ≤ m) : (s.setSize m).bits = s.bits := by
  rw [bits, setSize]
  show octetsAt (s.theArray.take m ++ _) = _
  rw [List.take_of_length_le h, octetsAt_append_zeros]
  rfl

theorem size_setSize {m : Nat} (h : s.size ≤ m) : (s.setSize m).size = m := by
  show (s.theArray.take m ++ List.replicate (m - s.size) 0).length = m
  rw [List.length_append, List.take_of_length_le h, List.length_replicate]
  show s.size + _ = m
  omega

/-- `t` keeps what `s` holds, and goes on. -/
structure Extends (s t : PerStream) : Prop where
  le : s.position ≤ t.position
  aligned : t.aligned = s.aligned
  bits : ∀ i < s.position, bitAt t.bits i = bitAt s.bits i

/-- The place does not go back. -/
structure Onward (s t : PerStream) : Prop where
  placed : t.Placed
  le : s.position ≤ t.position
  aligned : t.aligned = s.aligned

theorem Extends.trans (h : Extends s t) (h' : Extends t u) : Extends s u where
  le := Nat.le_trans h.le h'.le
  aligned := h'.aligned.trans h.aligned
  bits := fun i hi => (h'.bits i (Nat.lt_of_lt_of_le hi h.le)).trans (h.bits i hi)

theorem Extends.refl (s : PerStream) : Extends s s := ⟨Nat.le_refl _, rfl, fun _ _ => rfl⟩

theorem Onward.trans (h : Onward s t) (h' : Onward t u) : Onward s u where
  placed := h'.placed
  le := Nat.le_trans h.le h'.le
  aligned := h'.aligned.trans h.aligned

theorem Onward.refl (h : s.Placed) : Onward s s := ⟨h, Nat.le_refl _, rfl⟩

/-- Where the place goes on, so does the octet. -/
theorem Onward.byteOffset_le (h : Onward s t) (hs : s.Placed) : s.byteOffset ≤ t.byteOffset := by
  have hle := h.le
  have hlo := hs.one_le
  have hhi := h.placed.le_eight
  have hlo' := h.placed.one_le
  simp only [position] at hle
  omega

theorem Wrote.extends (h : Wrote s t value n) : Extends s t where
  le := by rw [h.position]; omega
  aligned := h.aligned
  bits := fun i hi => by rw [h.bits, if_neg (by omega)]

section Onward

theorem onward_of_moved (hs : s.Placed) {t : PerStream} (hbyte : s.byteOffset < t.byteOffset)
    (ht : t.Placed) (hal : t.aligned = s.aligned) : Onward s t where
  placed := ht
  le := by
    have hlo := hs.one_le
    have hhi := ht.le_eight
    simp only [position]
    omega
  aligned := hal

theorem places_putOctets (value rest k : Nat) (s : PerStream) :
    (putOctets value rest k s).byteOffset = s.byteOffset + k ∧
      (putOctets value rest k s).bitOffset = s.bitOffset ∧
        (putOctets value rest k s).aligned = s.aligned := by
  induction k generalizing s with
  | zero => exact ⟨rfl, rfl, rfl⟩
  | succ k ih =>
      obtain ⟨hbyte, hbit, hal⟩ := ih { s with
          theArray := s.theArray.set s.byteOffset (UInt8.ofNat (value >>> (8 * k + rest)))
          byteOffset := s.byteOffset + 1 }
      refine ⟨?_, hbit, hal⟩
      rw [putOctets, hbyte]
      show s.byteOffset + 1 + k = s.byteOffset + (k + 1)
      omega

theorem onward_putBits (value n : Nat) (hs : s.Placed) : Onward s (s.putBits value n) := by
  have hlo := hs.one_le
  have hhi := hs.le_eight
  rw [putBits]
  by_cases hfar : maximumStringSize < s.byteOffset
  · rw [if_pos hfar]
    exact Onward.refl hs
  rw [if_neg hfar]
  by_cases hsmall : n < s.bitOffset
  · rw [if_pos hsmall]
    refine ⟨⟨?_, ?_⟩, ?_, rfl⟩ <;> simp only [position, orOctet] <;> omega
  rw [if_neg hsmall]
  obtain ⟨hbyte, hbit, hal⟩ := places_putOctets value ((n - s.bitOffset) % 8)
    ((n - s.bitOffset) / 8) (s.putFirst value n)
  have hfirst : (s.putFirst value n).byteOffset = s.byteOffset + 1 := rfl
  have hfirstBit : (s.putFirst value n).bitOffset = 8 := rfl
  rw [hfirst] at hbyte
  rw [hfirstBit] at hbit
  rw [putLast]
  by_cases hzero : (n - s.bitOffset) % 8 = 0
  · rw [if_pos hzero]
    exact onward_of_moved hs (by omega) ⟨by omega, by omega⟩ hal
  · rw [if_neg hzero]
    refine onward_of_moved hs ?_ ⟨?_, ?_⟩ hal <;> simp only [orOctet] <;> omega

theorem onward_makeRoom (hs : s.Placed) : Onward s (s.makeRoom n) := by
  rw [makeRoom]
  by_cases hsize : s.size ≤ s.byteOffset + n / 8 + 1
  · rw [if_pos hsize]
    exact ⟨⟨hs.one_le, hs.le_eight⟩, Nat.le_refl _, rfl⟩
  · rw [if_neg hsize]
    exact Onward.refl hs

theorem onward_multiBitEncode (value n : Nat) (hs : s.Placed) :
    Onward s (s.multiBitEncode value n) := by
  rw [multiBitEncode]
  by_cases hzero : n = 0
  · rw [if_pos hzero]
    exact Onward.refl hs
  · rw [if_neg hzero]
    have hroom := onward_makeRoom (n := n) hs
    exact hroom.trans (onward_putBits _ n hroom.placed)

theorem position_nextBit (hs : s.Placed) :
    s.nextBit.position = s.position + 1 ∧ s.nextBit.Placed := by
  have hmove := nextBit_moveTo s s.position
  rw [moveTo_position hs] at hmove
  rw [hmove]
  exact ⟨position_moveTo _ _, placed_moveTo _ _⟩

theorem onward_nextBit (hs : s.Placed) : Onward s s.nextBit where
  placed := (position_nextBit hs).2
  le := by rw [(position_nextBit hs).1]; omega
  aligned := by
    have hmove := nextBit_moveTo s s.position
    rw [moveTo_position hs] at hmove
    rw [hmove, aligned_moveTo]

theorem onward_putBit (b : Bool) (hs : s.Placed) : Onward s (s.putBit b) := by
  cases b with
  | false => exact onward_nextBit hs
  | true =>
      have hor : (s.orOctet s.byteOffset (2 ^ (s.bitOffset - 1))).Placed :=
        ⟨hs.one_le, hs.le_eight⟩
      have hnext := onward_nextBit hor
      exact ⟨hnext.placed, hnext.le, hnext.aligned⟩

theorem onward_singleBitEncode (b : Bool) (hs : s.Placed) :
    Onward s (s.singleBitEncode b) := by
  rw [singleBitEncode]
  by_cases hfar : maximumStringSize < s.byteOffset
  · rw [if_pos hfar]
    exact Onward.refl hs
  rw [if_neg hfar]
  by_cases hsize : s.size ≤ s.byteOffset
  · rw [if_pos hsize]
    have hgrown : (s.setSize (s.byteOffset + 10)).Placed := ⟨hs.one_le, hs.le_eight⟩
    have hput := onward_putBit b hgrown
    exact ⟨hput.placed, hput.le, hput.aligned⟩
  · rw [if_neg hsize]
    exact onward_putBit b hs

theorem onward_byteAlign (hs : s.Placed) : Onward s s.byteAlign := by
  have hlo := hs.one_le
  have hhi := hs.le_eight
  rw [byteAlign]
  by_cases hskip : s.size < s.byteOffset ∨ s.bitOffset = 8
  · rw [if_pos hskip]
    exact Onward.refl hs
  · rw [if_neg hskip]
    refine ⟨⟨?_, ?_⟩, ?_, rfl⟩ <;> simp only [position] <;> omega

end Onward

section Writing

theorem ready_setSize {m : Nat} (hs : s.Ready) (h : s.size ≤ m) : (s.setSize m).Ready where
  one_le := hs.one_le
  le_eight := hs.le_eight
  within := by
    have hin := hs.within
    rw [size_setSize h]
    show s.position ≤ 8 * m
    omega
  clear := by
    rw [bits_setSize h]
    exact hs.clear

/-- Room is made for the bits, and the octet behind them. -/
theorem makeRoom_spec (hs : s.Ready) (n : Nat) (hn : n ≤ 32) :
    (s.makeRoom n).Ready ∧ (s.makeRoom n).bits = s.bits ∧
      (s.makeRoom n).position = s.position ∧ (s.makeRoom n).byteOffset = s.byteOffset ∧
        s.position + n ≤ 8 * (s.makeRoom n).size := by
  have hlo := hs.one_le
  have hhi := hs.le_eight
  have hpos : s.position = 8 * s.byteOffset + (8 - s.bitOffset) := rfl
  rw [makeRoom]
  by_cases hsize : s.size ≤ s.byteOffset + n / 8 + 1
  · have hle : s.size ≤ s.byteOffset + 10 := by omega
    rw [if_pos hsize]
    refine ⟨ready_setSize hs hle, bits_setSize hle, rfl, rfl, ?_⟩
    rw [size_setSize hle]
    omega
  · rw [if_neg hsize]
    exact ⟨hs, rfl, rfl, rfl, by omega⟩

/-- `MultiBitEncode` puts a number behind what is there. -/
theorem ready_multiBitEncode (hs : s.Ready) (hfar : s.byteOffset ≤ maximumStringSize)
    (hn : n ≤ 32) (hv : value < 2 ^ n) :
    (s.multiBitEncode value n).Ready ∧ Extends s (s.multiBitEncode value n) ∧
      (s.multiBitEncode value n).position = s.position + n ∧
        Lib.field (s.multiBitEncode value n).bits s.position n = value := by
  rw [multiBitEncode]
  by_cases hzero : n = 0
  · rw [if_pos hzero]
    subst hzero
    exact ⟨hs, Extends.refl s, rfl, by rw [field]; omega⟩
  have hvalue : (if n < 32 then value &&& (2 ^ n - 1) else value) = value := by
    by_cases hwide : n < 32
    · rw [if_pos hwide, Nat.and_two_pow_sub_one_eq_mod, Nat.mod_eq_of_lt hv]
    · rw [if_neg hwide]
  obtain ⟨hready, hbits, hposition, hbyte, hroom⟩ := makeRoom_spec hs n hn
  have hwrote := @wrote_putBits (s.makeRoom n) value n hready.toPlaced
    hready.clear (by rw [hbyte]; exact hfar) (by omega) (by rw [hposition]; exact hroom) hv
  have hext := hwrote.extends
  have hal := (onward_makeRoom (n := n) hs.toPlaced).aligned
  rw [if_neg hzero, hvalue]
  refine ⟨hwrote.ready hready (by rw [hposition]; exact hroom), ⟨?_, ?_, ?_⟩, ?_, ?_⟩
  · rw [← hposition]
    exact hext.le
  · rw [hext.aligned, hal]
  · intro i hi
    rw [hext.bits i (by rw [hposition]; exact hi), hbits]
  · rw [hwrote.position, hposition]
  · rw [← hposition]
    exact hwrote.field hv

theorem wrote_putBit (hs : s.Ready) (hin : s.byteOffset < s.size) (b : Bool) :
    Wrote s (s.putBit b) b.toNat 1 := by
  have hlo := hs.one_le
  cases b with
  | false =>
      refine ⟨(position_nextBit hs.toPlaced).2, ?_, (onward_nextBit hs.toPlaced).aligned,
        (position_nextBit hs.toPlaced).1, ?_⟩
      · show s.nextBit.size = _
        rw [nextBit]
        by_cases hlast : s.bitOffset = 1
        · rw [if_pos hlast]; rfl
        · rw [if_neg hlast]; rfl
      · intro i
        have hsame : (s.putBit false).bits = s.bits := by
          show s.nextBit.bits = _
          rw [nextBit]
          by_cases hlast : s.bitOffset = 1
          · rw [if_pos hlast]; rfl
          · rw [if_neg hlast]; rfl
        rw [hsame]
        by_cases hi : s.position ≤ i ∧ i < s.position + 1
        · rw [if_pos hi, hs.clear i hi.1, Bool.toNat_false, Nat.zero_testBit]
        · rw [if_neg hi]
  | true =>
      have hwrote := @wrote_orOctet _ 1 1 hs.toPlaced hin hs.clear hlo (by decide)
      rw [Nat.one_shiftLeft] at hwrote
      have hor : (s.orOctet s.byteOffset (2 ^ (s.bitOffset - 1))).Placed :=
        ⟨hs.one_le, hs.le_eight⟩
      have hmove := nextBit_moveTo (s.orOctet s.byteOffset (2 ^ (s.bitOffset - 1))) s.position
      have hback := moveTo_position hor
      rw [show (s.orOctet s.byteOffset (2 ^ (s.bitOffset - 1))).position = s.position from rfl]
        at hback
      rw [hback] at hmove
      rw [← hmove] at hwrote
      exact hwrote

/-- `SingleBitEncode` puts a bit behind what is there. -/
theorem ready_singleBitEncode (hs : s.Ready) (hfar : s.byteOffset ≤ maximumStringSize)
    (b : Bool) :
    (s.singleBitEncode b).Ready ∧ Extends s (s.singleBitEncode b) ∧
      (s.singleBitEncode b).position = s.position + 1 ∧
        Lib.field (s.singleBitEncode b).bits s.position 1 = b.toNat := by
  have hlo := hs.one_le
  have hhi := hs.le_eight
  have hpos : s.position = 8 * s.byteOffset + (8 - s.bitOffset) := rfl
  have hb : b.toNat < 2 ^ 1 := Bool.toNat_lt b
  rw [singleBitEncode, if_neg (by omega)]
  by_cases hsize : s.size ≤ s.byteOffset
  · have hle : s.size ≤ s.byteOffset + 10 := by omega
    have hready := ready_setSize hs hle
    have hwrote := wrote_putBit hready
      (by rw [size_setSize hle]; show s.byteOffset < _; omega) b
    have hext := hwrote.extends
    rw [if_pos hsize]
    refine ⟨hwrote.ready hready ?_, ⟨hext.le, hext.aligned, ?_⟩, hwrote.position, hwrote.field hb⟩
    · rw [size_setSize hle]
      show s.position + 1 ≤ _
      omega
    · intro i hi
      rw [hext.bits i hi, bits_setSize hle]
  · have hwrote := wrote_putBit hs (by omega) b
    rw [if_neg hsize]
    exact ⟨hwrote.ready hs (by omega), hwrote.extends, hwrote.position, hwrote.field hb⟩

/-- `ByteAlign` goes to an octet boundary and leaves the bits in between clear. -/
theorem ready_byteAlign (hs : s.Ready) :
    s.byteAlign.Ready ∧ Extends s s.byteAlign ∧
      s.byteAlign = s.moveTo ((s.position + 7) / 8 * 8) := by
  have hmove := byteAlign_moveTo (s := s) hs.within
  rw [moveTo_position hs.toPlaced] at hmove
  rw [hmove]
  have hin := hs.within
  refine ⟨⟨placed_moveTo _ _, ?_, ?_⟩, ⟨?_, rfl, fun _ _ => rfl⟩, rfl⟩
  · rw [position_moveTo, size_moveTo]
    omega
  · intro i hi
    rw [position_moveTo] at hi
    exact hs.clear i (by omega)
  · rw [position_moveTo]
    omega

end Writing

end PerStream

end Asn

end CryptoOpal

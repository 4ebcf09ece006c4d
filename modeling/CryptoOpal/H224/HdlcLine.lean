import CryptoOpal.H224.Q922
import Mathlib.Data.List.GetD

/-!
# Bits on the Line

What `encodeHdlc` writes, as a list of bits. A writer that has written some bits
is known by them (`Writer.Holds`), up to what the buffer held before in the octet
that is begun: the opening flags are written over an octet that is there already,
and everything else into octets that were cleared.

## Main definitions

* `BitPosition.ofNat`: The place of a bit by its number.
* `Writer.Holds`: What a writer has written.
* `stuff`: The bits of data with the zeros stuffed in.
* `Q922Frame.line`: All bits of a frame.

## Theorems

* `holds_foldl`: Bits are written one after another.
* `foldl_encodeEscaped`: Data is written with zeros stuffed in.
* `holds_openingFlags`: The opening flags.
* `encodeHdlc_eq`: A frame on the line.
-/

namespace CryptoOpal

namespace H224

open Lib (Octets Memory bitOf bitAt orBit lowFirst)

/-- The place of bit `n`. -/
def BitPosition.ofNat (n : Nat) : BitPosition := ⟨n / 8, ⟨7 - n % 8, by omega⟩⟩

theorem BitPosition.next_ofNat (n : Nat) : (ofNat n).next = ofNat (n + 1) := by
  rw [next, ofNat]
  by_cases hlast : n % 8 = 7
  · rw [if_pos (Fin.ext (by simp only [hlast]; rfl))]
    simp only [ofNat, mk.injEq, Fin.ext_iff]
    refine ⟨by omega, ?_⟩
    show 7 = 7 - (n + 1) % 8
    omega
  · have hne : (⟨7 - n % 8, by omega⟩ : Fin 8) ≠ 0 := by
      intro h
      have hval := congrArg Fin.val h
      simp only [Fin.val_zero] at hval
      omega
    rw [if_neg hne]
    simp only [ofNat, mk.injEq, Fin.ext_iff]
    refine ⟨by omega, ?_⟩
    show (8 - 1 + (7 - n % 8)) % 8 = 7 - (n + 1) % 8
    omega

theorem decodeBit_ofNat (m : Memory) (n : Nat) :
    decodeBit m (.ofNat n) = (bitAt m n, .ofNat (n + 1)) := by
  rw [decodeBit, BitPosition.next_ofNat]
  rfl

namespace Writer

variable {w : Writer} {stale : Nat → Bool} {bits : List Bool}

/-- The writer has written these bits, and the rest of the octet it is in has no
bit set but the stale ones. -/
structure Holds (stale : Nat → Bool) (w : Writer) (bits : List Bool) : Prop where
  position : w.position = .ofNat bits.length
  written : ∀ n < bits.length, bitAt w.buffer n = bits.getD n false
  rest : ∀ n, bits.length ≤ n → n / 8 = bits.length / 8 → bits.length % 8 ≠ 0 →
    bitAt w.buffer n = true → stale n = true

/-- One more bit is written. A stale one may only be written over by a one. -/
theorem holds_encodeBit (h : Holds stale w bits) {bit : Bool}
    (hstale : stale bits.length = true → bit = true) :
    Holds stale (w.encodeBit bit) (bits ++ [bit]) := by
  have hlen : (bits ++ [bit]).length = bits.length + 1 := by
    rw [List.length_append, List.length_singleton]
  have hin : ∀ n, n / 8 = bits.length / 8 → bitAt (w.encodeBit bit).buffer n =
      ((!decide (bits.length % 8 = 0) && bitAt w.buffer n) ||
        decide (n = bits.length) && bit) := by
    intro n hn
    simp only [encodeBit, h.position]
    rw [show (BitPosition.ofNat bits.length).octetIndex = bits.length / 8 from rfl,
      Lib.bitAt_update _ hn, Lib.bitOf_orBit _ _ _ (by omega)]
    congr 1
    · by_cases hfirst : bits.length % 8 = 0
      · rw [if_pos (Fin.ext (by simp only [BitPosition.ofNat, hfirst]; rfl)), Lib.bitOf_zero,
          decide_eq_true hfirst]
        rfl
      · rw [if_neg (fun he => hfirst (by
            have hval := congrArg Fin.val he
            simp only [BitPosition.ofNat] at hval
            change 7 - bits.length % 8 = 7 at hval
            omega)), decide_eq_false hfirst, ← hn]
        rfl
    · congr 1
      rw [show ((BitPosition.ofNat bits.length).bitIndex : Nat) = 7 - bits.length % 8 from rfl,
        decide_eq_decide]
      omega
  have hout : ∀ n, n / 8 ≠ bits.length / 8 →
      bitAt (w.encodeBit bit).buffer n = bitAt w.buffer n := by
    intro n hn
    simp only [encodeBit, h.position]
    exact Lib.bitAt_update_ne _ hn _
  refine ⟨?_, ?_, ?_⟩
  · rw [hlen, ← BitPosition.next_ofNat, ← h.position]
    rfl
  · intro n hn
    rw [hlen] at hn
    rcases Nat.lt_succ_iff_lt_or_eq.mp hn with hlt | rfl
    · rw [List.getD_append _ _ _ _ hlt, ← h.written n hlt]
      by_cases hsame : n / 8 = bits.length / 8
      · rw [hin n hsame, decide_eq_false (by omega), decide_eq_false (by omega)]
        simp only [Bool.not_false, Bool.true_and, Bool.false_and, Bool.or_false]
      · exact hout n hsame
    · rw [List.getD_append_right _ _ _ _ (Nat.le_refl _), Nat.sub_self, List.getD_cons_zero,
        hin _ rfl, decide_eq_true rfl, Bool.true_and]
      -- What was there already is a one only where a one is written.
      by_cases hfirst : bits.length % 8 = 0
      · rw [decide_eq_true hfirst]
        rfl
      · cases hold : bitAt w.buffer bits.length with
        | false => rw [Bool.and_false, Bool.false_or]
        | true => rw [hstale (h.rest _ (Nat.le_refl _) rfl hfirst hold), Bool.or_true]
  · intro n hn hsame hmid hset
    rw [hlen] at hn hsame hmid
    have hoctet : n / 8 = bits.length / 8 := by omega
    rw [hin n hoctet, decide_eq_false (show ¬ n = bits.length by omega), Bool.false_and,
      Bool.or_false, Bool.and_eq_true] at hset
    refine h.rest n (by omega) hoctet ?_ hset.2
    simpa only [Bool.not_eq_true', decide_eq_false_iff_not] using hset.1

/-- Bits are written one after another. -/
theorem holds_foldl (more : List Bool) (h : Holds stale w bits)
    (hstale : ∀ n < more.length, stale (bits.length + n) = true → more.getD n false = true) :
    Holds stale (more.foldl encodeBit w) (bits ++ more) := by
  induction more generalizing w bits with
  | nil => simpa only [List.foldl_nil, List.append_nil] using h
  | cons bit more ih =>
      have hfirst := hstale 0 (by simp only [List.length_cons]; omega)
      rw [List.foldl_cons, List.append_cons]
      refine ih (holds_encodeBit h hfirst) ?_
      intro n hn hset
      rw [List.length_append, List.length_singleton, Nat.add_assoc, Nat.add_comm 1] at hset
      exact hstale (n + 1) (by simp only [List.length_cons]; omega) hset

/-- Bits are written into octets that were cleared. -/
theorem holds_foldl_clear (more : List Bool) (h : Holds (fun _ => false) w bits) :
    Holds (fun _ => false) (more.foldl encodeBit w) (bits ++ more) :=
  holds_foldl more h fun _ _ hset => absurd hset Bool.false_ne_true

/-- At the beginning of an octet nothing is stale. -/
theorem Holds.clear (h : Holds stale w bits)
    (hstale : bits.length % 8 ≠ 0 → ∀ n, bits.length ≤ n → n / 8 = bits.length / 8 →
      stale n = false) :
    Holds (fun _ => false) w bits := by
  refine ⟨h.position, h.written, ?_⟩
  intro n hn hsame hmid hset
  have hno := h.rest n hn hsame hmid hset
  rw [hstale hmid n hn hsame] at hno
  exact hno

/-- Whatever is written, the position moves on by that many bits. -/
theorem position_foldl (more : List Bool) {n : Nat} (h : w.position = .ofNat n) :
    (more.foldl encodeBit w).position = .ofNat (n + more.length) := by
  induction more generalizing w n with
  | nil => exact h
  | cons bit more ih =>
      have hnext : (w.encodeBit bit).position = .ofNat (n + 1) := by
        rw [← BitPosition.next_ofNat, ← h]
        rfl
      rw [List.foldl_cons, ih hnext, List.length_cons, Nat.add_assoc, Nat.add_comm 1]

end Writer

section Stuffing

/-- Data after some ones in a row, with a zero stuffed in after each five. -/
def stuff : Nat → List Bool → List Bool
  | _, [] => []
  | _, false :: bits => false :: stuff 0 bits
  | ones, true :: bits =>
    if ones + 1 = 5 then true :: false :: stuff 0 bits else true :: stuff (ones + 1) bits

theorem foldl_encodeEscaped (bits : List Bool) (w : Writer) (ones : Nat) :
    (bits.foldl Writer.encodeEscaped (w, ones)).1 = (stuff ones bits).foldl Writer.encodeBit w := by
  induction bits generalizing w ones with
  | nil => rfl
  | cons bit bits ih =>
      cases bit with
      | false => exact ih _ _
      | true =>
          rw [List.foldl_cons, stuff, Writer.encodeEscaped, if_pos rfl]
          by_cases hfive : ones + 1 = 5
          · rw [if_pos hfive, if_pos hfive]
            exact ih _ _
          · rw [if_neg hfive, if_neg hfive]
            exact ih _ _

/-- The bits of octets, in the order they are sent. -/
def sentBits (data : Octets) : List Bool := data.flatMap lowFirst

theorem length_sentBits (data : Octets) : (sentBits data).length = 8 * data.length := by
  induction data with
  | nil => rfl
  | cons octet data ih =>
      rw [sentBits, List.flatMap_cons, List.length_append, Lib.length_lowFirst]
      rw [sentBits] at ih
      rw [ih, List.length_cons]
      omega

theorem foldl_encodeOctet (data : Octets) (s : Writer × Nat) :
    data.foldl Writer.encodeOctet s = (sentBits data).foldl Writer.encodeEscaped s := by
  rw [sentBits, List.foldl_flatMap]
  rfl

end Stuffing

section Flags

/-- The bits of a flag. -/
def flagBits : List Bool := lowFirst q922Flag

/-- What precedes the data: the end of a flag, and three flags. -/
def opening (bitIndex : Fin 8) : List Bool :=
  (flagBits.drop (bitIndex + 1) ++ flagBits) ++ (flagBits ++ flagBits)

/-- Flags that follow one another have a bit of the same kind every octet. -/
def flagAt (bitIndex : Fin 8) (n : Nat) : Bool := flagBits.getD ((n % 8 + bitIndex + 1) % 8) false

theorem length_opening (bitIndex : Fin 8) : (opening bitIndex).length = 31 - bitIndex := by
  revert bitIndex
  decide

theorem length_flagEnd (bitIndex : Fin 8) :
    (flagBits.drop (bitIndex + 1) ++ flagBits).length = 15 - (bitIndex : Nat) := by
  revert bitIndex
  decide

theorem ofNat_fin (k : Nat) (bitIndex : Fin 8) :
    (⟨k, bitIndex⟩ : BitPosition) = .ofNat (8 * k + (7 - bitIndex)) := by
  simp only [BitPosition.ofNat, BitPosition.mk.injEq, Fin.ext_iff]
  omega

theorem encodeOctetNoEscape_twice (w : Writer) :
    (w.encodeOctetNoEscape q922Flag).encodeOctetNoEscape q922Flag =
      (flagBits ++ flagBits).foldl Writer.encodeBit w := by
  simp only [Writer.encodeOctetNoEscape, flagBits, List.foldl_append]

/-- The second octet of two flags is all bits of a flag, from where the first
octet ended. -/
theorem bitOf_flags (dummy : Memory) (bitIndex : Fin 8) (n : Nat) :
    bitOf (((flagBits ++ flagBits).foldl Writer.encodeBit ⟨dummy, ⟨0, bitIndex⟩⟩).buffer 1)
      (7 - n % 8) = flagAt bitIndex n := by
  have hsplit := List.take_append_drop (bitIndex + 1) (flagBits ++ flagBits)
  have htake : ((flagBits ++ flagBits).take (bitIndex + 1)).length = bitIndex + 1 := by
    revert bitIndex
    decide
  have hlater : ∀ k < 8, k < ((flagBits ++ flagBits).drop (bitIndex + 1)).length ∧
      ((flagBits ++ flagBits).drop (bitIndex + 1)).getD k false = flagAt bitIndex k := by
    revert bitIndex
    decide
  rw [← hsplit, List.foldl_append]
  -- What the first octet holds depends on what was there, what the second holds does not.
  have hposition := Writer.position_foldl (w := ⟨dummy, ⟨0, bitIndex⟩⟩)
    ((flagBits ++ flagBits).take (bitIndex + 1)) (ofNat_fin 0 bitIndex)
  generalize ((flagBits ++ flagBits).take (bitIndex + 1)).foldl Writer.encodeBit
    ⟨dummy, ⟨0, bitIndex⟩⟩ = w at hposition ⊢
  rw [htake, show 8 * 0 + (7 - (bitIndex : Nat)) + (bitIndex + 1) = 8 by omega] at hposition
  have hbegun : Writer.Holds (fun _ => false) w ((List.range 8).map (bitAt w.buffer)) := by
    refine ⟨by rw [hposition, List.length_map, List.length_range], ?_, ?_⟩
    · intro k hk
      rw [List.length_map, List.length_range] at hk
      rw [List.getD_eq_getElem?_getD, List.getElem?_map, List.getElem?_range hk, Option.map_some,
        Option.getD_some]
    · intro k _ _ hmid
      rw [List.length_map, List.length_range] at hmid
      exact absurd rfl hmid
  have hdone := Writer.holds_foldl_clear ((flagBits ++ flagBits).drop (bitIndex + 1)) hbegun
  have hlen : ((List.range 8).map (bitAt w.buffer)).length = 8 := by
    rw [List.length_map, List.length_range]
  have hn : n % 8 < 8 := Nat.mod_lt n (by decide)
  have hread := hdone.written (8 + n % 8) (by
    rw [List.length_append, hlen]
    have hmore := (hlater _ hn).1
    omega)
  rw [List.getD_append_right _ _ _ _ (by omega), hlen, Nat.add_sub_cancel_left,
    (hlater _ hn).2, bitAt, show (8 + n % 8) / 8 = 1 by omega,
    show (8 + n % 8) % 8 = n % 8 by omega] at hread
  rw [hread, flagAt, flagAt, Nat.mod_mod]

theorem holds_openingFlags (buffer dummy : Memory) (bitIndex : Fin 8) :
    Writer.Holds (fun _ => false) (Q922Frame.openingFlags buffer dummy bitIndex)
      (opening bitIndex) := by
  have hfirst := length_flagEnd bitIndex
  have hflag : ∀ n < 15 - (bitIndex : Nat),
      (flagBits.drop (bitIndex + 1) ++ flagBits).getD n false = flagAt bitIndex n := by
    revert bitIndex
    decide
  have hover : ∀ n < (flagBits ++ flagBits).length,
      (decide (15 - (bitIndex : Nat) + n < 16) && flagAt bitIndex (15 - bitIndex + n)) = true →
      (flagBits ++ flagBits).getD n false = true := by
    revert bitIndex
    decide
  have hback : (BitPosition.ofNat (8 * 0 + (7 - bitIndex) + (flagBits ++ flagBits).length)).bitIndex
      = bitIndex := by
    revert bitIndex
    decide
  rw [Q922Frame.openingFlags, encodeOctetNoEscape_twice, encodeOctetNoEscape_twice]
  have hoctet := bitOf_flags dummy bitIndex
  have hposition := Writer.position_foldl (w := ⟨dummy, ⟨0, bitIndex⟩⟩) (flagBits ++ flagBits)
    (ofNat_fin 0 bitIndex)
  generalize (flagBits ++ flagBits).foldl Writer.encodeBit ⟨dummy, ⟨0, bitIndex⟩⟩ = flags
    at hoctet hposition ⊢
  rw [hposition, hback]
  have hread : ∀ n < 16, bitAt (Function.update (Function.update buffer 0 (flags.buffer 1)) 1
      (flags.buffer 1)) n = flagAt bitIndex n := by
    intro n hn
    by_cases hsecond : n / 8 = 1
    · rw [Lib.bitAt_update _ hsecond, hoctet]
    · rw [Lib.bitAt_update_ne _ hsecond, Lib.bitAt_update _ (by omega), hoctet]
  have hstart : Writer.Holds (fun n => decide (n < 16) && flagAt bitIndex n)
      ⟨Function.update (Function.update buffer 0 (flags.buffer 1)) 1 (flags.buffer 1),
        ⟨1, bitIndex⟩⟩ (flagBits.drop (bitIndex + 1) ++ flagBits) := by
    refine ⟨?_, ?_, ?_⟩
    · have hplace : (⟨1, bitIndex⟩ : BitPosition) = .ofNat (15 - bitIndex) := by
        rw [ofNat_fin, show 8 * 1 + (7 - (bitIndex : Nat)) = 15 - bitIndex by omega]
      rw [hfirst]
      exact hplace
    · intro n hn
      rw [hfirst] at hn
      rw [hread n (by omega), hflag n hn]
    · intro n hn hsame _ hset
      rw [hfirst] at hn hsame
      rw [hread n (by omega)] at hset
      rw [hset, decide_eq_true (by omega)]
      rfl
  refine (Writer.holds_foldl _ hstart ?_).clear ?_
  · intro n hn
    rw [hfirst]
    exact hover n hn
  · intro _ n hn _
    have hlen := length_opening bitIndex
    rw [opening] at hlen
    rw [hlen] at hn
    rw [decide_eq_false (by omega), Bool.false_and]

end Flags

namespace Q922Frame

variable (f : Q922Frame)

/-- The header and the information field. -/
def data : Octets := f.theArray.take (q922HeaderSize + f.informationFieldSize)

/-- The octets between the flags. -/
def sentOctets : Octets :=
  f.data ++ [(calculateFcs f.data).toUInt8, (calculateFcs f.data >>> 8).toUInt8]

/-- Everything that is sent for a frame. -/
def line (bitIndex : Fin 8) : List Bool :=
  opening bitIndex ++ stuff 0 (sentBits f.sentOctets) ++ (flagBits ++ flagBits ++ flagBits)

/-- What is given as the size lacks the octet that was begun, or the last flag. -/
theorem size_ofNat (n : Nat) :
    8 * (if (BitPosition.ofNat n).bitIndex = 7 then (BitPosition.ofNat n).octetIndex - 1
      else (BitPosition.ofNat n).octetIndex) ≤ n ∧
    n ≤ 8 * (if (BitPosition.ofNat n).bitIndex = 7 then (BitPosition.ofNat n).octetIndex - 1
      else (BitPosition.ofNat n).octetIndex) + 8 := by
  have hlast : (BitPosition.ofNat n).bitIndex = 7 ↔ n % 8 = 0 := by
    rw [Fin.ext_iff]
    change 7 - n % 8 = 7 ↔ _
    omega
  have hoctet : (BitPosition.ofNat n).octetIndex = n / 8 := rfl
  rw [hoctet]
  by_cases hfull : n % 8 = 0
  · rw [if_pos (hlast.mpr hfull)]
    omega
  · rw [if_neg (fun he => hfull (hlast.mp he))]
    omega

theorem length_data : f.data.length = q922HeaderSize + f.informationFieldSize := by
  rw [data, List.length_take, Nat.min_eq_left f.fits]

/-- All bits of the line are in the buffer, and no more than eight of them are
behind what is given as its size. -/
theorem encodeHdlc_eq (h : f.informationFieldSize ≠ 0) (buffer dummy : Memory)
    (bitIndex : Fin 8) :
    ∃ m size last, f.encodeHdlc buffer dummy bitIndex = some (m, size, last) ∧
      (∀ n < (f.line bitIndex).length, bitAt m n = (f.line bitIndex).getD n false) ∧
      8 * size ≤ (f.line bitIndex).length ∧ (f.line bitIndex).length ≤ 8 * size + 8 := by
  have hopen := holds_openingFlags buffer dummy bitIndex
  have hdata := Writer.holds_foldl_clear (stuff 0 (sentBits f.sentOctets)) hopen
  have hline := Writer.holds_foldl_clear (flagBits ++ flagBits ++ flagBits) hdata
  have hwriter : (((((f.sentOctets).foldl Writer.encodeOctet
      (openingFlags buffer dummy bitIndex, 0)).1.encodeOctetNoEscape q922Flag).encodeOctetNoEscape
        q922Flag).encodeOctetNoEscape q922Flag) =
      (flagBits ++ flagBits ++ flagBits).foldl Writer.encodeBit
        ((stuff 0 (sentBits f.sentOctets)).foldl Writer.encodeBit
          (openingFlags buffer dummy bitIndex)) := by
    simp only [foldl_encodeOctet, foldl_encodeEscaped, Writer.encodeOctetNoEscape, flagBits,
      List.foldl_append]
  rw [← hwriter] at hline
  have hsize := size_ofNat (f.line bitIndex).length
  rw [line, ← hline.position] at hsize
  rw [encodeHdlc, if_neg h]
  exact ⟨_, _, _, rfl, hline.written, hsize.1, hsize.2⟩

end Q922Frame

end H224

end CryptoOpal

import CryptoOpal.Asn.PerWrite

/-!
# Codecs of a Stream

An encoder and a decoder round trip when the decoder, in any array that begins with what
the encoder has written, gives the value back and stops where the encoder stopped. What
is behind that in the array does not matter, so one codec can follow another
(`RoundTrips.bind`), and an encoder and its decoder are compared branch by branch.

## Main definitions

* `Holds`: An array that begins with what was written.
* `RoundTrips`: Decoding gives back what was encoded.

## Theorems

* `roundTrips_multiBit`, `roundTrips_singleBit`, `roundTrips_byteAlign`: The primitives.
* `RoundTrips.bind`: One codec after another.
* `holds_completeEncoding`: The finished array holds what was written.
-/

namespace CryptoOpal

namespace Asn

open Lib (Octets Memory octetsAt field bitAt)

open PerStream

/-- `d` begins with what was written up to the place in `t`, and its size in bits is an
`unsigned`. -/
structure Holds (d t : PerStream) : Prop where
  aligned : d.aligned = t.aligned
  within : t.position ≤ 8 * d.size
  sized : 8 * d.size < 2 ^ 32
  bits : ∀ i < t.position, bitAt d.bits i = bitAt t.bits i

theorem Holds.of_extends {d s t : PerStream} (h : Holds d t) (he : Extends s t) : Holds d s where
  aligned := h.aligned.trans he.aligned
  within := Nat.le_trans he.le h.within
  sized := h.sized
  bits := fun i hi => (h.bits i (Nat.lt_of_lt_of_le hi he.le)).trans (he.bits i hi)

/-- The field that was written is in the decoder's array. -/
theorem Holds.field {d t : PerStream} (h : Holds d t) {p n : Nat} (hn : p + n ≤ t.position) :
    Lib.field d.bits p n = Lib.field t.bits p n :=
  Lib.field_congr fun i _ hi => h.bits i (by omega)

/-- In streams with this alignment, decoding gives back what was encoded, from any place
on, as long as the encoding does not end too far into the array. -/
structure RoundTrips {α : Type} (al : Bool) (enc : PerStream → PerStream) (dec : Decoder α)
    (a : α) : Prop where
  onward : ∀ s : PerStream, s.aligned = al → s.Placed → Onward s (enc s)
  writes : ∀ s : PerStream, s.aligned = al → s.Ready →
    (enc s).byteOffset ≤ maximumStringSize → (enc s).Ready ∧ Extends s (enc s)
  reads : ∀ s : PerStream, s.aligned = al → s.Ready →
    (enc s).byteOffset ≤ maximumStringSize → ∀ d, Holds d (enc s) →
      dec (d.moveTo s.position) = .ok (a, d.moveTo (enc s).position)

namespace RoundTrips

variable {α β : Type} {al : Bool} {enc enc' : PerStream → PerStream} {dec dec' : Decoder α}
  {a : α}

theorem pure (al : Bool) (a : α) : RoundTrips al (fun s => s) (Pure.pure a : Decoder α) a where
  onward := fun _ _ hs => Onward.refl hs
  writes := fun s _ hs _ => ⟨hs, Extends.refl s⟩
  reads := fun _ _ _ _ _ _ => rfl

/-- A codec that, in streams with this alignment, is the same as another. -/
theorem congr (h : RoundTrips al enc dec a) (henc : ∀ s, s.aligned = al → enc' s = enc s)
    (hdec : ∀ d, d.aligned = al → dec' d = dec d) : RoundTrips al enc' dec' a where
  onward := fun s hal hs => by rw [henc s hal]; exact h.onward s hal hs
  writes := fun s hal hs hend => by
    rw [henc s hal] at hend ⊢
    exact h.writes s hal hs hend
  reads := fun s hal hs hend d hd => by
    rw [henc s hal] at hend hd ⊢
    have hald : d.aligned = al := by
      rw [hd.aligned, (h.onward s hal hs.toPlaced).aligned, hal]
    rw [hdec _ (by rw [aligned_moveTo]; exact hald)]
    exact h.reads s hal hs hend d hd

/-- One codec after another. -/
theorem bind {f : α → Decoder β} {b : β} (h : RoundTrips al enc dec a)
    (h' : RoundTrips al enc' (f a) b) :
    RoundTrips al (fun s => enc' (enc s)) (dec >>= f) b where
  onward := fun s hal hs => by
    have hfirst := h.onward s hal hs
    exact hfirst.trans (h'.onward _ (hfirst.aligned.trans hal) hfirst.placed)
  writes := fun s hal hs hend => by
    have hfirst := h.onward s hal hs.toPlaced
    have hsecond := h'.onward _ (hfirst.aligned.trans hal) hfirst.placed
    obtain ⟨hready, hext⟩ := h.writes s hal hs
      (Nat.le_trans (hsecond.byteOffset_le hfirst.placed) hend)
    obtain ⟨hready', hext'⟩ := h'.writes _ (hfirst.aligned.trans hal) hready hend
    exact ⟨hready', hext.trans hext'⟩
  reads := fun s hal hs hend d hd => by
    have hfirst := h.onward s hal hs.toPlaced
    have hal' := hfirst.aligned.trans hal
    have hsecond := h'.onward _ hal' hfirst.placed
    have hend' := Nat.le_trans (hsecond.byteOffset_le hfirst.placed) hend
    have hready := (h.writes s hal hs hend').1
    have hext := (h'.writes _ hal' hready hend).2
    rw [bind_ok (h.reads s hal hs hend' d (hd.of_extends hext))]
    exact h'.reads _ hal' hready hend d hd

theorem map {b : β} (g : α → β) (h : RoundTrips al enc dec a) (hb : g a = b) :
    RoundTrips al enc (dec >>= fun x => Pure.pure (g x)) b := by
  subst hb
  exact h.bind (f := fun x => Pure.pure (g x)) (RoundTrips.pure al (g a))

/-- A decoder that first asks whether anything is left, where something was written. -/
theorem afterEnd (h : RoundTrips al enc dec a)
    (hgrows : ∀ s : PerStream, s.aligned = al → s.Ready →
      (enc s).byteOffset ≤ maximumStringSize → s.position < (enc s).position) :
    RoundTrips al enc (isAtEnd >>= fun atEnd => if atEnd then refuse else dec) a where
  onward := h.onward
  writes := h.writes
  reads := fun s hal hs hend d hd => by
    have hlt := hgrows s hal hs hend
    have hin := hd.within
    rw [bind_ok isAtEnd_moveTo, decide_eq_false (by omega), if_neg Bool.false_ne_true]
    exact h.reads s hal hs hend d hd

end RoundTrips

section Primitives

variable {al : Bool}

theorem roundTrips_multiBit (al : Bool) {value n : Nat} (hn : n ≤ 32) (hv : value < 2 ^ n) :
    RoundTrips al (fun s => s.multiBitEncode value n) (multiBitDecode n) value where
  onward := fun _ _ hs => onward_multiBitEncode value n hs
  writes := fun s _ hs hend => by
    have hfar := Nat.le_trans ((onward_multiBitEncode value n hs.toPlaced).byteOffset_le hs.toPlaced)
      hend
    have hspec := ready_multiBitEncode hs hfar hn hv
    exact ⟨hspec.1, hspec.2.1⟩
  reads := fun s _ hs hend d hd => by
    have hfar := Nat.le_trans ((onward_multiBitEncode value n hs.toPlaced).byteOffset_le hs.toPlaced)
      hend
    obtain ⟨hready, hext, hpos, hfield⟩ := ready_multiBitEncode hs hfar hn hv
    have hin := hd.within
    have hsized := hd.sized
    rw [hpos] at hin
    have hplace : s.position / 8 = s.byteOffset := by
      have hlo := hs.one_le
      have hhi := hs.le_eight
      rw [position]
      omega
    have hleft : n ≤ (8 * d.size - s.position) % 2 ^ 32 := by
      rw [Nat.mod_eq_of_lt (by omega)]
      omega
    rw [multiBitDecode_moveTo n (by omega), if_pos ⟨hn, hleft, .inr (by rw [hplace]; exact hfar)⟩,
      hpos, hd.field (by rw [hpos]), hfield]

theorem roundTrips_singleBit (al : Bool) (b : Bool) :
    RoundTrips al (fun s => s.singleBitEncode b) singleBitDecode b where
  onward := fun _ _ hs => onward_singleBitEncode b hs
  writes := fun s _ hs hend => by
    have hfar := Nat.le_trans ((onward_singleBitEncode b hs.toPlaced).byteOffset_le hs.toPlaced)
      hend
    have hspec := ready_singleBitEncode hs hfar b
    exact ⟨hspec.1, hspec.2.1⟩
  reads := fun s _ hs hend d hd => by
    have hfar := Nat.le_trans ((onward_singleBitEncode b hs.toPlaced).byteOffset_le hs.toPlaced)
      hend
    obtain ⟨hready, hext, hpos, hfield⟩ := ready_singleBitEncode hs hfar b
    have hin := hd.within
    rw [hpos] at hin
    have hplace : s.position / 8 = s.byteOffset := by
      have hlo := hs.one_le
      have hhi := hs.le_eight
      rw [position]
      omega
    rw [← hd.field (by rw [hpos]), Lib.field_one] at hfield
    have hbit : bitAt d.bits s.position = b := by
      revert hfield
      cases bitAt d.bits s.position <;> cases b <;> decide
    rw [singleBitDecode_moveTo (by omega), if_pos ⟨by omega, by rw [hplace]; exact hfar⟩, hpos,
      hbit]

theorem roundTrips_byteAlign (al : Bool) :
    RoundTrips al PerStream.byteAlign (modify PerStream.byteAlign) () where
  onward := fun _ _ hs => onward_byteAlign hs
  writes := fun s _ hs _ => ⟨(ready_byteAlign hs).1, (ready_byteAlign hs).2.1⟩
  reads := fun s _ hs _ d hd => by
    have hplace := (ready_byteAlign hs).2.2
    have hin := hd.within
    rw [hplace, position_moveTo] at hin
    show Except.ok ((), (d.moveTo s.position).byteAlign) = _
    rw [byteAlign_moveTo (by omega), hplace, position_moveTo]

end Primitives

section Complete

variable {s : PerStream}

theorem length_setSize (m : Nat) : (s.setSize m).size = m := by
  show (s.theArray.take m ++ List.replicate (m - s.size) 0).length = m
  rw [List.length_append, List.length_take, List.length_replicate]
  show min m s.size + (m - s.size) = m
  omega

theorem bitAt_setSize {m i : Nat} (hi : i < 8 * m) :
    bitAt (s.setSize m).bits i = bitAt s.bits i := by
  have hoctet : octetsAt (s.theArray.take m) (i / 8) = octetsAt s.theArray (i / 8) := by
    rw [octetsAt, octetsAt, List.getD_eq_getElem?_getD, List.getElem?_take_of_lt (by omega),
      List.getD_eq_getElem?_getD]
  rw [bits, setSize, octetsAt_append_zeros, bitAt, hoctet]
  rfl

/-- The finished array holds what was written. -/
theorem holds_completeEncoding (hs : s.Ready) (hend : s.byteOffset ≤ maximumStringSize) :
    Holds s.completeEncoding s := by
  have hlo := hs.one_le
  have hhi := hs.le_eight
  obtain ⟨m, hm⟩ : ∃ m, m = if s.bitOffset = 8 then s.byteOffset else s.byteOffset + 1 := ⟨_, rfl⟩
  have hsize : s.completeEncoding.size = m := by rw [hm]; exact length_setSize _
  have hmax : maximumStringSize = 16384 := rfl
  have hfits : s.position ≤ 8 * m ∧ m ≤ s.byteOffset + 1 := by
    rw [position, hm]
    by_cases hfull : s.bitOffset = 8
    · rw [if_pos hfull]
      omega
    · rw [if_neg hfull]
      omega
  refine ⟨rfl, by rw [hsize]; exact hfits.1, by rw [hsize]; omega, ?_⟩
  intro i hi
  rw [completeEncoding]
  rw [bitAt_setSize (by show i < 8 * (if s.bitOffset = 8 then _ else _); rw [← hm]; omega)]
  rfl

end Complete

end Asn

end CryptoOpal

import CryptoOpal.Asn.PerCodec
import CryptoOpal.Asn.Scalars

/-!
# Round Trips of Bounded Numbers and Lengths

`CountBits` gives the width of a range (`countBits_le_iff`), so a number of the range
fits its field. A field is the end of every number; what comes before it is the width,
which for a long number in an aligned stream has a count of octets of its own.

A length has three forms, and which of them is used depends on the bounds alone. The
last of them has no room for lengths of more than 14 bits.

## Main definitions

* `LengthFits`: The lengths that have an encoding.

## Theorems

* `countBits_le_iff`: The width of a range.
* `unsignedDecode_eq`, `unsignedEncode_eq`: The recursion of the source.
* `roundTrips_unsigned`, `roundTrips_length`, `roundTrips_smallUnsigned`.
-/

namespace CryptoOpal

namespace Asn

open PerStream

section CountBits

theorem countBitsFrom_le_iff {range turns n j : Nat} (hrange : range ≤ 2 ^ (n + turns))
    (hn : ∀ i < n, 2 ^ i < range) : countBitsFrom range turns n ≤ j ↔ range ≤ 2 ^ j := by
  induction turns generalizing n with
  | zero =>
      rw [countBitsFrom]
      refine ⟨fun h => Nat.le_trans hrange (Nat.pow_le_pow_right (by decide) h), fun h => ?_⟩
      by_contra hlt
      exact absurd (hn j (by omega)) (by omega)
  | succ turns ih =>
      rw [countBitsFrom]
      by_cases hmore : 2 ^ n < range
      · rw [if_pos hmore]
        apply ih (by rwa [Nat.add_right_comm, Nat.add_assoc])
        intro i hi
        rcases Nat.lt_succ_iff_lt_or_eq.mp hi with hlt | heq
        · exact hn i hlt
        · rw [heq]; exact hmore
      · rw [if_neg hmore]
        refine ⟨fun h => ?_, fun h => ?_⟩
        · exact Nat.le_trans (by omega) (Nat.pow_le_pow_right (by decide) h)
        · by_contra hlt
          exact absurd (hn j (by omega)) (by omega)

/-- A range has at most as many bits as say its numbers. -/
theorem countBits_le_iff {range j : Nat} (hlo : 2 ≤ range) (hhi : range ≤ 2 ^ 32) :
    countBits range ≤ j ↔ range ≤ 2 ^ j := by
  rw [countBits, if_neg (by omega), if_neg (by omega)]
  exact countBitsFrom_le_iff (by rwa [Nat.zero_add]) (fun i hi => absurd hi (Nat.not_lt_zero i))

theorem countBits_one : countBits 1 = 1 := rfl

theorem countBits_zero : countBits 0 = 32 := rfl

/-- The numbers of a range fit its width. -/
theorem lt_two_pow_countBits {d n : Nat} (h : d < n) (hn : n ≤ 2 ^ 32) :
    d < 2 ^ countBits (n % 2 ^ 32) ∧ countBits (n % 2 ^ 32) ≤ 32 ∧ 0 < countBits (n % 2 ^ 32) := by
  rcases Nat.lt_or_eq_of_le hn with hlt | rfl
  · rw [Nat.mod_eq_of_lt hlt]
    rcases Nat.lt_or_ge n 2 with hone | htwo
    · obtain rfl : n = 1 := by omega
      rw [countBits_one]
      omega
    · have hself := (countBits_le_iff htwo hn).mp (Nat.le_refl _)
      refine ⟨by omega, (countBits_le_iff htwo hn).mpr hn, ?_⟩
      by_contra hzero
      have hle := (countBits_le_iff (j := 0) htwo hn).mp (by omega)
      omega
  · rw [Nat.mod_self, countBits_zero]
    exact ⟨h, Nat.le_refl _, by decide⟩

theorem rangeOf_eq {lower upper : Nat} (h : lower ≤ upper) :
    rangeOf lower upper = (upper - lower + 1) % 2 ^ 32 := by
  rw [rangeOf, unsignedOf]
  omega

end CountBits

section Strict

variable {α : Type} {al : Bool} {enc enc' : PerStream → PerStream} {dec : Decoder α} {a : α}

/-- Something is written. -/
def Strict (al : Bool) (enc : PerStream → PerStream) : Prop :=
  ∀ s : PerStream, s.aligned = al → s.Ready → (enc s).byteOffset ≤ maximumStringSize →
    s.position < (enc s).position

theorem strict_multiBit (al : Bool) {value n : Nat} (hpos : 0 < n) (hn : n ≤ 32)
    (hv : value < 2 ^ n) : Strict al (fun s => s.multiBitEncode value n) := by
  intro s _ hs hend
  have hfar := Nat.le_trans ((onward_multiBitEncode value n hs.toPlaced).byteOffset_le hs.toPlaced)
    hend
  have hposition := (ready_multiBitEncode hs hfar hn hv).2.2.1
  show s.position < (s.multiBitEncode value n).position
  omega

/-- Something is written by the second of two encoders. -/
theorem Strict.after (h : RoundTrips al enc dec a) (hstrict : Strict al enc')
    (honward : ∀ s : PerStream, s.aligned = al → s.Placed → Onward s (enc' s)) :
    Strict al (fun s => enc' (enc s)) := by
  intro s hal hs hend
  have hfirst := h.onward s hal hs.toPlaced
  have hal' := hfirst.aligned.trans hal
  have hmid := (honward _ hal' hfirst.placed).byteOffset_le hfirst.placed
  have hready := (h.writes s hal hs (Nat.le_trans hmid hend)).1
  exact Nat.lt_of_le_of_lt hfirst.le (hstrict _ hal' hready hend)

end Strict

section Field

variable {β : Type} {al : Bool} {enc : PerStream → PerStream} {dec : Decoder Nat} {value n : Nat}

/-- A number behind its width, in a decoder that asks first whether anything is left. -/
theorem roundTrips_field (h : RoundTrips al enc dec n) (hpos : 0 < n) (hn : n ≤ 32)
    (hv : value < 2 ^ n) (g : Nat → β) :
    RoundTrips al (fun s => (enc s).multiBitEncode value n)
      (isAtEnd >>= fun atEnd => if atEnd then refuse
        else dec >>= fun n => multiBitDecode n >>= fun x => pure (g x)) (g value) :=
  (h.bind ((roundTrips_multiBit al hn hv).map g rfl)).afterEnd
    (Strict.after h (strict_multiBit al hpos hn hv) fun _ _ hs => onward_multiBitEncode value n hs)

/-- A number whose top bit is read on its own, and found clear. -/
theorem roundTrips_zeroBit (al : Bool) {f : Bool → Decoder β} {g : Nat → Decoder β} {b : β}
    (hf : f false = multiBitDecode n >>= g) (hg : g value = pure b) (hn : n < 32)
    (hv : value < 2 ^ n) :
    RoundTrips al (fun s => s.multiBitEncode value (n + 1)) (singleBitDecode >>= f) b := by
  have hwide : value < 2 ^ (n + 1) := by
    rw [Nat.pow_succ]
    omega
  have hmulti := roundTrips_multiBit al (by omega : n + 1 ≤ 32) hwide
  refine ⟨hmulti.onward, hmulti.writes, fun s hal hs hend d hd => ?_⟩
  have hfar := Nat.le_trans
    ((onward_multiBitEncode value (n + 1) hs.toPlaced).byteOffset_le hs.toPlaced) hend
  obtain ⟨-, -, hpos, hfield⟩ := ready_multiBitEncode hs hfar (by omega) hwide
  have hin := hd.within
  have hsized := hd.sized
  have hlo := hs.one_le
  have hhi := hs.le_eight
  have hplace : s.position = 8 * s.byteOffset + (8 - s.bitOffset) := rfl
  rw [hpos] at hin
  have hend' : (s.position + 1) / 8 ≤ maximumStringSize ∨ n = 0 := by
    have hendplace := ((hmulti.onward s hal hs.toPlaced).placed).le_eight
    have hendplace' := ((hmulti.onward s hal hs.toPlaced).placed).one_le
    have hposition : (s.multiBitEncode value (n + 1)).position =
        8 * (s.multiBitEncode value (n + 1)).byteOffset +
          (8 - (s.multiBitEncode value (n + 1)).bitOffset) := rfl
    omega
  -- The top bit is clear, and the others are the number.
  rw [← hd.field (by rw [hpos]), Nat.add_comm n 1, Lib.field_add, Lib.field_one] at hfield
  have hclear : Lib.bitAt d.bits s.position = false := by
    rcases hbit : Lib.bitAt d.bits s.position with _ | _
    · rfl
    · rw [hbit, Bool.toNat_true] at hfield
      omega
  rw [hclear, Bool.toNat_false, Nat.zero_mul, Nat.zero_add] at hfield
  have hbit : singleBitDecode (d.moveTo s.position) = .ok (false, d.moveTo (s.position + 1)) := by
    rw [singleBitDecode_moveTo (by omega), if_pos ⟨by omega, by omega⟩, hclear]
  have hleft : n ≤ (8 * d.size - (s.position + 1)) % 2 ^ 32 := by
    rw [Nat.mod_eq_of_lt (by omega)]
    omega
  have hrest : multiBitDecode n (d.moveTo (s.position + 1)) =
      .ok (value, d.moveTo (s.position + (n + 1))) := by
    rw [multiBitDecode_moveTo n (by omega), if_pos ⟨by omega, hleft, hend'.symm⟩, hfield,
      Nat.add_assoc, Nat.add_comm 1 n]
  rw [bind_ok hbit, hf, bind_ok hrest, hg, hpos]
  rfl

end Field

section Unsigned

variable {al : Bool} {lower upper value : Nat}

/-- The bits that `UnsignedEncode` puts before the number. -/
def widthEncode (lengthEncode : Nat → Nat → Nat → PerStream → PerStream) (d range : Nat)
    (s : PerStream) : PerStream :=
  if s.aligned = true ∧ (range = 0 ∨ 255 < range) then
    if 16 < countBits range then
      (lengthEncode (octetsOf d) 1 ((countBits range + 7) / 8) s).byteAlign
    else s.byteAlign
  else s

/-- The width of the number that follows. -/
def widthOf (al : Bool) (d range : Nat) : Nat :=
  if al = true ∧ (range = 0 ∨ 255 < range) then
    if 16 < countBits range then octetsOf d * 8 else if 8 < countBits range then 16 else countBits range
  else countBits range

/-- A number and its width. -/
theorem unsignedEncodeFrom_eq (E : Nat → Nat → Nat → PerStream → PerStream) (s : PerStream)
    (hlo : lower ≤ value) (hne : lower ≠ upper) :
    unsignedEncodeFrom E value lower upper s =
      (widthEncode E (value - lower) (rangeOf lower upper) s).multiBitEncode (value - lower)
        (widthOf s.aligned (value - lower) (rangeOf lower upper)) := by
  rw [unsignedEncodeFrom, if_neg hne, widthEncode, widthOf, if_neg (by omega : ¬ value < lower)]
  by_cases hlong : s.aligned = true ∧ (rangeOf lower upper = 0 ∨ 255 < rangeOf lower upper)
  · rw [if_pos hlong, if_pos hlong, if_pos hlong]
    by_cases hcount : 16 < countBits (rangeOf lower upper)
    · rw [if_pos hcount, if_pos hcount, if_pos hcount]
    · rw [if_neg hcount, if_neg hcount, if_neg hcount]
  · rw [if_neg hlong, if_neg hlong, if_neg hlong]

/-- The octets of a number below a range. -/
theorem octetsOf_spec {d n : Nat} (h : d < n) (hn : n ≤ 2 ^ 32) :
    1 ≤ octetsOf d ∧ octetsOf d ≤ 4 ∧ d < 2 ^ (octetsOf d * 8) ∧
      octetsOf d ≤ (countBits (n % 2 ^ 32) + 7) / 8 := by
  obtain ⟨hfits, hle, hpos⟩ := lt_two_pow_countBits h hn
  rw [octetsOf]
  by_cases hzero : d = 0
  · rw [if_pos hzero, hzero]
    omega
  rw [if_neg hzero]
  have hunsigned : unsignedOf ((d : Int) + 1) = (d + 1) % 2 ^ 32 := by
    rw [unsignedOf]
    omega
  have hsucc : d < d + 1 := Nat.lt_succ_self d
  obtain ⟨hself, hself32, hselfpos⟩ := lt_two_pow_countBits hsucc (by omega)
  -- A number has no more bits than a range that it is in.
  have hmono : countBits ((d + 1) % 2 ^ 32) ≤ countBits (n % 2 ^ 32) := by
    rcases Nat.lt_or_eq_of_le (by omega : d + 1 ≤ 2 ^ 32) with hlt | heq
    · rw [Nat.mod_eq_of_lt hlt]
      exact (countBits_le_iff (by omega) (by omega)).mpr (by omega)
    · rw [show n = d + 1 by omega]
  rw [hunsigned]
  refine ⟨by omega, by omega, ?_, by omega⟩
  exact Nat.lt_of_lt_of_le hself (Nat.pow_le_pow_right (by decide) (by show _ ≤ _ * 8; omega))

/-- The width is read as it was written, if counts of octets are. -/
theorem roundTrips_width {E : Nat → Nat → Nat → PerStream → PerStream}
    {L : Nat → Nat → Nat → Decoder Nat} {d n : Nat} (hd : d < n) (hn : n ≤ 2 ^ 32)
    (hcount : al = true → 65536 < n → ∀ upper octets len, 1 ≤ octets → octets ≤ upper → 3 ≤ upper →
      upper ≤ 4 → RoundTrips al (E octets 1 upper) (L 1 upper len) octets) :
    RoundTrips al (widthEncode E d (n % 2 ^ 32)) (widthDecode L (n % 2 ^ 32))
      (widthOf al d (n % 2 ^ 32)) := by
  obtain ⟨hfits, hle, hpos⟩ := lt_two_pow_countBits hd hn
  obtain ⟨hone, hfour, -, hoctets⟩ := octetsOf_spec hd hn
  rw [widthOf]
  by_cases hlong : al = true ∧ (n % 2 ^ 32 = 0 ∨ 255 < n % 2 ^ 32)
  swap
  · rw [if_neg hlong]
    refine (RoundTrips.pure al (countBits (n % 2 ^ 32))).congr (fun s hs => ?_) (fun t ht => ?_)
    · rw [widthEncode, if_neg (by rw [hs]; exact hlong)]
    · show (if t.aligned = true ∧ _ then _ else _ : Decoder Nat) t = _
      rw [if_neg (by rw [ht]; exact hlong)]
  rw [if_pos hlong]
  by_cases hmany : 16 < countBits (n % 2 ^ 32)
  · -- A count of octets, and then an octet boundary.
    have hlarge : 65536 < n := by
      by_contra hsmall
      rw [Nat.mod_eq_of_lt (by omega)] at hmany hlong
      have hfew : countBits n ≤ 16 := (countBits_le_iff (by omega) (by omega)).mpr (by omega)
      omega
    have hoct := hcount hlong.1 hlarge ((countBits (n % 2 ^ 32) + 7) / 8) (octetsOf d)
      (countBits (n % 2 ^ 32)) hone hoctets (by omega) (by omega)
    rw [if_pos hmany]
    refine (hoct.bind (f := fun octets : Nat => modify PerStream.byteAlign >>= fun _ =>
      pure (unsignedOf (octets * 8))) (b := octetsOf d * 8)
        (((roundTrips_byteAlign al).map (fun _ => unsignedOf (octetsOf d * 8)) ?_))).congr
          (fun s hs => ?_) (fun t ht => ?_)
    · rw [unsignedOf]
      omega
    · rw [widthEncode, if_pos (by rw [hs]; exact hlong), if_pos hmany]
    · show (if t.aligned = true ∧ _ then _ else _ : Decoder Nat) t = _
      rw [if_pos (by rw [ht]; exact hlong), if_pos hmany]
  · rw [if_neg hmany]
    refine ((roundTrips_byteAlign al).map
      (fun _ => if 8 < countBits (n % 2 ^ 32) then 16 else countBits (n % 2 ^ 32)) rfl).congr
        (fun s hs => ?_) (fun t ht => ?_)
    · rw [widthEncode, if_pos (by rw [hs]; exact hlong), if_neg hmany]
    · show (if t.aligned = true ∧ _ then _ else _ : Decoder Nat) t = _
      rw [if_pos (by rw [ht]; exact hlong), if_neg hmany]

theorem widthOf_spec (al : Bool) {d n : Nat} (hd : d < n) (hn : n ≤ 2 ^ 32) :
    d < 2 ^ widthOf al d (n % 2 ^ 32) ∧ widthOf al d (n % 2 ^ 32) ≤ 32 ∧
      0 < widthOf al d (n % 2 ^ 32) := by
  obtain ⟨hfits, hle, hpos⟩ := lt_two_pow_countBits hd hn
  obtain ⟨hone, hfour, hoctets, -⟩ := octetsOf_spec hd hn
  rw [widthOf]
  by_cases hlong : al = true ∧ (n % 2 ^ 32 = 0 ∨ 255 < n % 2 ^ 32)
  swap
  · rw [if_neg hlong]
    exact ⟨hfits, hle, hpos⟩
  rw [if_pos hlong]
  by_cases hmany : 16 < countBits (n % 2 ^ 32)
  · rw [if_pos hmany]
    exact ⟨hoctets, by omega, by omega⟩
  rw [if_neg hmany]
  by_cases htwo : 8 < countBits (n % 2 ^ 32)
  · rw [if_pos htwo]
    exact ⟨Nat.lt_of_lt_of_le hfits (Nat.pow_le_pow_right (by decide) (by omega)), by omega,
      by omega⟩
  · rw [if_neg htwo]
    exact ⟨hfits, hle, hpos⟩

/-- A number between its bounds, if counts of octets round trip. -/
theorem roundTrips_unsignedFrom {E : Nat → Nat → Nat → PerStream → PerStream}
    {L : Nat → Nat → Nat → Decoder Nat} (hlo : lower ≤ value) (hhi : value ≤ upper)
    (hup : upper < 2 ^ 32)
    (hcount : al = true → 65536 < upper - lower + 1 → ∀ upper octets len, 1 ≤ octets →
      octets ≤ upper → 3 ≤ upper → upper ≤ 4 →
        RoundTrips al (E octets 1 upper) (L 1 upper len) octets) :
    RoundTrips al (unsignedEncodeFrom E value lower upper) (unsignedDecodeFrom L lower upper)
      value := by
  by_cases heq : lower = upper
  · obtain rfl : value = lower := by omega
    refine (RoundTrips.pure al value).congr (fun s _ => ?_) (fun d _ => ?_)
    · rw [unsignedEncodeFrom, if_pos heq]
    · rw [unsignedDecodeFrom, if_pos heq]
  have hd : value - lower < upper - lower + 1 := by omega
  have hn : upper - lower + 1 ≤ 2 ^ 32 := by omega
  obtain ⟨hfits, hle, hpos⟩ := widthOf_spec al hd hn
  have hfield := roundTrips_field (@roundTrips_width al _ _ _ _ hd hn hcount) hpos hle hfits
    (fun x => min (unsignedOf (x + lower)) upper)
  have hvalue : min (unsignedOf ((value - lower : Nat) + lower)) upper = value := by
    rw [unsignedOf]
    omega
  rw [hvalue, ← rangeOf_eq (by omega : lower ≤ upper)] at hfield
  refine hfield.congr (fun s hs => ?_) (fun d _ => ?_)
  · rw [unsignedEncodeFrom_eq E s hlo heq, hs]
  · rw [unsignedDecodeFrom, if_neg heq]

end Unsigned

section Recursion

variable {lower upper len : Nat} {d s : PerStream}

/-- A short range is read without a count of octets. -/
theorem unsignedDecodeFrom_short (L L' : Nat → Nat → Nat → Decoder Nat)
    (h : ¬ (rangeOf lower upper = 0 ∨ 255 < rangeOf lower upper)) :
    unsignedDecodeFrom L lower upper = unsignedDecodeFrom L' lower upper := by
  have hwidth : widthDecode L (rangeOf lower upper) = widthDecode L' (rangeOf lower upper) := by
    funext d
    show (if d.aligned = true ∧ _ then _ else _ : Decoder Nat) d =
      (if d.aligned = true ∧ _ then _ else _ : Decoder Nat) d
    rw [if_neg (fun hlong => h hlong.2), if_neg (fun hlong => h hlong.2)]
  rw [unsignedDecodeFrom, unsignedDecodeFrom, hwidth]

theorem unsignedEncodeFrom_short (E E' : Nat → Nat → Nat → PerStream → PerStream) (value : Nat)
    (h : ¬ (rangeOf lower upper = 0 ∨ 255 < rangeOf lower upper)) :
    unsignedEncodeFrom E value lower upper s = unsignedEncodeFrom E' value lower upper s := by
  rw [unsignedEncodeFrom, unsignedEncodeFrom]
  by_cases heq : lower = upper
  · rw [if_pos heq, if_pos heq]
  · have hshort : ¬ (s.aligned = true ∧ (rangeOf lower upper = 0 ∨ 255 < rangeOf lower upper)) :=
      fun hlong => h hlong.2
    rw [if_neg heq, if_neg heq, if_neg hshort, if_neg hshort]

theorem rangeOf_octetCount (hlo : 3 ≤ upper) (hhi : upper ≤ 4) :
    ¬ (rangeOf 1 upper = 0 ∨ 255 < rangeOf 1 upper) := by
  rw [rangeOf_eq (by omega)]
  omega

/-- A count of octets is a length like any other. -/
theorem octetCountDecode_eq (hal : d.aligned = true) (hlo : 3 ≤ upper) (hhi : upper ≤ 4) :
    octetCountDecode 1 upper len d = lengthDecode 1 upper len d := by
  have hal' : ¬ (upper ≠ intMax ∧ d.aligned = false) := by
    rw [hal]
    exact fun h => Bool.noConfusion h.2
  show (if upper ≠ intMax ∧ d.aligned = false then _ else _ : Decoder Nat) d =
    (if upper ≠ intMax ∧ d.aligned = false then _ else _ : Decoder Nat) d
  rw [if_neg hal', if_neg hal', if_pos (by omega), if_pos (by omega),
    unsignedDecodeFrom_short _ octetCountDecode (rangeOf_octetCount hlo hhi)]
  rfl

theorem octetCountEncode_eq (hal : s.aligned = true) (hlo : 3 ≤ upper) (hhi : upper ≤ 4) :
    octetCountEncode len 1 upper s = lengthEncode len 1 upper s := by
  have hal' : ¬ (upper ≠ intMax ∧ s.aligned = false) := by
    rw [hal]
    exact fun h => Bool.noConfusion h.2
  rw [octetCountEncode, lengthEncode, lengthEncodeFrom, lengthEncodeFrom, if_neg hal',
    if_neg hal', if_pos (by omega), if_pos (by omega), unsignedEncode,
    unsignedEncodeFrom_short _ octetCountEncode len (rangeOf_octetCount hlo hhi)]

theorem countBits_le (range : Nat) : countBits range ≤ 32 := by
  rw [countBits]
  by_cases hzero : range = 0
  · rw [if_pos hzero]
  by_cases hone : range = 1
  · rw [if_neg hzero, if_pos hone]
    decide
  rw [if_neg hzero, if_neg hone]
  rcases Nat.lt_or_ge (2 ^ 32) range with hlarge | hsmall
  · have hbound : ∀ turns n, countBitsFrom range turns n ≤ n + turns := by
      intro turns
      induction turns with
      | zero => exact fun n => Nat.le_refl n
      | succ turns ih =>
          intro n
          rw [countBitsFrom]
          by_cases hmore : 2 ^ n < range
          · rw [if_pos hmore]
            have hrest := ih (n + 1)
            omega
          · rw [if_neg hmore]
            omega
    exact hbound 32 0
  · exact (countBitsFrom_le_iff (by rwa [Nat.zero_add])
      (fun i hi => absurd hi (Nat.not_lt_zero i))).mpr hsmall

/-- `UnsignedDecode` calls `LengthDecode`. -/
theorem unsignedDecode_eq (lower upper : Nat) :
    unsignedDecode lower upper = unsignedDecodeFrom lengthDecode lower upper := by
  have hle := countBits_le (rangeOf lower upper)
  have hwidth : widthDecode octetCountDecode (rangeOf lower upper) =
      widthDecode lengthDecode (rangeOf lower upper) := by
    funext d
    show (if d.aligned = true ∧ _ then _ else _ : Decoder Nat) d =
      (if d.aligned = true ∧ _ then _ else _ : Decoder Nat) d
    by_cases hlong : d.aligned = true ∧ (rangeOf lower upper = 0 ∨ 255 < rangeOf lower upper)
    · rw [if_pos hlong, if_pos hlong]
      by_cases hmany : 16 < countBits (rangeOf lower upper)
      · rw [if_pos hmany, if_pos hmany]
        show Except.bind (octetCountDecode _ _ _ d) _ = Except.bind (lengthDecode _ _ _ d) _
        rw [octetCountDecode_eq hlong.1 (by omega) (by omega)]
      · rw [if_neg hmany, if_neg hmany]
    · rw [if_neg hlong, if_neg hlong]
  rw [unsignedDecode, unsignedDecodeFrom, unsignedDecodeFrom, hwidth]

/-- `UnsignedEncode` calls `LengthEncode`. -/
theorem unsignedEncode_eq (value lower upper : Nat) (s : PerStream) :
    unsignedEncode value lower upper s = unsignedEncodeFrom lengthEncode value lower upper s := by
  have hle := countBits_le (rangeOf lower upper)
  rw [unsignedEncode, unsignedEncodeFrom, unsignedEncodeFrom]
  by_cases heq : lower = upper
  · rw [if_pos heq, if_pos heq]
  rw [if_neg heq, if_neg heq]
  by_cases hlong : s.aligned = true ∧ (rangeOf lower upper = 0 ∨ 255 < rangeOf lower upper)
  · rw [if_pos hlong, if_pos hlong]
    by_cases hmany : 16 < countBits (rangeOf lower upper)
    · rw [if_pos hmany, if_pos hmany, octetCountEncode_eq hlong.1 (by omega) (by omega)]
    · rw [if_neg hmany, if_neg hmany]
  · rw [if_neg hlong, if_neg hlong]

end Recursion

section Length

variable {al : Bool} {lower upper len : Nat}

/-- A length that has an encoding: in a range of at most 65536, or of at most 14 bits. -/
def LengthFits (al : Bool) (lower upper len : Nat) : Prop :=
  if upper ≠ intMax ∧ al = false then lower ≤ len ∧ len ≤ upper ∧ upper ≤ lower + 0xffff
  else if upper < 65536 then lower ≤ len ∧ len ≤ upper
  else len ≤ upper ∧ len < 0x4000

instance : Decidable (LengthFits al lower upper len) := by
  unfold LengthFits
  infer_instance

theorem roundTrips_octetCount {octets : Nat} (hone : 1 ≤ octets) (hle : octets ≤ upper)
    (hlo : 3 ≤ upper) (hhi : upper ≤ 4) :
    RoundTrips true (octetCountEncode octets 1 upper) (octetCountDecode 1 upper len) octets := by
  have hunsigned : RoundTrips true (unsignedEncodeFrom (fun _ _ _ s => s) octets 1 upper)
      (unsignedDecodeFrom (fun _ _ _ => refuse) 1 upper) octets :=
    roundTrips_unsignedFrom hone hle (by omega) fun _ hlarge => absurd hlarge (by omega)
  refine hunsigned.congr (fun s hs => ?_) (fun d hd => ?_)
  · rw [octetCountEncode, lengthEncodeFrom, if_neg (by rw [hs]; exact fun h => Bool.noConfusion h.2),
      if_pos (by omega)]
  · show (if upper ≠ intMax ∧ d.aligned = false then _ else _ : Decoder Nat) d = _
    rw [if_neg (by rw [hd]; exact fun h => Bool.noConfusion h.2), if_pos (by omega)]

/-- A number between its bounds. -/
theorem roundTrips_unsigned {value : Nat} (hlo : lower ≤ value) (hhi : value ≤ upper)
    (hup : upper < 2 ^ 32) :
    RoundTrips al (unsignedEncode value lower upper) (unsignedDecode lower upper) value := by
  apply roundTrips_unsignedFrom hlo hhi hup
  intro hal _ upper octets len hone hle hthree hfour
  rw [hal]
  exact roundTrips_octetCount hone hle hthree hfour

/-- A length of at most 14 bits, without its bounds. -/
theorem roundTrips_lengthBits (hlen : len < 0x4000) (x : Nat) :
    ∃ enc : PerStream → PerStream, RoundTrips al enc (lengthBitsDecode x) len ∧ Strict al enc ∧
      ∀ s, generalLengthEncode len s = enc s.byteAlign := by
  rcases Nat.lt_or_ge len 128 with hshort | hlong
  · -- A clear bit and seven more.
    refine ⟨fun s => s.multiBitEncode len (7 + 1), ?_,
      strict_multiBit al (by decide) (by decide) (by omega), fun s => ?_⟩
    · exact roundTrips_zeroBit al (n := 7) (g := pure) (by rw [if_neg Bool.false_ne_true, bind_pure])
        rfl (by decide) (by omega)
    · rw [generalLengthEncode, if_pos hshort]
  · -- A set bit, a clear bit and fourteen more.
    have hzero : RoundTrips al (fun s => s.multiBitEncode len (14 + 1))
        (singleBitDecode >>= fun longer => if longer then pure x else multiBitDecode 14) len :=
      roundTrips_zeroBit al (g := pure) (by rw [if_neg Bool.false_ne_true, bind_pure]) rfl
        (by decide) (by omega)
    refine ⟨fun s => (s.singleBitEncode true).multiBitEncode len (14 + 1), ?_,
      Strict.after (roundTrips_singleBit al true)
        (strict_multiBit al (by decide) (by decide) (by omega)) fun _ _ hs =>
          onward_multiBitEncode len 15 hs, fun s => ?_⟩
    · exact ((roundTrips_singleBit al true).bind (f := fun long => if long then
          singleBitDecode >>= fun longer => if longer then pure x else multiBitDecode 14
        else multiBitDecode 7) (by rw [if_pos rfl]; exact hzero)).congr (fun _ _ => rfl)
          (fun _ _ => rfl)
    · rw [generalLengthEncode, if_neg (by omega), if_pos hlen]

/-- A length of at most 14 bits. -/
theorem roundTrips_generalLength (hlen : len < 0x4000) (hupper : len ≤ upper) (x : Nat) :
    RoundTrips al (generalLengthEncode len) (generalLengthDecode upper x) len := by
  obtain ⟨enc, hbits, hstrict, henc⟩ := @roundTrips_lengthBits al _ hlen x
  refine ((roundTrips_byteAlign al).bind ((hbits.map (fun len => min len upper)
    (Nat.min_eq_left hupper)).afterEnd hstrict)).congr (fun s _ => henc s) (fun d _ => rfl)

/-- A length that has an encoding. -/
theorem roundTrips_length (h : LengthFits al lower upper len) (hup : upper < 2 ^ 32) (x : Nat) :
    RoundTrips al (lengthEncode len lower upper) (lengthDecode lower upper x) len := by
  rw [LengthFits] at h
  by_cases hunaligned : upper ≠ intMax ∧ al = false
  · -- A field of the width of the range.
    rw [if_pos hunaligned] at h
    obtain ⟨hlo, hhi, hrange⟩ := h
    have hd : len - lower < upper - lower + 1 := by omega
    obtain ⟨hfits, hle, -⟩ := lt_two_pow_countBits hd (by omega)
    rw [← rangeOf_eq (by omega)] at hfits hle
    have hsub : unsignedOf ((len : Int) - lower) = len - lower := by rw [unsignedOf]; omega
    have hvalue : min (unsignedOf (lower + (len - lower : Nat))) upper = len := by
      rw [unsignedOf]
      omega
    refine ((roundTrips_multiBit al hle hfits).map
      (fun base : Nat => min (unsignedOf (lower + base)) upper) hvalue).congr (fun s hs => ?_) (fun d hd => ?_)
    · rw [lengthEncode, lengthEncodeFrom, if_pos (by rw [hs]; exact hunaligned), hsub]
    · show (if upper ≠ intMax ∧ d.aligned = false then _ else _ : Decoder Nat) d = _
      rw [if_pos (by rw [hd]; exact hunaligned), if_neg (by rw [unsignedOf]; omega)]
  rw [if_neg hunaligned] at h
  by_cases hsmall : upper < 65536
  · rw [if_pos hsmall] at h
    refine (@roundTrips_unsigned al _ _ _ h.1 h.2 hup).congr (fun s hs => ?_) (fun d hd => ?_)
    · rw [lengthEncode, lengthEncodeFrom, if_neg (by rw [hs]; exact hunaligned), if_pos hsmall]
    · show (if upper ≠ intMax ∧ d.aligned = false then _ else _ : Decoder Nat) d = _
      rw [if_neg (by rw [hd]; exact hunaligned), if_pos hsmall]
  · rw [if_neg hsmall] at h
    refine (@roundTrips_generalLength al _ _ h.2 h.1 x).congr (fun s hs => ?_) (fun d hd => ?_)
    · rw [lengthEncode, lengthEncodeFrom, if_neg (by rw [hs]; exact hunaligned), if_neg hsmall]
    · show (if upper ≠ intMax ∧ d.aligned = false then _ else _ : Decoder Nat) d = _
      rw [if_neg (by rw [hd]; exact hunaligned), if_neg hsmall]

/-- A length without bounds. -/
theorem lengthFits_general (hlen : len < 0x4000) : LengthFits al 0 intMax len := by
  have hmax : intMax = 2147483647 := rfl
  rw [LengthFits, if_neg (fun h => h.1 rfl), if_neg (by omega)]
  omega

/-- A small number. -/
theorem roundTrips_smallUnsigned {value : Nat} (hv : value < 2 ^ 32) :
    RoundTrips al (smallUnsignedEncode value) smallUnsignedDecode value := by
  rcases Nat.lt_or_ge value 64 with hsmall | hlarge
  · refine (@roundTrips_zeroBit _ value 6 al _ pure value ?_ rfl
      (by decide) (by omega)).congr (fun s _ => ?_) (fun d _ => rfl)
    · rw [if_neg Bool.false_ne_true, bind_pure]
    · rw [smallUnsignedEncode, if_pos hsmall]
  -- The octets that the number needs, counted.
  obtain ⟨len, hlen⟩ : ∃ len, len = if value < 256 then 1 else if value < 65536 then 2
      else if value < 0x1000000 then 3 else 4 := ⟨_, rfl⟩
  have hfits : value < 2 ^ (len * 8) ∧ 1 ≤ len ∧ len ≤ 4 := by
    rw [hlen]
    by_cases hone : value < 256
    · rw [if_pos hone]; omega
    by_cases htwo : value < 65536
    · rw [if_neg hone, if_pos htwo]; omega
    by_cases hthree : value < 0x1000000
    · rw [if_neg hone, if_neg htwo, if_pos hthree]; omega
    · rw [if_neg hone, if_neg htwo, if_neg hthree]; omega
  have hbits : unsignedOf ((len : Int) * 8) = len * 8 := by rw [unsignedOf]; omega
  have hcount := @roundTrips_length al _ _ _ (lengthFits_general (by omega : len < 0x4000))
    (by decide) 0
  have hnumber := roundTrips_multiBit al (by omega : len * 8 ≤ 32) hfits.1
  rw [← hbits] at hnumber
  refine ((roundTrips_singleBit al true).bind (f := fun large => if large then do
      let len ← lengthDecode 0 intMax 0
      modify PerStream.byteAlign
      multiBitDecode (unsignedOf ((len : Nat) * 8))
    else multiBitDecode 6) (by
      rw [if_pos rfl]
      exact hcount.bind ((roundTrips_byteAlign al).bind (f := fun _ => multiBitDecode _)
        hnumber))).congr (fun s _ => ?_) (fun d _ => rfl)
  rw [smallUnsignedEncode, if_neg (by omega), ← hlen, hbits]

end Length

end Asn

end CryptoOpal

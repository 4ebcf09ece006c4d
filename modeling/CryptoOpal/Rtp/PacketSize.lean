import CryptoOpal.Lib.Reads

/-!
# The Parts of a Received RTP Packet

`RTP_DataFrame::SetPacketSize`: how a datagram of some size is split into
header, payload and padding.

The split goes wrong in four ways. The length of the header extension is read
before the datagram is known to be that long. Without padding, the padding of
the packet before stays. With padding, the payload is one octet short of what
is in front of the octet that was taken for the length of the padding, however
long the padding is; and an octet that is too large for a length is skipped,
as the source says for systems that send more at the end of a packet.

## Main definitions

* `PacketSizes`: The sizes of the parts.
* `setPacketSize`: `SetPacketSize`, with what it reads.
* `ConsistentSplit`: What a split should be.
* `SplitsWell`: The condition.

## Theorems

* `paddingLoop_spec`: What the search for the padding finds.
* `within_setPacketSize`: When all reads are in the datagram.
* `setPacketSize_consistent_iff`: When the split is consistent.
-/

namespace CryptoOpal

namespace Rtp

open Lib (Octets Traced fetch ofBigEndian)

/-- `m_headerSize`, `m_payloadSize` and `m_paddingSize`. -/
structure PacketSizes where
  headerSize : Int
  payloadSize : Int
  paddingSize : Int
  deriving DecidableEq

section Model

/-- `RTP_DataFrame::MinHeaderSize`. -/
def rtpMinHeader : Nat := 12

variable (theArray : Nat → UInt8)

/-- `theArray[i]`. -/
def octetAt (i : Nat) : Traced UInt8 := (·.getD 0 0) <$> fetch theArray i 1

/-- `GetContribSrcCount`. -/
def getContribSrcCount : Traced Nat := (fun b => (b &&& 0xf).toNat) <$> octetAt theArray 0

/-- `GetExtension`. -/
def getExtension : Traced Bool := (fun b => b &&& 0x10 != 0) <$> octetAt theArray 0

/-- `GetPadding`. -/
def getPadding : Traced Bool := (fun b => b &&& 0x20 != 0) <$> octetAt theArray 0

/-- `GetExtensionSizeDWORDs`. -/
def getExtensionSizeDWORDs : Traced Nat := do
  if ← getExtension theArray then
    let count ← getContribSrcCount theArray
    ofBigEndian <$> fetch theArray (rtpMinHeader + 4 * count + 2) 2
  else pure 0

/-- The header size that the octets of the header give. -/
def indicatedHeaderSize : Traced Nat := do
  let count ← getContribSrcCount theArray
  if ← getExtension theArray then
    let words ← getExtensionSizeDWORDs theArray
    pure (rtpMinHeader + 4 * count + (words + 1) * 4)
  else pure (rtpMinHeader + 4 * count)

/-- The loop that looks for the padding, with the position in front of which it looks. The results
are the position of the length and the length. -/
def paddingLoop (headerSize : Nat) : Nat → Traced (Option (Nat × Nat))
  | 0 => pure none
  | pos + 1 =>
    if pos + 1 ≤ headerSize then pure none
    else do
      let padding ← octetAt theArray pos
      if pos - headerSize < padding.toNat then paddingLoop headerSize pos
      else pure (some (pos, padding.toNat))

/-- `RTP_DataFrame::SetPacketSize`. -/
def setPacketSize (sizes : PacketSizes) (sz : Int) : Traced (PacketSizes × Bool) :=
  if sz < rtpMinHeader then pure (⟨sizes.headerSize, 0, 0⟩, false)
  else do
    let headerSize ← indicatedHeaderSize theArray
    if sz < headerSize then pure (⟨headerSize, 0, 0⟩, false)
    else if ← getPadding theArray then
      match ← paddingLoop theArray headerSize sz.toNat with
      | none => pure (⟨headerSize, 0, 0⟩, false)
      | some found => pure (⟨headerSize, (found.1 : Int) - headerSize - 1, found.2⟩, true)
    else pure (⟨headerSize, sz - headerSize, sizes.paddingSize⟩, true)

end Model

section Spec

variable (theArray : Nat → UInt8)

/-- The CC field. -/
def csrcCount : Nat := (theArray 0 &&& 0xf).toNat

/-- The X bit. -/
def HasExtension : Prop := theArray 0 &&& 0x10 ≠ 0

/-- The P bit. -/
def HasPadding : Prop := theArray 0 &&& 0x20 ≠ 0

instance : Decidable (HasExtension theArray) := inferInstanceAs (Decidable (_ ≠ _))

instance : Decidable (HasPadding theArray) := inferInstanceAs (Decidable (_ ≠ _))

/-- Where the header extension begins. -/
def extensionStart : Nat := 12 + 4 * csrcCount theArray

/-- The length field of the header extension. -/
def extensionWords : Nat :=
  (theArray (extensionStart theArray + 2)).toNat * 256 +
    (theArray (extensionStart theArray + 3)).toNat

/-- Fixed part, contributing sources and header extension. -/
def headerLength : Nat :=
  extensionStart theArray + if HasExtension theArray then 4 + 4 * extensionWords theArray else 0

/-- The octets of the datagram only are read, and a split that is taken for good adds up to it. -/
structure ConsistentSplit (sz : Int) (result : Traced (PacketSizes × Bool)) : Prop where
  reads : result.Within 0 sz.toNat
  nonneg : result.value.2 = true → 0 ≤ result.value.1.headerSize ∧
    0 ≤ result.value.1.payloadSize ∧ 0 ≤ result.value.1.paddingSize
  sum : result.value.2 = true → result.value.1.headerSize + result.value.1.payloadSize +
    result.value.1.paddingSize = sz
  padding : result.value.2 = true → HasPadding theArray →
    result.value.1.paddingSize = (theArray (sz.toNat - 1)).toNat
  header : result.value.2 = true → result.value.1.headerSize = headerLength theArray

/-- The condition: the length of the extension is inside of the datagram. Without padding the last
packet had none. With padding it is two octets behind a payload, or every octet behind the header
is too large for the length of a padding. -/
structure SplitsWell (sizes : PacketSizes) (sz : Int) : Prop where
  extension : 12 ≤ sz → HasExtension theArray → extensionStart theArray + 4 ≤ sz
  unpadded : headerLength theArray ≤ sz → ¬ HasPadding theArray → sizes.paddingSize = 0
  padded : headerLength theArray ≤ sz → HasPadding theArray →
    theArray (sz.toNat - 1) = 2 ∧ headerLength theArray + 3 ≤ sz ∨
      ∀ pos, headerLength theArray ≤ pos → pos < sz.toNat →
        pos - headerLength theArray < (theArray pos).toNat

end Spec

section Values

variable (theArray : Nat → UInt8)

theorem value_map {α β : Type} (f : α → β) (x : Traced α) : (f <$> x).value = f x.value := rfl

theorem value_octetAt (i : Nat) : (octetAt theArray i).value = theArray i :=
  Lib.getD_fetch theArray i Nat.one_pos

theorem value_getContribSrcCount : (getContribSrcCount theArray).value = csrcCount theArray := by
  rw [getContribSrcCount, value_map, value_octetAt]
  rfl

theorem value_getExtension :
    (getExtension theArray).value = decide (HasExtension theArray) := by
  rw [getExtension, value_map, value_octetAt]
  exact (decide_not ..).symm

theorem value_getPadding : (getPadding theArray).value = decide (HasPadding theArray) := by
  rw [getPadding, value_map, value_octetAt]
  exact (decide_not ..).symm

theorem value_getExtensionSizeDWORDs (h : HasExtension theArray) :
    (getExtensionSizeDWORDs theArray).value = extensionWords theArray := by
  rw [getExtensionSizeDWORDs, Lib.value_bind, value_getExtension, decide_eq_true h, if_pos rfl,
    Lib.value_bind, value_map, value_getContribSrcCount]
  have hfetch : (fetch theArray (extensionStart theArray + 2) 2).value =
      [theArray (extensionStart theArray + 2), theArray (extensionStart theArray + 3)] := rfl
  change ofBigEndian (fetch theArray (extensionStart theArray + 2) 2).value = _
  rw [hfetch]
  simp only [ofBigEndian, extensionWords, List.length_cons, List.length_nil]
  omega

theorem value_indicatedHeaderSize :
    (indicatedHeaderSize theArray).value = headerLength theArray := by
  rw [indicatedHeaderSize, Lib.value_bind, Lib.value_bind, value_getContribSrcCount,
    value_getExtension, headerLength]
  by_cases h : HasExtension theArray
  · rw [decide_eq_true h, if_pos rfl, if_pos h, Lib.value_bind, value_getExtensionSizeDWORDs _ h,
      Lib.value_pure]
    unfold extensionStart rtpMinHeader
    omega
  · rw [decide_eq_false h, if_neg Bool.false_ne_true, if_neg h]
    rfl

end Values

section Reads

variable (theArray : Nat → UInt8) {n : Nat}

theorem within_octetAt (i : Nat) : (octetAt theArray i).Within 0 n ↔ i < n := by
  rw [octetAt, Lib.within_map, Lib.within_fetch_pos _ Nat.one_pos]
  exact and_iff_right (Nat.zero_le i)

theorem within_getContribSrcCount : (getContribSrcCount theArray).Within 0 n ↔ 0 < n := by
  rw [getContribSrcCount, Lib.within_map, within_octetAt]

theorem within_getExtension : (getExtension theArray).Within 0 n ↔ 0 < n := by
  rw [getExtension, Lib.within_map, within_octetAt]

theorem within_getPadding : (getPadding theArray).Within 0 n ↔ 0 < n := by
  rw [getPadding, Lib.within_map, within_octetAt]

/-- The length of the extension is read at its place. -/
theorem within_getExtensionSizeDWORDs (h : HasExtension theArray) :
    (getExtensionSizeDWORDs theArray).Within 0 n ↔ extensionStart theArray + 4 ≤ n := by
  rw [getExtensionSizeDWORDs, Lib.within_bind, within_getExtension, value_getExtension,
    decide_eq_true h, if_pos rfl, Lib.within_bind, within_getContribSrcCount,
    value_getContribSrcCount, Lib.within_map, Lib.within_fetch_pos _ Nat.two_pos]
  unfold extensionStart rtpMinHeader
  omega

theorem within_indicatedHeaderSize (hn : 0 < n) : (indicatedHeaderSize theArray).Within 0 n ↔
    (HasExtension theArray → extensionStart theArray + 4 ≤ n) := by
  rw [indicatedHeaderSize, Lib.within_bind, within_getContribSrcCount, Lib.within_bind,
    within_getExtension, value_getExtension]
  by_cases h : HasExtension theArray
  · rw [decide_eq_true h, if_pos rfl, Lib.within_bind, within_getExtensionSizeDWORDs _ h]
    exact ⟨fun hall _ => hall.2.2.1, fun hle => ⟨hn, hn, hle h, Lib.within_pure _⟩⟩
  · rw [decide_eq_false h, if_neg Bool.false_ne_true]
    exact iff_of_true ⟨hn, hn, Lib.within_pure _⟩ (fun hyes => absurd hyes h)

/-- The search goes backwards, from the end of the datagram to the header. -/
theorem within_paddingLoop (headerSize pos : Nat) (h : pos ≤ n) :
    (paddingLoop theArray headerSize pos).Within 0 n := by
  induction pos with
  | zero => exact Lib.within_pure _
  | succ pos ih =>
      unfold paddingLoop
      split
      · exact Lib.within_pure _
      · rw [Lib.within_bind, within_octetAt]
        refine ⟨h, ?_⟩
        split
        · exact ih (Nat.le_of_succ_le h)
        · exact Lib.within_pure _

end Reads

section Padding

variable (theArray : Nat → UInt8) {headerSize pos : Nat}

/-- The search fails when every octet is too large for a length. -/
theorem paddingLoop_eq_none (h : (paddingLoop theArray headerSize pos).value = none) (i : Nat)
    (hlo : headerSize ≤ i) (hhi : i < pos) : i - headerSize < (theArray i).toNat := by
  induction pos with
  | zero => exact absurd hhi (Nat.not_lt_zero i)
  | succ pos ih =>
      unfold paddingLoop at h
      rw [if_neg (by omega), Lib.value_bind, value_octetAt] at h
      split at h
      · rename_i hlarge
        rcases Nat.eq_or_lt_of_le (Nat.le_of_lt_succ hhi) with rfl | hhi
        · exact hlarge
        · exact ih h hhi
      · exact (nomatch h)

/-- The search ends at the last octet that is not too large for a length. -/
theorem paddingLoop_eq_some {place padding : Nat}
    (h : (paddingLoop theArray headerSize pos).value = some (place, padding)) :
    padding = (theArray place).toNat ∧ headerSize ≤ place ∧ place < pos ∧ headerSize + padding ≤ place ∧
      ∀ i, place < i → i < pos → i - headerSize < (theArray i).toNat := by
  induction pos with
  | zero => exact (nomatch h)
  | succ pos ih =>
      unfold paddingLoop at h
      split at h
      · exact (nomatch h)
      · rename_i hhead
        rw [Lib.value_bind, value_octetAt] at h
        split at h
        · rename_i hlarge
          rcases ih h with ⟨hpadding, hlo, hhi, hle, hall⟩
          refine ⟨hpadding, hlo, Nat.lt_succ_of_lt hhi, hle, fun i hi hpos => ?_⟩
          rcases Nat.eq_or_lt_of_le (Nat.le_of_lt_succ hpos) with rfl | hpos
          · exact hlarge
          · exact hall i hi hpos
        · rename_i hsmall
          cases h
          exact ⟨rfl, by omega, by omega, by omega, fun i hi hpos => absurd hpos (by omega)⟩

end Padding

section Split

variable {theArray : Nat → UInt8} {sizes : PacketSizes} {sz : Int}

theorem le_headerLength (theArray : Nat → UInt8) : 12 ≤ headerLength theArray := by
  unfold headerLength extensionStart
  omega

/-- A datagram that is shorter than a header. -/
theorem setPacketSize_short (h : sz < 12) :
    setPacketSize theArray sizes sz = pure (⟨sizes.headerSize, 0, 0⟩, false) := if_pos h

/-- What is returned for all others. -/
theorem value_setPacketSize (h : 12 ≤ sz) : (setPacketSize theArray sizes sz).value =
    if sz < headerLength theArray then (⟨headerLength theArray, 0, 0⟩, false)
    else if HasPadding theArray then
      match (paddingLoop theArray (headerLength theArray) sz.toNat).value with
      | none => (⟨headerLength theArray, 0, 0⟩, false)
      | some found =>
        (⟨headerLength theArray, (found.1 : Int) - headerLength theArray - 1, found.2⟩, true)
    else (⟨headerLength theArray, sz - headerLength theArray, sizes.paddingSize⟩, true) := by
  have hshort : ¬ sz < rtpMinHeader := Int.not_lt.2 h
  rw [setPacketSize, if_neg hshort, Lib.value_bind, value_indicatedHeaderSize]
  split
  · rfl
  · rw [Lib.value_bind, value_getPadding]
    by_cases hpad : HasPadding theArray
    · rw [decide_eq_true hpad, if_pos rfl, if_pos hpad, Lib.value_bind]
      cases (paddingLoop theArray (headerLength theArray) sz.toNat).value with
      | none => rfl
      | some found => rfl
    · rw [decide_eq_false hpad, if_neg Bool.false_ne_true, if_neg hpad, Lib.value_pure]

/-- All that is read is in the datagram as soon as the length of the extension is. -/
theorem within_setPacketSize (h : 12 ≤ sz) :
    (setPacketSize theArray sizes sz).Within 0 sz.toNat ↔
      (HasExtension theArray → extensionStart theArray + 4 ≤ sz) := by
  have hshort : ¬ sz < rtpMinHeader := Int.not_lt.2 h
  have hcast : extensionStart theArray + 4 ≤ sz.toNat ↔ (extensionStart theArray : Int) + 4 ≤ sz := by
    omega
  rw [setPacketSize, if_neg hshort, Lib.within_bind,
    within_indicatedHeaderSize _ (by omega : 0 < sz.toNat), value_indicatedHeaderSize, hcast]
  refine and_iff_left ?_
  split
  · exact Lib.within_pure _
  · rw [Lib.within_bind, within_getPadding]
    refine ⟨by omega, ?_⟩
    split
    · rw [Lib.within_bind]
      refine ⟨within_paddingLoop _ _ _ (Nat.le_refl _), ?_⟩
      split
      · exact Lib.within_pure _
      · exact Lib.within_pure _
    · exact Lib.within_pure _

/-- A split that is not taken for good. -/
theorem consistent_of_false {result : Traced (PacketSizes × Bool)} (h : result.value.2 = false)
    (hreads : result.Within 0 sz.toNat) : ConsistentSplit theArray sz result := by
  have hno : result.value.2 ≠ true := by
    rw [h]
    decide
  exact ⟨hreads, fun hyes => absurd hyes hno, fun hyes => absurd hyes hno,
    fun hyes => absurd hyes hno, fun hyes => absurd hyes hno⟩

/-- The split of a datagram with padding. -/
theorem padded_consistent_iff {result : Traced (PacketSizes × Bool)} (hlong : 12 ≤ sz)
    (hlarge : headerLength theArray ≤ sz) (hpad : HasPadding theArray)
    (hreads : result.Within 0 sz.toNat ↔
      (HasExtension theArray → extensionStart theArray + 4 ≤ sz))
    (hvalue : result.value =
      match (paddingLoop theArray (headerLength theArray) sz.toNat).value with
      | none => (⟨headerLength theArray, 0, 0⟩, false)
      | some found =>
        (⟨headerLength theArray, (found.1 : Int) - headerLength theArray - 1, found.2⟩, true)) :
    ConsistentSplit theArray sz result ↔ SplitsWell theArray sizes sz := by
  cases hloop : (paddingLoop theArray (headerLength theArray) sz.toNat).value with
  | none =>
      rw [hloop] at hvalue
      constructor
      · exact fun h => ⟨fun _ => hreads.1 h.reads, fun _ hno => absurd hpad hno,
          fun _ _ => Or.inr (paddingLoop_eq_none theArray hloop)⟩
      · exact fun h => consistent_of_false (by rw [hvalue]) (hreads.2 (h.extension hlong))
  | some found =>
      rcases found with ⟨pos, padding⟩
      rw [hloop] at hvalue
      rcases paddingLoop_eq_some theArray hloop with ⟨hpadding, hlo, hhi, hle, hall⟩
      constructor
      · intro h
        have hsum := h.sum (by rw [hvalue])
        have hlast := h.padding (by rw [hvalue]) hpad
        rw [hvalue] at hsum hlast
        simp only at hsum hlast
        -- An octet that was skipped is larger than the length that was found.
        have hpos : pos = sz.toNat - 1 := by
          by_contra hne
          have hskipped := hall (sz.toNat - 1) (by omega) (by omega)
          omega
        have htwo : (theArray (sz.toNat - 1)).toNat = (2 : UInt8).toNat := by
          rw [← hpos, ← hpadding]
          change padding = 2
          omega
        refine ⟨fun _ => hreads.1 h.reads, fun _ hno => absurd hpad hno, fun _ _ => Or.inl ?_⟩
        refine ⟨UInt8.toNat_inj.1 htwo, ?_⟩
        have hsize : padding = 2 := by omega
        omega
      · intro h
        rcases h.padded hlarge hpad with ⟨htwo, hroom⟩ | hnone
        · have hpos : pos = sz.toNat - 1 := by
            by_contra hne
            have hskipped := hall (sz.toNat - 1) (by omega) (by omega)
            rw [htwo] at hskipped
            change sz.toNat - 1 - headerLength theArray < 2 at hskipped
            omega
          have hsize : padding = 2 := by
            rw [hpadding, hpos, htwo]
            rfl
          refine ⟨hreads.2 (h.extension hlong), ?_, ?_, ?_, ?_⟩
          all_goals
            intro _
            rw [hvalue]
          · simp only
            omega
          · simp only
            omega
          · intro _
            rw [htwo, hsize]
            rfl
        · have hskipped := hnone pos hlo hhi
          rw [← hpadding] at hskipped
          omega

/-- When the split of a datagram is consistent. -/
theorem setPacketSize_consistent_iff (theArray : Nat → UInt8) (sizes : PacketSizes) (sz : Int) :
    ConsistentSplit theArray sz (setPacketSize theArray sizes sz) ↔
      SplitsWell theArray sizes sz := by
  have hhead := le_headerLength theArray
  by_cases hshort : sz < 12
  · rw [setPacketSize_short hshort]
    exact iff_of_true (consistent_of_false rfl (Lib.within_pure _))
      ⟨fun h => by omega, fun h => by omega, fun h => by omega⟩
  · have hlong : 12 ≤ sz := by omega
    have hreads := @within_setPacketSize theArray sizes sz hlong
    have hvalue := @value_setPacketSize theArray sizes sz hlong
    by_cases hsmall : sz < headerLength theArray
    · rw [if_pos hsmall] at hvalue
      constructor
      · exact fun h => ⟨fun _ => hreads.1 h.reads, fun h => by omega, fun h => by omega⟩
      · exact fun h => consistent_of_false (by rw [hvalue]) (hreads.2 (h.extension hlong))
    · rw [if_neg hsmall] at hvalue
      by_cases hpad : HasPadding theArray
      · rw [if_pos hpad] at hvalue
        exact padded_consistent_iff hlong (by omega) hpad hreads hvalue
      · rw [if_neg hpad] at hvalue
        constructor
        · intro h
          have hsum := h.sum (by rw [hvalue])
          rw [hvalue] at hsum
          exact ⟨fun _ => hreads.1 h.reads, fun _ _ => by simp only at hsum; omega,
            fun _ hyes => absurd hyes hpad⟩
        · intro h
          have hzero := h.unpadded (by omega) hpad
          refine ⟨hreads.2 (h.extension hlong), ?_, ?_, fun _ hyes => absurd hyes hpad, ?_⟩
          all_goals
            intro _
            rw [hvalue]
          · simp only
            omega
          · simp only
            omega

/-- Thirteen octets with the P bit, of which the last is zero. -/
def emptyPadding : Nat → UInt8 := fun i => if i = 0 then 0xa0 else 0

/-- The payload of a packet with padding of length zero has a negative size. -/
theorem empty_padding_payload :
    ¬ ConsistentSplit emptyPadding 13 (setPacketSize emptyPadding ⟨12, 0, 0⟩ 13) := by
  intro h
  have hpayload := (h.nonneg rfl).2.1
  exact absurd hpayload (by decide)

end Split

end Rtp

end CryptoOpal

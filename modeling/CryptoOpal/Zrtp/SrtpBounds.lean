import CryptoOpal.Zrtp.Engine

/-!
# Where libzrtp's SRTP Looks in a Packet

The four packet functions compute the places they work on from the length of
the packet and from its header: the encrypted portion behind the CSRCs and the
extension, the tag, and the trailer of an RTCP packet. The lengths are
unsigned, and there is one check, that the packet has a fixed header.

A packet is part of a larger memory here, so that what is read outside of it
is read from somewhere. A length is kept with its exact value, which an
unsigned number may not have (`Span.NoWrap`).

The places of RTCP that is sent are always sound. Those of the others are if
the header, with all it announces, leaves room for itself and for the tag
(`spans_sound_iff`). A shorter packet that came from the network makes the
length of the encrypted portion wrap around.

## Main definitions

* `memoryOf`: A packet in memory.
* `Span`: A place, by its offset and its length.
* `Path`, `spans`: The places that a function computes.
* `Passed`: The packets that a function is called with.
* `HeaderFits`, `Fits`: The packets that are long enough.

## Theorems

* `encOffset_eq`: The offset of the encrypted portion, if the header fits.
* `header_sound_iff`: The places that depend on the header.
* `spans_sound_iff`: When all the places are inside of the packet.
-/

namespace CryptoOpal

namespace Zrtp

namespace Engine

open Lib (Octets slice ofBigEndian)

/-- The memory that a packet is in, from its first octet on. -/
def memoryOf (packet : Octets) (outside : Int → UInt8) (i : Int) : UInt8 :=
  if 0 ≤ i ∧ i < packet.length then packet.getD i.toNat 0 else outside i

/-- A place that a function computes. -/
structure Span where
  offset : Int
  exact : Int
  deriving DecidableEq

/-- The length as an `unsigned int` has it. -/
def Span.octets (s : Span) : Nat := (s.exact % 2 ^ 32).toNat

/-- The length did not wrap around. -/
def Span.NoWrap (s : Span) : Prop := (s.octets : Int) = s.exact

/-- The place is inside of this many octets. -/
def Span.Sound (limit : Nat) (s : Span) : Prop :=
  s.NoWrap ∧ 0 ≤ s.offset ∧ s.offset + s.octets ≤ limit

instance (s : Span) : Decidable s.NoWrap := inferInstanceAs (Decidable (_ = _))

instance (limit : Nat) (s : Span) : Decidable (s.Sound limit) :=
  inferInstanceAs (Decidable (_ ∧ _))

/-- The number of CSRCs, `hdr->cc`. -/
def csrcCount (memory : Int → UInt8) : Nat := (memory 0).toNat % 16

/-- There is an extension, `hdr->x`. -/
def hasExtension (memory : Int → UInt8) : Bool := (memory 0).toNat / 16 % 2 = 1

/-- The end of the CSRCs. -/
def csrcEnd (memory : Int → UInt8) : Nat := octetsInRtpHeader + 4 * csrcCount memory

/-- `xtn_hdr->length`, behind two octets of the profile. -/
def extensionLength (memory : Int → UInt8) : Nat :=
  (memory (csrcEnd memory + 2)).toNat * 256 + (memory (csrcEnd memory + 3)).toNat

/-- `enc_start`, counted in octets from the header. -/
def encOffset (memory : Int → UInt8) : Nat :=
  if hasExtension memory then csrcEnd memory + 4 * (extensionLength memory + 1)
  else csrcEnd memory

/-- The field of the extension that is read, if there is one. -/
def extensionSpans (memory : Int → UInt8) : List Span :=
  if hasExtension memory then [⟨csrcEnd memory + 2, 2⟩] else []

/-- The four packet functions. -/
inductive Path where
  | protect
  | unprotect
  | protectRtcp
  | unprotectRtcp
  deriving DecidableEq

/-- The places a function computes for a packet of this length: the header it
    reads, the encrypted portion, the authenticated range, the tag, the trailer,
    and the packet it leaves. -/
def spans (memory : Int → UInt8) (length tagLen : Nat) : Path → List Span
  | .protect => extensionSpans memory ++
      [⟨0, octetsInRtpHeader⟩, ⟨encOffset memory, length - encOffset memory⟩, ⟨0, length⟩,
        ⟨length, tagLen⟩, ⟨0, length + tagLen⟩]
  | .unprotect => extensionSpans memory ++
      [⟨0, octetsInRtpHeader⟩, ⟨encOffset memory, length - tagLen - encOffset memory⟩,
        ⟨0, length - tagLen⟩, ⟨length - tagLen, tagLen⟩]
  | .protectRtcp =>
      [⟨0, octetsInRtcpHeader⟩, ⟨octetsInRtcpHeader, length - octetsInRtcpHeader⟩,
        ⟨length, rtcpTrailerSize⟩, ⟨0, length + rtcpTrailerSize⟩, ⟨length + rtcpTrailerSize, tagLen⟩,
        ⟨0, length + (tagLen + rtcpTrailerSize)⟩]
  | .unprotectRtcp =>
      [⟨0, octetsInRtcpHeader⟩,
        ⟨octetsInRtcpHeader, length - (octetsInRtcpHeader + tagLen + rtcpTrailerSize)⟩,
        ⟨length - (tagLen + rtcpTrailerSize), rtcpTrailerSize⟩, ⟨0, length - tagLen⟩,
        ⟨length - tagLen, tagLen⟩, ⟨0, length - (tagLen + rtcpTrailerSize)⟩]

/-- The packet, with what the sender appends. -/
def limit (length tagLen : Nat) : Path → Nat
  | .protect => length + tagLen
  | .protectRtcp => length + rtcpTrailerSize + tagLen
  | .unprotect | .unprotectRtcp => length

/-- The packets that `zrtp_process_rtp`, `zrtp_process_srtp` and those for RTCP
    pass on. -/
def Passed (packet : Octets) : Path → Prop
  | .protect => rtpHdrSize ≤ packet.length ∧ getType packet = .none
  | .unprotect => rtpHdrSize < packet.length ∧ getType packet = .none
  | .protectRtcp | .unprotectRtcp => rtcpHdrSize ≤ packet.length

/-- The header, with the CSRCs and the extension that it announces, takes no
    more than this many octets of the packet. -/
def HeaderFits (packet : Octets) (room : Nat) : Prop :=
  let start := octetsInRtpHeader + 4 * ((packet.getD 0 0).toNat % 16)
  start ≤ room ∧
    ((packet.getD 0 0).toNat / 16 % 2 = 1 →
      start + 4 ≤ room ∧ start + 4 * (ofBigEndian (slice packet (start + 2) 2) + 1) ≤ room)

/-- The packet is long enough for the function, and its length with what is
    appended is still an `unsigned int`. -/
def Fits (packet : Octets) (tagLen : Nat) : Path → Prop
  | .protect => HeaderFits packet packet.length ∧ packet.length + tagLen < 2 ^ 32
  | .unprotect => HeaderFits packet (packet.length - tagLen)
  | .protectRtcp => packet.length + (tagLen + rtcpTrailerSize) < 2 ^ 32
  | .unprotectRtcp => octetsInRtcpHeader + tagLen + rtcpTrailerSize ≤ packet.length

section

variable {packet : Octets} {outside : Int → UInt8}

/-- Inside of the packet the memory is the packet. -/
theorem memoryOf_of_lt {i : Nat} (h : i < packet.length) :
    memoryOf packet outside i = packet.getD i 0 := by
  have hin : (0 : Int) ≤ i ∧ (i : Int) < packet.length := ⟨Int.natCast_nonneg i, by omega⟩
  rw [memoryOf, if_pos hin, Int.toNat_natCast]

/-- Two octets of a packet as a number. -/
theorem ofBigEndian_slice_two {off : Nat} (h : off + 1 < packet.length) :
    ofBigEndian (slice packet off 2) =
      (packet.getD off 0).toNat * 256 + (packet.getD (off + 1) 0).toNat := by
  have hdrop : packet.drop off =
      packet[off] :: packet[off + 1] :: packet.drop (off + 1 + 1) := by
    rw [List.drop_eq_getElem_cons (by omega), List.drop_eq_getElem_cons h]
  have hfirst : packet.getD off 0 = packet[off] := by
    rw [List.getD_eq_getElem?_getD, List.getElem?_eq_getElem, Option.getD_some]
  have hsecond : packet.getD (off + 1) 0 = packet[off + 1] := by
    rw [List.getD_eq_getElem?_getD, List.getElem?_eq_getElem, Option.getD_some]
  rw [slice, hdrop, hfirst, hsecond]
  simp only [List.take_succ_cons, List.take_zero, ofBigEndian, List.length_cons, List.length_nil,
    Nat.pow_zero, Nat.pow_one, Nat.zero_add, Nat.mul_one, Nat.add_zero]

theorem csrcEnd_eq (h : 0 < packet.length) :
    csrcEnd (memoryOf packet outside) =
      octetsInRtpHeader + 4 * ((packet.getD 0 0).toNat % 16) := by
  have hfirst := @memoryOf_of_lt packet outside 0 h
  rw [csrcEnd, csrcCount, ← hfirst]
  rfl

theorem hasExtension_iff (h : 0 < packet.length) :
    hasExtension (memoryOf packet outside) = true ↔ (packet.getD 0 0).toNat / 16 % 2 = 1 := by
  have hfirst := @memoryOf_of_lt packet outside 0 h
  rw [hasExtension, decide_eq_true_eq, ← hfirst]
  rfl

/-- If the extension header is inside of the packet, its length is. -/
theorem extensionLength_eq
    (hin : csrcEnd (memoryOf packet outside) + 4 ≤ packet.length) :
    extensionLength (memoryOf packet outside) =
      ofBigEndian (slice packet (csrcEnd (memoryOf packet outside) + 2) 2) := by
  obtain ⟨start, hstart⟩ : ∃ start, start = csrcEnd (memoryOf packet outside) := ⟨_, rfl⟩
  rw [← hstart] at hin
  have hfirst := @memoryOf_of_lt packet outside (start + 2) (by omega)
  have hsecond := @memoryOf_of_lt packet outside (start + 3) (by omega)
  rw [extensionLength, ← hstart, ofBigEndian_slice_two (by omega), ← hfirst, ← hsecond]
  rfl

/-- The offset of the encrypted portion is no more than this if and only if the
    header fits. -/
theorem encOffset_le_iff (h : 0 < packet.length) {room : Nat} (hroom : room ≤ packet.length) :
    encOffset (memoryOf packet outside) ≤ room ↔ HeaderFits packet room := by
  rw [HeaderFits, encOffset, ← @csrcEnd_eq packet outside h]
  by_cases hext : hasExtension (memoryOf packet outside) = true
  · have hbit := (hasExtension_iff h).mp hext
    simp only [if_pos hext, hbit, forall_const]
    by_cases hin : csrcEnd (memoryOf packet outside) + 4 ≤ room
    · rw [extensionLength_eq (by omega)]
      omega
    · -- The extension header alone is too long.
      constructor
      · intro hle
        omega
      · intro hfits
        exact absurd hfits.2.1 hin
  · have hbit : ¬ (packet.getD 0 0).toNat / 16 % 2 = 1 :=
      fun hbit => hext ((hasExtension_iff h).mpr hbit)
    simp only [if_neg hext, hbit, false_implies, and_true]

/-- If the header fits, the offset is that of `encStart`. -/
theorem encOffset_eq (h : 0 < packet.length) (hfits : HeaderFits packet packet.length) :
    encOffset (memoryOf packet outside) = encStart packet := by
  have hcsrc := @csrcEnd_eq packet outside h
  simp only [encOffset, encStart, ← hcsrc]
  by_cases hext : hasExtension (memoryOf packet outside) = true
  · have hbit := (hasExtension_iff h).mp hext
    have hin := (hfits.2 hbit).1
    rw [← hcsrc] at hin
    rw [if_pos hext, if_pos hbit, extensionLength_eq hin]
  · rw [if_neg hext, if_neg fun hbit => hext ((hasExtension_iff h).mpr hbit)]

end

/-- A length that is not negative and fits does not wrap. -/
theorem noWrap_iff (s : Span) : s.NoWrap ↔ 0 ≤ s.exact ∧ s.exact < 2 ^ 32 := by
  rw [Span.NoWrap, Span.octets]
  omega

theorem sound_iff (limit : Nat) (s : Span) :
    s.Sound limit ↔ 0 ≤ s.exact ∧ s.exact < 2 ^ 32 ∧ 0 ≤ s.offset ∧ s.offset + s.exact ≤ limit := by
  rw [Span.Sound, noWrap_iff]
  constructor
  · intro h
    have hsame := (noWrap_iff s).mpr h.1
    rw [Span.NoWrap] at hsame
    omega
  · intro h
    have hsame := (noWrap_iff s).mpr ⟨h.1, h.2.1⟩
    rw [Span.NoWrap] at hsame
    omega

/-- The field of the extension lies before the encrypted portion. -/
theorem extensionSpans_sound {memory : Int → UInt8} {length : Nat}
    (h : encOffset memory ≤ length) : ∀ s ∈ extensionSpans memory, s.Sound length := by
  intro s hs
  rw [extensionSpans] at hs
  by_cases hext : hasExtension memory = true
  · rw [if_pos hext, List.mem_singleton] at hs
    rw [encOffset, if_pos hext] at h
    rw [hs, sound_iff]
    simp only
    omega
  · rw [if_neg hext] at hs
    exact absurd hs List.not_mem_nil

/-- A packet that a function is called with has all its places inside of it, and
    no length wraps around, exactly if it is long enough. -/
theorem spans_sound_iff (path : Path) (packet : Octets) (outside : Int → UInt8) (tagLen : Nat)
    (htag : tagLen = 4 ∨ tagLen = 10) (hlen : packet.length < 2 ^ 32)
    (hpassed : Passed packet path) :
    (∀ s ∈ spans (memoryOf packet outside) packet.length tagLen path,
      s.Sound (limit packet.length tagLen path)) ↔ Fits packet tagLen path := by
  cases path with
  | protect =>
      have hlong : 12 ≤ packet.length := hpassed.1
      have hoffset := @encOffset_le_iff packet outside (by omega) packet.length (Nat.le_refl _)
      simp only [spans, List.forall_mem_append, List.forall_mem_cons, sound_iff, limit, Fits,
        octetsInRtpHeader]
      rw [← hoffset]
      constructor
      · intro h
        omega
      · intro h
        have hext := extensionSpans_sound h.1
        refine ⟨?_, ?_⟩
        · intro s hs
          have hsound := (sound_iff _ _).mp (hext s hs)
          omega
        · refine ⟨?_, ?_, ?_, ?_, ?_, fun s hs => absurd hs List.not_mem_nil⟩ <;> omega
  | unprotect =>
      have hlong : 12 < packet.length := hpassed.1
      have hoffset := @encOffset_le_iff packet outside (by omega) (packet.length - tagLen)
        (Nat.sub_le _ _)
      simp only [spans, List.forall_mem_append, List.forall_mem_cons, sound_iff, limit, Fits,
        octetsInRtpHeader]
      rw [← hoffset]
      constructor
      · intro h
        omega
      · intro h
        have hext := extensionSpans_sound (Nat.le_trans h (Nat.sub_le _ _))
        refine ⟨?_, ?_⟩
        · intro s hs
          have hsound := (sound_iff _ _).mp (hext s hs)
          omega
        · refine ⟨?_, ?_, ?_, ?_, fun s hs => absurd hs List.not_mem_nil⟩ <;> omega
  | protectRtcp =>
      have hlong : 8 ≤ packet.length := hpassed
      simp only [spans, List.forall_mem_cons, sound_iff, limit, Fits, octetsInRtcpHeader,
        rtcpTrailerSize]
      constructor
      · intro h
        omega
      · intro h
        refine ⟨?_, ?_, ?_, ?_, ?_, ?_, fun s hs => absurd hs List.not_mem_nil⟩ <;> omega
  | unprotectRtcp =>
      have hlong : 8 ≤ packet.length := hpassed
      simp only [spans, List.forall_mem_cons, sound_iff, limit, Fits, octetsInRtcpHeader,
        rtcpTrailerSize]
      constructor
      · intro h
        omega
      · intro h
        refine ⟨?_, ?_, ?_, ?_, ?_, ?_, fun s hs => absurd hs List.not_mem_nil⟩ <;> omega

/-- A packet of RTP with an extension of one word, received with a tag of four
    octets. -/
theorem spans_sound_extension :
    (∀ s ∈ spans (memoryOf [0x90, 0, 0, 1, 0, 0, 0, 1, 0, 0, 0, 2, 0, 0, 0, 1, 7, 7, 7, 7, 1, 2, 3, 4]
        fun _ => 0) 24 4 .unprotect, s.Sound (limit 24 4 .unprotect)) ↔
      Fits [0x90, 0, 0, 1, 0, 0, 0, 1, 0, 0, 0, 2, 0, 0, 0, 1, 7, 7, 7, 7, 1, 2, 3, 4] 4 .unprotect :=
  spans_sound_iff .unprotect
    [0x90, 0, 0, 1, 0, 0, 0, 1, 0, 0, 0, 2, 0, 0, 0, 1, 7, 7, 7, 7, 1, 2, 3, 4] (fun _ => 0) 4
    (Or.inl rfl) (by decide) ⟨by decide, by decide +kernel⟩

/-- Thirteen octets from the network pass for RTP, and the length of their
    encrypted portion wraps around. So it does for a packet to be sent that
    announces fifteen CSRCs, and for eight octets of RTCP. -/
theorem spans_wrap :
    (Passed (0x80 :: List.replicate 12 0) .unprotect ∧
      ¬ ∀ s ∈ spans (memoryOf (0x80 :: List.replicate 12 0) fun _ => 0) 13 4 .unprotect,
        s.Sound (limit 13 4 .unprotect)) ∧
    (Passed (0x8f :: List.replicate 12 0) .protect ∧
      ¬ ∀ s ∈ spans (memoryOf (0x8f :: List.replicate 12 0) fun _ => 0) 13 4 .protect,
        s.Sound (limit 13 4 .protect)) ∧
    (Passed (0x80 :: List.replicate 7 0) .unprotectRtcp ∧
      ¬ ∀ s ∈ spans (memoryOf (0x80 :: List.replicate 7 0) fun _ => 0) 8 4 .unprotectRtcp,
        s.Sound (limit 8 4 .unprotectRtcp)) := by
  refine ⟨⟨⟨by decide, by decide +kernel⟩, by decide +kernel⟩,
    ⟨⟨by decide, by decide +kernel⟩, by decide +kernel⟩, ⟨?_, by decide +kernel⟩⟩
  rw [Passed]
  decide

end Engine

end Zrtp

end CryptoOpal

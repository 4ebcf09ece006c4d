import CryptoOpal.Lib.Octets
import CryptoOpal.Srtp.Crypto

/-!
# Packet Headers, Locations and IVs

What the packet functions read from a packet, where they find it, and the
initialization vectors they form from it.

Locations and lengths are C numbers. `pkt_octet_len` is an `int`, but tag and
MKI lengths are unsigned, so a length with one of them subtracted is a 32-bit
unsigned number that wraps around below zero: `sub32`. `inside` is where the
model looks at the outcome. A range that the code goes on to read or write
has to lie inside the packet, and a call that computes one that does not ends
there.

The header functions look only at the first octets of a packet, up to the
end of the CSRC list or of the extension's own header. `headerLen` is that
bound, and two packets that agree below it have the same header
(`SameHeader`).

## Main definitions

* `sub32`, `inside`: Unsigned lengths, and ranges of a packet.
* `hdrCc`, `hdrX`, `hdrSeq`, `hdrSsrc`: Fields of the RTP header.
* `encStart`: The start of the encrypted portion.
* `validateRtpHeader`: `srtp_validate_rtp_header`.
* `rtpIv`, `aeadIv`: The initialization vectors.

## Theorems

* `sub32_of_le`, `sub32_of_lt`: An unsigned difference.
* `sameHeader_of_take`: Agreement on the first octets.
* `icmIv_inj`, `aeadIv_inj`: Distinct indices have distinct IVs.
-/

namespace CryptoOpal

namespace Srtp

open Lib (Octets slice bigEndian ofBigEndian xorOctets)

/-- `a - b` on 32-bit unsigned numbers. -/
def sub32 (a b : Nat) : Nat := (a + (2 ^ 32 - b)) % 2 ^ 32

/-- The `len` octets from `start` on lie inside the packet. -/
def inside (pkt : Octets) (start len : Nat) : Except Stop Unit :=
  if start + len ≤ pkt.length then .ok () else .error .fault

/-- `octets_in_rtp_header`. -/
def octetsInRtpHeader : Nat := 12

/-- `octets_in_rtcp_header`. -/
def octetsInRtcpHeader : Nat := 8

/-- `octets_in_rtp_extn_hdr`. -/
def octetsInRtpExtnHdr : Nat := 4

/-- `hdr->cc`. -/
def hdrCc (pkt : Octets) : Nat := (pkt.getD 0 0).toNat % 16

/-- `hdr->x`. -/
def hdrX (pkt : Octets) : Bool := (pkt.getD 0 0).toNat / 16 % 2 = 1

/-- `ntohs(hdr->seq)`. -/
def hdrSeq (pkt : Octets) : UInt16 := UInt16.ofNat (ofBigEndian (slice pkt 2 2))

/-- `hdr->ssrc`, as a number in host order. -/
def hdrSsrc (pkt : Octets) : UInt32 := UInt32.ofNat (ofBigEndian (slice pkt 8 4))

/-- The end of the CSRC list, where an extension starts. -/
def extnStart (pkt : Octets) : Nat := octetsInRtpHeader + 4 * hdrCc pkt

/-- `ntohs(xtn_hdr->profile_specific)`. -/
def extnProfile (pkt : Octets) : Nat := ofBigEndian (slice pkt (extnStart pkt) 2)

/-- `ntohs(xtn_hdr->length)`, in 32-bit words. -/
def extnLength (pkt : Octets) : Nat := ofBigEndian (slice pkt (extnStart pkt + 2) 2)

/-- The start of the encrypted portion: after the extension if there is one,
    else after the last CSRC. -/
def encStart (pkt : Octets) : Nat :=
  extnStart pkt + if hdrX pkt then 4 * (extnLength pkt + 1) else 0

/-- `srtp_validate_rtp_header`. -/
def validateRtpHeader (pkt : Octets) : Except SrtpErrStatus Unit :=
  if pkt.length < octetsInRtpHeader then .error .badParam
  else if pkt.length < extnStart pkt + (if hdrX pkt then octetsInRtpExtnHdr else 0) then
    .error .badParam
  else if hdrX pkt ∧ pkt.length < extnStart pkt + octetsInRtpExtnHdr + 4 * extnLength pkt then
    .error .badParam
  else .ok ()

/-- The IV of a counter mode cipher: SSRC, then the index shifted up past the
    two octets of the block counter. -/
def icmIv (ssrc : UInt32) (est : Nat) : Octets :=
  bigEndian 4 0 ++ bigEndian 4 ssrc.toNat ++ bigEndian 8 (est * 2 ^ 16)

/-- The IV `srtp_protect_mki` and `srtp_unprotect_mki` set, by cipher type. -/
def rtpIv (id : CipherTypeId) (ssrc : UInt32) (est : Nat) : Octets :=
  if id.isIcm then icmIv ssrc est else bigEndian 8 0 ++ bigEndian 8 est

/-- `srtp_calc_aead_iv`: SSRC, rollover counter and sequence number, exored
    with the salt. -/
def aeadIv (salt : Octets) (ssrc : UInt32) (est : Nat) : Octets :=
  xorOctets
    (bigEndian 2 0 ++ bigEndian 4 ssrc.toNat ++ bigEndian 4 (est / 2 ^ 16) ++ bigEndian 2 est ++
      bigEndian 4 0)
    (salt ++ bigEndian 4 0)

/-- The rollover counter as the four octets that are authenticated with a
    packet: the first half of the shifted index in network order. -/
def rocOctets (est : Nat) : Octets := (bigEndian 8 (est * 2 ^ 16)).take 4

section Ranges

theorem sub32_of_le {a b : Nat} (h : b ≤ a) (ha : a < 2 ^ 32) : sub32 a b = a - b := by
  simp only [sub32]
  omega

theorem sub32_of_lt {a b : Nat} (h : a < b) (hb : b ≤ 2 ^ 32) : sub32 a b = a + (2 ^ 32 - b) := by
  simp only [sub32]
  omega

theorem inside_eq_ok {pkt : Octets} {start len : Nat} {u : Unit} :
    inside pkt start len = .ok u ↔ start + len ≤ pkt.length := by
  rw [inside]
  split <;> simp only [reduceCtorEq, false_iff, true_iff] <;> omega

end Ranges

section SameHeader

/-- The end of what the header functions look at. -/
def headerLen (pkt : Octets) : Nat :=
  extnStart pkt + if hdrX pkt then octetsInRtpExtnHdr else 0

/-- Two packets whose header functions agree. -/
structure SameHeader (p q : Octets) : Prop where
  cc : hdrCc q = hdrCc p
  x : hdrX q = hdrX p
  seq : hdrSeq q = hdrSeq p
  ssrc : hdrSsrc q = hdrSsrc p
  profile : hdrX p = true → extnProfile q = extnProfile p
  length : hdrX p = true → extnLength q = extnLength p

theorem slice_congr {p q : Octets} {k off len : Nat} (h : p.take k = q.take k)
    (hk : off + len ≤ k) : slice p off len = slice q off len := by
  have hp : ∀ r : Octets, slice r off len = slice (r.take k) off len := by
    intro r
    rw [slice, slice, List.drop_take, List.take_take, Nat.min_eq_left (by omega)]
  rw [hp p, hp q, h]

/-- Packets that agree on the octets the header functions look at have the
    same header. -/
theorem sameHeader_of_take {p q : Octets} (h : p.take (headerLen p) = q.take (headerLen p)) :
    SameHeader p q := by
  have hlen : octetsInRtpHeader + 4 * hdrCc p ≤ headerLen p := Nat.le_add_right _ _
  have h12 : octetsInRtpHeader = 12 := rfl
  have hfirst : p.getD 0 0 = q.getD 0 0 := by
    rw [List.getD_eq_getElem?_getD, List.getD_eq_getElem?_getD,
      ← List.getElem?_take_of_lt (show 0 < headerLen p by omega), h,
      List.getElem?_take_of_lt (show 0 < headerLen p by omega)]
  have hcc : hdrCc q = hdrCc p := by rw [hdrCc, hdrCc, hfirst]
  have hx : hdrX q = hdrX p := by rw [hdrX, hdrX, hfirst]
  have hstart : extnStart q = extnStart p := by rw [extnStart, extnStart, hcc]
  refine ⟨hcc, hx, ?_, ?_, ?_, ?_⟩
  · rw [hdrSeq, hdrSeq, slice_congr h (by omega)]
  · rw [hdrSsrc, hdrSsrc, slice_congr h (by omega)]
  · intro hxt
    have hext : headerLen p = extnStart p + 4 := by
      rw [headerLen, if_pos hxt]
      rfl
    rw [extnProfile, extnProfile, hstart, slice_congr h (by omega)]
  · intro hxt
    have hext : headerLen p = extnStart p + 4 := by
      rw [headerLen, if_pos hxt]
      rfl
    rw [extnLength, extnLength, hstart, slice_congr h (by omega)]

theorem SameHeader.trans {p q r : Octets} (h : SameHeader p q) (h' : SameHeader q r) :
    SameHeader p r where
  cc := h'.cc.trans h.cc
  x := h'.x.trans h.x
  seq := h'.seq.trans h.seq
  ssrc := h'.ssrc.trans h.ssrc
  profile := fun hx => (h'.profile (h.x.trans hx)).trans (h.profile hx)
  length := fun hx => (h'.length (h.x.trans hx)).trans (h.length hx)

theorem SameHeader.extnStart_eq {p q : Octets} (h : SameHeader p q) :
    extnStart q = extnStart p := by
  rw [extnStart, extnStart, h.cc]

theorem SameHeader.encStart_eq {p q : Octets} (h : SameHeader p q) :
    encStart q = encStart p := by
  rw [encStart, encStart, h.extnStart_eq, h.x]
  cases hx : hdrX p with
  | false => rfl
  | true => rw [h.length hx]

/-- The header ends no later than the encrypted portion starts. -/
theorem headerLen_le (p : Octets) : headerLen p ≤ encStart p := by
  have h4 : octetsInRtpExtnHdr = 4 := rfl
  unfold headerLen encStart
  split <;> omega

/-- A packet with nothing after its header has the same header with anything
    after it. -/
theorem sameHeader_append {h : Octets} (t : Octets) (hhead : encStart h = h.length) :
    SameHeader h (h ++ t) := by
  refine sameHeader_of_take ?_
  have hle := headerLen_le h
  rw [List.take_append_of_le_length (by omega)]

/-- A longer packet with the same header passes the header check as well. -/
theorem SameHeader.validate {p q : Octets} (h : SameHeader p q) (hlen : p.length ≤ q.length)
    (hvalid : validateRtpHeader p = .ok ()) : validateRtpHeader q = .ok () := by
  unfold validateRtpHeader at hvalid ⊢
  rw [h.extnStart_eq, h.x]
  by_cases h12 : p.length < octetsInRtpHeader
  · rw [if_pos h12] at hvalid
    exact absurd hvalid (by simp only [reduceCtorEq, not_false_eq_true])
  rw [if_neg h12] at hvalid
  rw [if_neg (show ¬ q.length < octetsInRtpHeader by omega)]
  by_cases hcc : p.length < extnStart p + (if hdrX p then octetsInRtpExtnHdr else 0)
  · rw [if_pos hcc] at hvalid
    exact absurd hvalid (by simp only [reduceCtorEq, not_false_eq_true])
  rw [if_neg hcc] at hvalid
  rw [if_neg (fun hq => hcc (Nat.lt_of_le_of_lt hlen hq))]
  by_cases hx : hdrX p = true
  · rw [h.length hx]
    by_cases hext : p.length < extnStart p + octetsInRtpExtnHdr + 4 * extnLength p
    · rw [if_pos ⟨hx, hext⟩] at hvalid
      exact absurd hvalid (by simp only [reduceCtorEq, not_false_eq_true])
    · rw [if_neg (fun hq => hext (Nat.lt_of_le_of_lt hlen hq.2))]
  · rw [if_neg (fun hq => hx hq.1)]

end SameHeader

section InitializationVectors

/-- Packets of one SSRC with distinct indices have distinct counter mode IVs. -/
theorem icmIv_inj {ssrc : UInt32} {est est' : Nat} (h : est < 2 ^ 48) (h' : est' < 2 ^ 48)
    (heq : icmIv ssrc est = icmIv ssrc est') : est = est' := by
  rw [icmIv, icmIv, List.append_right_inj] at heq
  have hshift := Lib.bigEndian_inj (by omega) (by omega) heq
  omega

/-- Packets of one SSRC with distinct indices have distinct AEAD IVs. -/
theorem aeadIv_inj {salt : Octets} {ssrc : UInt32} {est est' : Nat} (hsalt : salt.length = 12)
    (h : est < 2 ^ 48) (h' : est' < 2 ^ 48) (heq : aeadIv salt ssrc est = aeadIv salt ssrc est') :
    est = est' := by
  rw [aeadIv, aeadIv] at heq
  have hin := Lib.xorOctets_inj (by simp only [List.length_append, Lib.length_bigEndian]; omega)
    (by simp only [List.length_append, Lib.length_bigEndian]; omega) heq
  rw [List.append_left_inj] at hin
  have hparts := List.append_inj' hin (by rw [Lib.length_bigEndian, Lib.length_bigEndian])
  have hroc := Lib.bigEndian_inj (by omega) (by omega) (List.append_cancel_left hparts.1)
  have hseq : est % 2 ^ 16 = est' % 2 ^ 16 := by
    have hdec := congrArg ofBigEndian hparts.2
    rw [Lib.ofBigEndian_bigEndian, Lib.ofBigEndian_bigEndian] at hdec
    exact hdec
  omega

end InitializationVectors

end Srtp

end CryptoOpal

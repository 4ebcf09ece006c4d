import CryptoOpal.Srtp.Header
import CryptoOpal.Srtp.Session

/-!
# The SRTCP Trailer, Locations and IVs

An SRTCP packet carries its whole index. The trailer is a 32-bit word that
follows the packet, with the encryption bit on top and the index below it.
In counter mode MKI and tag follow the trailer; in AES-GCM the tag comes
first. The receiver counts all of them from the end of the packet.

The two halves of a trailer are read back from what was written
(`trailerEBit_srtcpTrailer`, `trailerIndex_srtcpTrailer`), as long as the
index has 31 bits, and the sender's database never gives it more
(`increment_windowStart`).

## Main definitions

* `rtcpSsrc`: The SSRC of an RTCP header.
* `srtcpTrailer`, `trailerEBit`, `trailerIndex`: The trailer and its halves.
* `rtcpIv`, `rtcpAeadIv`: The initialization vectors.
* `rtcpLengths`: The length check of the receiver.

## Theorems

* `trailerEBit_srtcpTrailer`, `trailerIndex_srtcpTrailer`: Reading it back.
* `increment_windowStart`: The index that is sent next.
* `rtcpLengths_eq_ok`: What a packet has room for.
-/

namespace CryptoOpal

namespace Srtp

open Lib (Octets slice bigEndian ofBigEndian xorOctets)

/-- `sizeof(srtcp_trailer_t)`. -/
def srtcpTrailerLen : Nat := 4

/-- `SRTCP_E_BIT`. -/
def srtcpEBit : Nat := 0x80000000

/-- `hdr->ssrc` of an RTCP header, as a number in host order. -/
def rtcpSsrc (pkt : Octets) : UInt32 := UInt32.ofNat (ofBigEndian (slice pkt 4 4))

/-- The trailer the sender writes: `htonl(SRTCP_E_BIT)` if the packet is to be
    encrypted, else zero, with the index or-ed into it. -/
def srtcpTrailer (services : SecServ) (seq : Nat) : Octets :=
  bigEndian 4 ((if services.hasConf then srtcpEBit else 0) ||| seq)

/-- `e_bit_in_packet`: the `SRTCP_E_BYTE_BIT` of the trailer's first octet. -/
def trailerEBit (trailer : Octets) : Bool := 0x80 ≤ (trailer.getD 0 0).toNat

/-- The index in a trailer, `ntohl(*trailer) & SRTCP_INDEX_MASK`. -/
def trailerIndex (trailer : Octets) : Nat := ofBigEndian trailer % 2 ^ 31

/-- The IV `srtp_protect_rtcp_mki` and `srtp_unprotect_rtcp_mki` set, by cipher
    type. -/
def rtcpIv (id : CipherTypeId) (ssrc : UInt32) (seq : Nat) : Octets :=
  if id.isIcm then
    bigEndian 4 0 ++ bigEndian 4 ssrc.toNat ++ bigEndian 4 (seq / 2 ^ 16) ++
      bigEndian 4 (seq * 2 ^ 16)
  else bigEndian 12 0 ++ bigEndian 4 seq

/-- `srtp_calc_aead_iv_srtcp`. The most significant bit of an index is zero. -/
def rtcpAeadIv (cSalt : Octets) (ssrc : UInt32) (seq : Nat) : Except SrtpErrStatus Octets :=
  if 2 ^ 31 ≤ seq then .error .badParam
  else
    .ok (xorOctets
      (bigEndian 2 0 ++ bigEndian 4 ssrc.toNat ++ bigEndian 2 0 ++ bigEndian 4 seq ++
        bigEndian 4 0)
      (cSalt ++ bigEndian 4 0))

/-- The length check of `srtp_unprotect_rtcp_mki`, once tag and MKI length are
    known. Their sum is cast to an `int`, and one that becomes negative there
    passes the check, but the trailer it locates is not in the packet. -/
def rtcpLengths (pkt : Octets) (tagLen mkiSize : Nat) : Except Stop Unit := do
  let sum := octetsInRtcpHeader + tagLen + mkiSize + srtcpTrailerLen
  refuseIf ((pkt.length : Int) < (sum : Int).bmod (2 ^ 32)) (.status .badParam)
  inside pkt 0 sum

theorem rtcpLengths_eq_ok {pkt : Octets} {tagLen mkiSize : Nat} {u : Unit} :
    rtcpLengths pkt tagLen mkiSize = .ok u ↔
      (octetsInRtcpHeader + tagLen + mkiSize + srtcpTrailerLen : Int).bmod (2 ^ 32) ≤ pkt.length ∧
        octetsInRtcpHeader + tagLen + mkiSize + srtcpTrailerLen ≤ pkt.length := by
  simp only [rtcpLengths, bind_eq_ok, refuseIf_eq_ok, inside_eq_ok, exists_const, Int.not_lt,
    Nat.zero_add, Int.natCast_add]

/-- A packet of an `int` length that has room for header, trailer, MKI and tag
    passes the length check. -/
theorem rtcpLengths_of_le {pkt : Octets} {tagLen mkiSize : Nat} (hlen : pkt.length < 2 ^ 31)
    (h : octetsInRtcpHeader + tagLen + mkiSize + srtcpTrailerLen ≤ pkt.length) :
    rtcpLengths pkt tagLen mkiSize = .ok () := by
  refine rtcpLengths_eq_ok.mpr ⟨?_, h⟩
  rw [Int.bmod_eq_of_le (by omega) (by omega)]
  omega

section Trailers

@[simp] theorem length_srtcpTrailer (services : SecServ) (seq : Nat) :
    (srtcpTrailer services seq).length = srtcpTrailerLen :=
  Lib.length_bigEndian 4 _

/-- The bit above the index is where the encryption bit goes. -/
theorem trailerWord_eq {seq : Nat} (conf : Bool) (h : seq < 2 ^ 31) :
    (if conf then srtcpEBit else 0) ||| seq = (if conf then 2 ^ 31 else 0) + seq := by
  cases conf with
  | false => simp only [Bool.false_eq_true, if_false, Nat.zero_or, Nat.zero_add]
  | true => exact (Nat.two_pow_add_eq_or_of_lt h 1).symm

/-- The index is read back. -/
theorem trailerIndex_srtcpTrailer (services : SecServ) {seq : Nat} (h : seq < 2 ^ 31) :
    trailerIndex (srtcpTrailer services seq) = seq := by
  rw [trailerIndex, srtcpTrailer, trailerWord_eq _ h, Lib.ofBigEndian_bigEndian]
  split <;> omega

/-- The encryption bit is read back. -/
theorem trailerEBit_srtcpTrailer (services : SecServ) {seq : Nat} (h : seq < 2 ^ 31) :
    trailerEBit (srtcpTrailer services seq) = services.hasConf := by
  have hfirst : ((srtcpTrailer services seq).getD 0 0).toNat =
      ((if services.hasConf then 2 ^ 31 else 0) + seq) / 2 ^ 24 % 256 := by
    rw [srtcpTrailer, trailerWord_eq _ h]
    rfl
  rw [trailerEBit, hfirst]
  cases services.hasConf with
  | false =>
      simp only [Bool.false_eq_true, if_false, decide_eq_false_iff_not]
      omega
  | true =>
      simp only [if_true, decide_eq_true_eq]
      omega

/-- The sender's index is the next one, and it has 31 bits. -/
theorem increment_windowStart {rdb rdb' : Rdb} (h : rdb.increment = .ok rdb') :
    rdb'.windowStart = rdb.windowStart + 1 ∧ rdb'.windowStart < 2 ^ 31 := by
  rw [Rdb.increment] at h
  split at h
  · exact absurd h (by simp only [reduceCtorEq, not_false_eq_true])
  · rename_i hlt
    rw [Except.ok.injEq] at h
    rw [← h]
    exact ⟨rfl, by simp only; omega⟩

end Trailers

end Srtp

end CryptoOpal

import CryptoOpal.Lib.Octets
import CryptoOpal.Zrtp.ReplayList

/-!
# The SRTP of libzrtp

The four packet functions of the SRTP that is built into libzrtp. A context
has a cipher and an authentication function for RTP and a pair for RTCP, in
each direction. The cipher is set to an IV for every packet and exors a
keystream into the payload. The tag of an RTP packet covers the packet and
its rollover counter, that of an RTCP packet the packet and the trailer with
the index.

The ciphers and hashes are components. A cipher is known by the keystream an
IV gives, a hash by the tags it gives. Both calls succeed.

A header that claims more CSRCs or a longer extension than the packet has
makes the code count the octets to encrypt down below zero, and an RTCP packet
with no room for trailer and tag makes it look for them before the packet.
What it then touches lies outside the packet, and the model does not show it.

## Main definitions

* `SrtpStreamCtx`, `SrtpCtx`: `zrtp_srtp_stream_ctx_t`, `zrtp_srtp_ctx_t`.
* `ReplayCtx`: `zrtp_rp_ctx_t`, the two lists.
* `RtpInfo`: `zrtp_rtp_info_t`.
* `Outcome`: What a packet function did.
* `srtpProtect`, `srtpUnprotect`: `zrtp_srtp_protect`, `zrtp_srtp_unprotect`.
* `srtpProtectRtcp`, `srtpUnprotectRtcp`: The two functions for RTCP.
* `srtpDestroy`: `zrtp_srtp_destroy`.

## Theorems

* `packetIv_inj`: The SSRC and the index are read back from the IV.
* `srtpProtect_cases`, `srtpProtectRtcp_cases`: What the two senders do.
-/

namespace CryptoOpal

namespace Zrtp

open Lib (Octets slice overwrite bigEndian ofBigEndian)

/-- `zrtp_srtp_stream_ctx_t`: a cipher by its keystream for an IV, a hash by
    its tags, which have the length of the `tag_len` component. -/
structure SrtpStreamCtx where
  rtpCipher : Octets → Nat → UInt8
  rtpAuth : Octets → Octets
  rtpTagLen : Nat
  rtcpCipher : Octets → Nat → UInt8
  rtcpAuth : Octets → Octets
  rtcpTagLen : Nat
  length_rtpAuth : ∀ m, (rtpAuth m).length = rtpTagLen
  length_rtcpAuth : ∀ m, (rtcpAuth m).length = rtcpTagLen

/-- `zrtp_srtp_ctx_t`. -/
structure SrtpCtx where
  incomingSrtp : SrtpStreamCtx
  outgoingSrtp : SrtpStreamCtx

/-- `zrtp_rp_ctx_t`. -/
structure ReplayCtx where
  incHead : List ReplayNode
  outHead : List ReplayNode
  deriving DecidableEq

/-- `rp_init`. -/
def ReplayCtx.init : ReplayCtx := ⟨[], []⟩

/-- `zrtp_rtp_info_t`. The message is the packet behind the RTP header. -/
structure RtpInfo where
  type : MsgType
  packet : Octets
  seq : Nat
  ssrc : Nat
  deriving DecidableEq

/-- The message of a packet, behind `RTP_HDR_SIZE` octets. -/
def RtpInfo.message (info : RtpInfo) : Octets := info.packet.drop 12

/-- What a packet function returned, the packet it left, and the IV it set the
    cipher to before it encrypted or decrypted that. -/
structure Outcome where
  status : ZrtpStatus
  packet : Octets
  iv : Option Octets
  deriving DecidableEq

/-- The packet stays as it is. -/
def Outcome.untouched (status : ZrtpStatus) (packet : Octets) : Outcome := ⟨status, packet, none⟩

/-- `octets_in_rtp_header`. -/
def octetsInRtpHeader : Nat := 12

/-- `octets_in_rtcp_header`. -/
def octetsInRtcpHeader : Nat := 8

/-- The size of `zrtp_rtcp_trailer_t`. -/
def rtcpTrailerSize : Nat := 4

/-- `hdr->ssrc` of an RTP packet, in network order. -/
def rtpSsrc (packet : Octets) : Octets := slice packet 8 4

/-- `hdr->ssrc` of an RTCP packet, in network order. -/
def rtcpSsrc (packet : Octets) : Octets := slice packet 4 4

/-- The 128 bits `set_iv` is called with: a zero word, the SSRC, and the index
    moved up by 16 bits. -/
def packetIv (ssrc : Octets) (seq : Nat) : Octets :=
  bigEndian 4 0 ++ ssrc ++ bigEndian 8 (seq <<< 16)

/-- `enc_start`, counted in octets from the header. -/
def encStart (packet : Octets) : Nat :=
  let first := (packet.getD 0 0).toNat
  let start := octetsInRtpHeader + 4 * (first % 16)
  if first / 16 % 2 = 1 then start + 4 * (ofBigEndian (slice packet (start + 2) 2) + 1)
  else start

/-- Exor a keystream into the octets that start at `off`. -/
def applyKeystream (keystream : Nat → UInt8) (packet : Octets) (off len : Nat) : Octets :=
  overwrite packet off ((slice packet off len).mapIdx fun i b => b ^^^ keystream i)

/-- The four octets of the index that the tag covers with the packet. -/
def rolloverOctets (seq : Nat) : Octets := bigEndian 4 (seq >>> 16)

/-- `zrtp_srtp_protect`. -/
def srtpProtect (ctx : SrtpCtx) (owner : Nat) (nodes : List ReplayNode) (info : RtpInfo) :
    List ReplayNode × Outcome :=
  let added := addNode owner info.ssrc nodes
  let rpNode := added.1
  let packet := info.packet
  if packet.length < octetsInRtpHeader then (added.2, .untouched .badParam packet)
  else if rpNode.rtpRp.check info.seq ≠ .ok then (added.2, .untouched .rpFail packet)
  else
    let nodes' := updateNode { rpNode with rtpRp := rpNode.rtpRp.add info.seq } added.2
    let iv := packetIv (rtpSsrc packet) info.seq
    let start := encStart packet
    let body := applyKeystream (ctx.outgoingSrtp.rtpCipher iv) packet start (packet.length - start)
    let tag := ctx.outgoingSrtp.rtpAuth (body ++ rolloverOctets info.seq)
    (nodes', ⟨.ok, body ++ tag, some iv⟩)

/-- The tag at the end of an RTP packet is the one for this index. -/
def rtpTagMatches (stream : SrtpStreamCtx) (packet : Octets) (seq : Nat) : Bool :=
  let len := packet.length - stream.rtpTagLen
  stream.rtpAuth (packet.take len ++ rolloverOctets seq) == packet.drop len

/-- `zrtp_srtp_unprotect`. -/
def srtpUnprotect (ctx : SrtpCtx) (owner : Nat) (nodes : List ReplayNode) (info : RtpInfo) :
    List ReplayNode × Outcome :=
  let stream := ctx.incomingSrtp
  let added := addNode owner info.ssrc nodes
  let rpNode := added.1
  let packet := info.packet
  if packet.length < octetsInRtpHeader then (added.2, .untouched .badParam packet)
  else if rpNode.rtpRp.check info.seq ≠ .ok then (added.2, .untouched .rpFail packet)
  else if stream.rtpTagLen > 0 ∧ rtpTagMatches stream packet info.seq = false then
    (added.2, .untouched .authFail packet)
  else
    let nodes' := updateNode { rpNode with rtpRp := rpNode.rtpRp.add info.seq } added.2
    let iv := packetIv (rtpSsrc packet) info.seq
    let start := encStart packet
    let len := packet.length - stream.rtpTagLen
    (nodes', ⟨.ok, (applyKeystream (stream.rtpCipher iv) packet start (len - start)).take len,
      some iv⟩)

/-- The trailer of a protected RTCP packet, `ZRTP_RTCP_E_BIT | seq_num`. -/
def rtcpTrailer (seqNum : Nat) : Octets := bigEndian 4 (0x80000000 ||| seqNum)

/-- `zrtp_srtp_protect_rtcp`. -/
def srtpProtectRtcp (ctx : SrtpCtx) (owner : Nat) (nodes : List ReplayNode) (info : RtpInfo) :
    List ReplayNode × Outcome :=
  let added := addNode owner info.ssrc nodes
  let rpNode := added.1
  let packet := info.packet
  if packet.length < octetsInRtcpHeader then (added.2, .untouched .badParam packet)
  else
    -- The counter in the node moves on even if the packet is then refused.
    let incremented := rpNode.rtcpRp.increment
    let nodes' := updateNode { rpNode with rtcpRp := incremented.2 } added.2
    if incremented.1 ≠ .ok then (nodes', .untouched .rpFail packet)
    else
      let seqNum := incremented.2.seq
      let iv := packetIv (rtcpSsrc packet) seqNum
      let body := applyKeystream (ctx.outgoingSrtp.rtcpCipher iv) packet octetsInRtcpHeader
        (packet.length - octetsInRtcpHeader)
      let covered := body ++ rtcpTrailer seqNum
      (nodes', ⟨.ok, covered ++ ctx.outgoingSrtp.rtcpAuth covered, some iv⟩)

/-- `zrtp_srtp_unprotect_rtcp`. -/
def srtpUnprotectRtcp (ctx : SrtpCtx) (owner : Nat) (nodes : List ReplayNode) (info : RtpInfo) :
    List ReplayNode × Outcome :=
  let stream := ctx.incomingSrtp
  let added := addNode owner info.ssrc nodes
  let rpNode := added.1
  let packet := info.packet
  if packet.length < octetsInRtcpHeader then (added.2, .untouched .badParam packet)
  else
    let covered := packet.take (packet.length - stream.rtcpTagLen)
    let trailer := ofBigEndian (covered.drop (covered.length - rtcpTrailerSize))
    let seq := trailer % 2 ^ 31
    if rpNode.rtcpRp.check seq ≠ .ok then (added.2, .untouched .rpFail packet)
    else if stream.rtcpTagLen = 0 ∨ stream.rtcpAuth covered ≠ packet.drop covered.length then
      (added.2, .untouched .authFail packet)
    else
      let nodes' := updateNode { rpNode with rtcpRp := rpNode.rtcpRp.add seq } added.2
      let iv := packetIv (rtcpSsrc packet) seq
      let body := covered.take (covered.length - rtcpTrailerSize)
      -- Without the E bit the packet is authenticated only.
      if trailer / 2 ^ 31 % 2 = 1 then
        (nodes', ⟨.ok, applyKeystream (stream.rtcpCipher iv) body octetsInRtcpHeader
          (body.length - octetsInRtcpHeader), some iv⟩)
      else (nodes', ⟨.ok, body, some iv⟩)

/-- Two packets with one IV have one SSRC and one index. -/
theorem packetIv_inj {ssrc ssrc' : Octets} {seq seq' : Nat} (hlen : ssrc.length = ssrc'.length)
    (hseq : seq < 2 ^ 32) (hseq' : seq' < 2 ^ 32) (h : packetIv ssrc seq = packetIv ssrc' seq') :
    ssrc = ssrc' ∧ seq = seq' := by
  rw [packetIv, packetIv, List.append_assoc, List.append_assoc] at h
  rcases List.append_inj (List.append_cancel_left h) hlen with ⟨hssrc, hindex⟩
  refine ⟨hssrc, ?_⟩
  have hbits : seq <<< 16 = seq' <<< 16 := by
    apply Lib.bigEndian_inj _ _ hindex
    · rw [Nat.shiftLeft_eq]
      omega
    · rw [Nat.shiftLeft_eq]
      omega
  rw [Nat.shiftLeft_eq, Nat.shiftLeft_eq] at hbits
  omega

/-- `zrtp_srtp_destroy`, of which the nodes remain to be seen. -/
def srtpDestroy (owner : Nat) (rp : ReplayCtx) : ReplayCtx :=
  ⟨removeNodesOf owner rp.incHead, removeNodesOf owner rp.outHead⟩

section

variable (ctx : SrtpCtx) (owner : Nat) (nodes : List ReplayNode) (info : RtpInfo)

/-- A packet that is refused leaves the windows alone, and one that is
    protected was accepted by its window and is marked in it. -/
theorem srtpProtect_cases :
    let found := halfAt .rtp nodes info.ssrc
    let added := addNode owner info.ssrc nodes
    let done := srtpProtect ctx owner nodes info
    (done.2.status ≠ .ok ∧ done.2.iv = none ∧ done.1 = added.2) ∨
      (done.2.status = .ok ∧ octetsInRtpHeader ≤ info.packet.length ∧
        found.check info.seq = .ok ∧
        done.2.iv = some (packetIv (rtpSsrc info.packet) info.seq) ∧
        done.1 = updateNode (added.1.setHalf (found.add info.seq) .rtp) added.2) := by
  have hfound : (addNode owner info.ssrc nodes).1.rtpRp = halfAt .rtp nodes info.ssrc :=
    half_addNode .rtp
  simp only [srtpProtect, hfound]
  by_cases hshort : info.packet.length < octetsInRtpHeader
  · rw [if_pos hshort]
    exact Or.inl ⟨by simp only [Outcome.untouched, ne_eq, reduceCtorEq, not_false_eq_true], rfl, rfl⟩
  rw [if_neg hshort]
  by_cases hcheck : (halfAt .rtp nodes info.ssrc).check info.seq = .ok
  · rw [if_neg (not_not_intro hcheck)]
    exact Or.inr ⟨rfl, by omega, hcheck, rfl, rfl⟩
  · rw [if_pos hcheck]
    exact Or.inl ⟨by simp only [Outcome.untouched, ne_eq, reduceCtorEq, not_false_eq_true], rfl, rfl⟩

/-- The counter of the node moves on for every packet that has a header, and a
    packet that is protected takes its new value. -/
theorem srtpProtectRtcp_cases :
    let moved := (halfAt .rtcp nodes info.ssrc).increment.2
    let added := addNode owner info.ssrc nodes
    let done := srtpProtectRtcp ctx owner nodes info
    (done.2.status ≠ .ok ∧ done.2.iv = none ∧ done.1 = added.2) ∨
      (done.1 = updateNode (added.1.setHalf moved .rtcp) added.2 ∧
        (done.2.status ≠ .ok ∧ done.2.iv = none ∨
          done.2.status = .ok ∧ octetsInRtcpHeader ≤ info.packet.length ∧
            done.2.iv = some (packetIv (rtcpSsrc info.packet) moved.seq))) := by
  have hfound : (addNode owner info.ssrc nodes).1.rtcpRp = halfAt .rtcp nodes info.ssrc :=
    half_addNode .rtcp
  simp only [srtpProtectRtcp, hfound]
  by_cases hshort : info.packet.length < octetsInRtcpHeader
  · rw [if_pos hshort]
    exact Or.inl ⟨by simp only [Outcome.untouched, ne_eq, reduceCtorEq, not_false_eq_true], rfl, rfl⟩
  rw [if_neg hshort]
  by_cases hexpired : (halfAt .rtcp nodes info.ssrc).increment.1 = .ok
  · rw [if_neg (not_not_intro hexpired)]
    exact Or.inr ⟨rfl, Or.inr ⟨rfl, by omega, rfl⟩⟩
  · rw [if_pos hexpired]
    exact Or.inr ⟨rfl, Or.inl
      ⟨by simp only [Outcome.untouched, ne_eq, reduceCtorEq, not_false_eq_true], rfl⟩⟩

end

end Zrtp

end CryptoOpal

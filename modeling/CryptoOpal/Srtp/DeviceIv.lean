import CryptoOpal.Srtp.DeviceCipher
import CryptoOpal.Srtp.Ideal

/-!
# One IV for Every Packet

`srtp_protect_mki` and `srtp_protect_rtcp_mki` form an IV from SSRC and index
and set it. On a stream with a device cipher it goes no further. Any two
packets of one stream that go by the same session keys are given to the
device under the same IV (`device_iv_repeats`).

The fixed packets at the end are two packets with one payload, the test
vector of `srtp_sdt_cipher_sm4_cbc_test_0`. Their ciphertexts are equal.

## Main definitions

* `Session.sendKeys`: The session keys a packet to send goes by.

## Theorems

* `device_iv_repeats`: Any two packets have one IV.
* `device_iv_collision`: Two packets with distinct indices and one IV.
-/

namespace CryptoOpal

namespace Srtp

open Lib (Octets)

section Keys

variable {C A : Type} {s s₁ : Session C A} {stream : Stream C A} {ssrc : UInt32} {rtp : Bool}

/-- The session keys that a packet to send goes by: those of the stream, or
    of the template while there is no stream. -/
def Session.sendKeys (s : Session C A) (ssrc : UInt32) (useMki : Bool) (mkiIndex : Nat) :
    Option (SessionKeys C A) :=
  match s.getStream ssrc with
  | some stream => some (stream.keysAt useMki mkiIndex)
  | none => s.streamTemplate.map fun template => template.keysAt useMki mkiIndex

theorem sendKeys_outgoing (h : s.outgoing ssrc rtp = .ok (s₁, stream)) (useMki : Bool)
    (mkiIndex : Nat) : s.sendKeys ssrc useMki mkiIndex = some (stream.keysAt useMki mkiIndex) := by
  unfold Session.sendKeys
  rcases outgoing_cases h with ⟨old, hget, hstream, -⟩ | ⟨template, dir, hget, htemplate, hstream, -⟩
  · rcases Stream.claimDirection_eq old .srtpSender with ⟨dir, hdir⟩
    rw [hget, hstream, hdir]
    rfl
  · rw [hget, htemplate, hstream]
    rfl

end Keys

section Packets

variable {A : Type} [AuthType A] {s : Session DeviceCipher A} {pkt : Octets} {useMki : Bool}
  {mkiIndex : Nat}

/-- What the cipher of a protected packet is given follows from the keying and
    the session keys. -/
theorem handed_protect {p : Protected DeviceCipher}
    (h : (srtpProtectMki s pkt useMki mkiIndex).2 = .ok p) :
    ∃ keying keys pfx, s.keyingOn (hdrSsrc pkt) = some keying ∧
      s.sendKeys (hdrSsrc pkt) useMki mkiIndex = some keys ∧
      sealPrefix keying.services keys (keys.rtpCipher.resetIv .encrypt) = .ok (pfx, p.cipher) := by
  rcases protect_ok h with ⟨s₁, stream, stream', est, o, hout, -, -, hseal, hp, -⟩
  have hplain : sealPlain stream.keying (stream.keysAt useMki mkiIndex) pkt useMki est = .ok o := by
    rw [sealPacket, isGcm_device] at hseal
    exact hseal
  rcases handed_sealPlain hplain with ⟨pfx, hpfx⟩
  refine ⟨stream.keying, _, pfx, keying_outgoing hout, sendKeys_outgoing hout _ _, ?_⟩
  rw [hpfx, hp]

/-- The same for RTCP. -/
theorem handed_protectRtcp {p : ProtectedRtcp DeviceCipher}
    (h : (srtpProtectRtcpMki s pkt useMki mkiIndex).2 = .ok p) :
    ∃ keys pfx, s.sendKeys (rtcpSsrc pkt) useMki mkiIndex = some keys ∧
      cipherOutput (keys.rtcpCipher.resetIv .encrypt) (AuthType.prefixLen keys.rtcpAuth) =
        .ok (pfx, p.cipher) := by
  rcases protectRtcp_ok h with ⟨s₁, stream, rdb, o, -, hout, -, hseal, hp, -⟩
  have hplain : sealRtcpPlain stream.rtcpServices (stream.keysAt useMki mkiIndex) pkt useMki
      rdb.windowStart = .ok o := by
    rw [sealRtcp, isGcm_device] at hseal
    exact hseal
  rcases handed_sealRtcpPlain hplain with ⟨pfx, hpfx⟩
  refine ⟨_, pfx, sendKeys_outgoing hout _ _, ?_⟩
  rw [hpfx, hp]

end Packets

/-- Any two packets that are protected on one stream with a device cipher, and
    go by the same session keys, are handed to the device under one IV. This
    holds for any device, any two states of the stream, and both protocols,
    so with distinct indices as well. -/
theorem device_iv_repeats {A : Type} [AuthType A] (s s' : Session DeviceCipher A)
    (pkt pkt' : Octets) (useMki useMki' : Bool) (mkiIndex mkiIndex' : Nat) :
    (∀ p p' : Protected DeviceCipher,
      s'.keyingOn (hdrSsrc pkt') = s.keyingOn (hdrSsrc pkt) →
      s'.sendKeys (hdrSsrc pkt') useMki' mkiIndex' = s.sendKeys (hdrSsrc pkt) useMki mkiIndex →
      (srtpProtectMki s pkt useMki mkiIndex).2 = .ok p →
      (srtpProtectMki s' pkt' useMki' mkiIndex').2 = .ok p' →
      p'.cipher.inIv = p.cipher.inIv) ∧
    (∀ p p' : ProtectedRtcp DeviceCipher,
      s'.sendKeys (rtcpSsrc pkt') useMki' mkiIndex' = s.sendKeys (rtcpSsrc pkt) useMki mkiIndex →
      (srtpProtectRtcpMki s pkt useMki mkiIndex).2 = .ok p →
      (srtpProtectRtcpMki s' pkt' useMki' mkiIndex').2 = .ok p' →
      p'.cipher.inIv = p.cipher.inIv) := by
  constructor
  · intro p p' hkeying hkeys hp hp'
    rcases handed_protect hp with ⟨keying, keys, pfx, hon, hsend, hpfx⟩
    rcases handed_protect hp' with ⟨keying', keys', pfx', hon', hsend', hpfx'⟩
    obtain rfl : keying' = keying := by
      rw [hon, hon', Option.some.injEq] at hkeying
      exact hkeying
    obtain rfl : keys' = keys := by
      rw [hsend, hsend', Option.some.injEq] at hkeys
      exact hkeys
    -- Both ciphers come out of one call.
    rw [hpfx, Except.ok.injEq, Prod.mk.injEq] at hpfx'
    rw [hpfx'.2]
  · intro p p' hkeys hp hp'
    rcases handed_protectRtcp hp with ⟨keys, pfx, hsend, hpfx⟩
    rcases handed_protectRtcp hp' with ⟨keys', pfx', hsend', hpfx'⟩
    obtain rfl : keys' = keys := by
      rw [hsend, hsend', Option.some.injEq] at hkeys
      exact hkeys
    rw [hpfx, Except.ok.injEq, Prod.mk.injEq] at hpfx'
    rw [hpfx'.2]

section Samples

/-- `srtp_sdt_sm4_test_case_0_plaintext`. -/
def sdtTestPlaintext : Octets :=
  [0x01, 0x23, 0x45, 0x67, 0x89, 0xab, 0xcd, 0xef, 0xfe, 0xdc, 0xba, 0x98, 0x76, 0x54, 0x32, 0x10]

/-- `srtp_sdt_sm4_cbc_test_case_0_ciphertext`. -/
def sdtTestCiphertext : Octets :=
  [0x68, 0x1e, 0xdf, 0x34, 0xd2, 0x06, 0x96, 0x5e, 0x86, 0xb3, 0xe9, 0x4f, 0x53, 0x6e, 0x42, 0x46]

/-- A device with the key of the test vector, as far as the vector says what
    SM4 in CBC mode does. The last block is the next chaining value, and there
    is nothing to do for no block. -/
def sdtTestDevice : Sm4Device :=
  { encrypt := fun mode iv data =>
      if data = [] then some ([], iv)
      else if mode = .cbc ∧ iv = List.replicate 16 0 ∧ data = sdtTestPlaintext then
        some (sdtTestCiphertext, sdtTestCiphertext)
      else none
    decrypt := fun mode iv data =>
      if mode = .cbc ∧ iv = List.replicate 16 0 ∧ data = sdtTestCiphertext then
        some (sdtTestPlaintext, sdtTestCiphertext)
      else none }

/-- Session keys with this device behind an SDF cipher. -/
def sdtTestKeys : SessionKeys DeviceCipher FixedAuth :=
  let cipher : DeviceCipher := { type := .sdf .cbc, device := sdtTestDevice, inIv := [], outIv := [] }
  { ref := 0
    rtpCipher := cipher
    rtpXtnHdrCipher := none
    rtpAuth := rocAuth
    rtcpCipher := cipher
    rtcpAuth := rocAuth
    salt := List.replicate 12 0
    cSalt := List.replicate 12 0
    mkiId := []
    salt_len := length_sampleSalt
    cSalt_len := length_sampleSalt
    mki_le := length_noMki }

/-- A session with one stream that has these keys. -/
def sdtTestSession : Session DeviceCipher FixedAuth := sessionOf (streamOf sdtTestKeys)

/-- An RTCP packet of SSRC 1. -/
def sampleRtcpPacket (rest : Octets) : Octets := [0x80, 200, 0, 6, 0, 0, 0, 1] ++ rest

/-- The state after an RTP packet with the payload of the test vector. -/
def sdtTestSent : Session DeviceCipher FixedAuth :=
  (srtpProtectMki sdtTestSession (samplePacket 0 0 sdtTestPlaintext) false 0).1

/-- The state after an RTCP packet with this payload. -/
def sdtTestSentRtcp : Session DeviceCipher FixedAuth :=
  (srtpProtectRtcpMki sdtTestSession (sampleRtcpPacket sdtTestPlaintext) false 0).1

/-- The second of two RTP packets, and the second of two RTCP packets, is
    encrypted under the IV of the first. -/
theorem device_iv_repeats_vector :
    (∃ p p' : Protected DeviceCipher,
      (srtpProtectMki sdtTestSession (samplePacket 0 0 sdtTestPlaintext) false 0).2 = .ok p ∧
      (srtpProtectMki sdtTestSent (samplePacket 0 1 sdtTestPlaintext) false 0).2 = .ok p' ∧
      p'.est ≠ p.est ∧ p'.cipher.inIv = p.cipher.inIv) ∧
    (∃ p p' : ProtectedRtcp DeviceCipher,
      (srtpProtectRtcpMki sdtTestSession (sampleRtcpPacket sdtTestPlaintext) false 0).2 = .ok p ∧
      (srtpProtectRtcpMki sdtTestSentRtcp (sampleRtcpPacket sdtTestPlaintext) false 0).2 =
        .ok p' ∧
      p'.seq ≠ p.seq ∧ p'.cipher.inIv = p.cipher.inIv) := by
  constructor
  · rcases map_eq_ok.mp (show
        (srtpProtectMki sdtTestSession (samplePacket 0 0 sdtTestPlaintext) false 0).2.map
          Protected.est = .ok 0 by decide +kernel) with ⟨p, hp, hest⟩
    rcases map_eq_ok.mp (show
        (srtpProtectMki sdtTestSent (samplePacket 0 1 sdtTestPlaintext) false 0).2.map
          Protected.est = .ok 1 by decide +kernel) with ⟨p', hp', hest'⟩
    have hrepeats := device_iv_repeats sdtTestSession sdtTestSent
      (samplePacket 0 0 sdtTestPlaintext) (samplePacket 0 1 sdtTestPlaintext) false false 0 0
    exact ⟨p, p', hp, hp', by omega, hrepeats.1 p p' rfl rfl hp hp'⟩
  · rcases map_eq_ok.mp (show
        (srtpProtectRtcpMki sdtTestSession (sampleRtcpPacket sdtTestPlaintext) false 0).2.map
          ProtectedRtcp.seq = .ok 1 by decide +kernel) with ⟨p, hp, hseq⟩
    rcases map_eq_ok.mp (show
        (srtpProtectRtcpMki sdtTestSentRtcp (sampleRtcpPacket sdtTestPlaintext) false 0).2.map
          ProtectedRtcp.seq = .ok 2 by decide +kernel) with ⟨p', hp', hseq'⟩
    have hrepeats := device_iv_repeats sdtTestSession sdtTestSentRtcp
      (sampleRtcpPacket sdtTestPlaintext) (sampleRtcpPacket sdtTestPlaintext) false false 0 0
    exact ⟨p, p', hp, hp', by omega, hrepeats.2 p p' rfl hp hp'⟩

/-- It is not so that two packets with distinct indices have distinct IVs: the
    payload of the test vector, sent twice. -/
theorem device_iv_collision :
    ¬ ∀ (s : Session DeviceCipher FixedAuth) (pkt pkt' : Octets) (p p' : Protected DeviceCipher),
      (∀ stream ∈ s.streamList, ∀ keys ∈ stream.sessionKeys,
        keys.rtpCipher.type.isChained = true) →
      hdrSsrc pkt' = hdrSsrc pkt →
      (srtpProtectMki s pkt false 0).2 = .ok p →
      (srtpProtectMki (srtpProtectMki s pkt false 0).1 pkt' false 0).2 = .ok p' →
      p'.est ≠ p.est → p'.cipher.inIv ≠ p.cipher.inIv := by
  intro h
  rcases map_eq_ok.mp (show
      (srtpProtectMki sdtTestSession (samplePacket 0 0 sdtTestPlaintext) false 0).2.map
        (fun p => (p.est, p.cipher.inIv)) = .ok (0, List.replicate 16 0) by
      decide +kernel) with ⟨p, hp, heq⟩
  rcases map_eq_ok.mp (show
      (srtpProtectMki
        (srtpProtectMki sdtTestSession (samplePacket 0 0 sdtTestPlaintext) false 0).1
        (samplePacket 0 1 sdtTestPlaintext) false 0).2.map
        (fun p => (p.est, p.cipher.inIv)) = .ok (1, List.replicate 16 0) by
      decide +kernel) with ⟨p', hp', heq'⟩
  rw [Prod.mk.injEq] at heq heq'
  exact h sdtTestSession _ _ p p' (by decide +kernel) (by decide) hp hp' (by omega)
    (by rw [heq.2, heq'.2])

end Samples

end Srtp

end CryptoOpal

import CryptoOpal.Srtp.Protect
import CryptoOpal.Srtp.UnprotectRtcp

/-!
# Sending RTCP

`srtp_protect_rtcp_mki` and `srtp_protect_rtcp_aead`.

Both paths take the next index of the stream's database and build the
protected packet under it. The index stays taken if building the packet
fails. RTCP is always authenticated, whatever the services say.

As for RTP, a protected packet comes with what its cipher was given.

## Main definitions

* `sealRtcpPlain`, `sealRtcpAead`: The protected packet of the two paths.
* `srtpProtectRtcpMki`: The function.

## Theorems

* `protectRtcp_ok`: What a call that succeeds has done.
-/

namespace CryptoOpal

namespace Srtp

open Lib (Octets)

variable {C A : Type} [CipherType C] [AuthType A]

/-- The tag over the encrypted packet and its trailer. -/
def computeRtcpTag (keys : SessionKeys C A) (body trailer pfx : Octets) :
    Except SrtpErrStatus Octets :=
  match AuthType.compute keys.rtcpAuth (body ++ trailer) pfx with
  | none => .error .authFail
  | some tag => .ok tag

/-- The counter mode path under its index: keystream prefix, encryption, tag.
    The trailer comes first, then the MKI, then the tag. -/
def sealRtcpPlain (services : SecServ) (keys : SessionKeys C A) (pkt : Octets) (useMki : Bool)
    (seq : Nat) : Except SrtpErrStatus (Sealed C) := do
  let trailer := srtcpTrailer services seq
  let iv := rtcpIv (CipherType.typeId keys.rtcpCipher) (rtcpSsrc pkt) seq
  let cipher ← cipherFailed (CipherType.setIv keys.rtcpCipher iv .encrypt)
  let (pfx, cipher) ← cipherFailed (cipherOutput cipher (AuthType.prefixLen keys.rtcpAuth))
  let (body, _) ← sealBody services cipher pkt octetsInRtcpHeader
  let tag ← computeRtcpTag keys body trailer pfx
  .ok { packet := body ++ trailer ++ injectMki keys useMki ++ tag
        iv := iv
        cipher := cipher }

/-- Encrypt what follows the header, or nothing at all: the cipher has to run
    for its tag. -/
def encryptRtcpAead (services : SecServ) (cipher : C) (pkt : Octets) :
    Except SrtpErrStatus (Octets × C) :=
  if services.hasConf then encryptPortion cipher pkt octetsInRtcpHeader
  else do
    let (_, cipher) ← CipherType.encrypt cipher []
    .ok (pkt, cipher)

/-- `srtp_protect_rtcp_aead` under its index. The tag comes first, then the
    trailer, then the MKI. -/
def sealRtcpAead (services : SecServ) (keys : SessionKeys C A) (pkt : Octets) (useMki : Bool)
    (seq : Nat) : Except SrtpErrStatus (Sealed C) := do
  let trailer := srtcpTrailer services seq
  let iv ← cipherFailed (rtcpAeadIv keys.cSalt (rtcpSsrc pkt) seq)
  let cipher ← cipherFailed (CipherType.setIv keys.rtcpCipher iv .encrypt)
  let cipher ← cipherFailed
    (CipherType.setAad cipher
      (pkt.take (if services.hasConf then octetsInRtcpHeader else pkt.length)))
  let cipher ← cipherFailed (CipherType.setAad cipher trailer)
  let (body, after) ← cipherFailed (encryptRtcpAead services cipher pkt)
  let tag ← cipherFailed (CipherType.getTag after (AuthType.outLen keys.rtcpAuth))
  .ok { packet := body ++ tag ++ trailer ++ injectMki keys useMki
        iv := iv
        cipher := cipher }

/-- The protected packet, by the path of the keys, which depends on the RTP
    cipher. -/
def sealRtcp (services : SecServ) (keys : SessionKeys C A) (pkt : Octets) (useMki : Bool)
    (seq : Nat) : Except SrtpErrStatus (Sealed C) :=
  if keys.isGcm then sealRtcpAead services keys pkt useMki seq
  else sealRtcpPlain services keys pkt useMki seq

/-- An RTCP packet to send, with the index and keys it went by and what its
    cipher was given. -/
structure ProtectedRtcp (C : Type) where
  packet : Octets
  seq : Nat
  ref : Nat
  iv : Octets
  cipher : C

/-- `srtp_protect_rtcp_mki`. -/
def srtpProtectRtcpMki (s : Session C A) (pkt : Octets) (useMki : Bool) (mkiIndex : Nat) :
    Session C A × Except SrtpErrStatus (ProtectedRtcp C) :=
  if pkt.length < octetsInRtcpHeader then (s, .error .badParam)
  else
    match s.outgoing (rtcpSsrc pkt) false with
    | .error e => (s, .error e)
    | .ok (s, stream) =>
      let keys := stream.keysAt useMki mkiIndex
      match stream.rtcpRdb.increment with
      | .error e => (s, .error e)
      | .ok rdb =>
        let s := s.putStream { stream with rtcpRdb := rdb }
        match sealRtcp stream.rtcpServices keys pkt useMki rdb.windowStart with
        | .error e => (s, .error e)
        | .ok o =>
          (s, .ok { packet := o.packet, seq := rdb.windowStart, ref := keys.ref, iv := o.iv
                    cipher := o.cipher })

/-- What a call that succeeds has done. -/
theorem protectRtcp_ok {s : Session C A} {pkt : Octets} {useMki : Bool} {mkiIndex : Nat}
    {p : ProtectedRtcp C} (hok : (srtpProtectRtcpMki s pkt useMki mkiIndex).2 = .ok p) :
    ∃ s₁ stream rdb o, octetsInRtcpHeader ≤ pkt.length ∧
      s.outgoing (rtcpSsrc pkt) false = .ok (s₁, stream) ∧
      stream.rtcpRdb.increment = .ok rdb ∧
      sealRtcp stream.rtcpServices (stream.keysAt useMki mkiIndex) pkt useMki rdb.windowStart =
        .ok o ∧
      p = { packet := o.packet, seq := rdb.windowStart
            ref := (stream.keysAt useMki mkiIndex).ref, iv := o.iv, cipher := o.cipher } ∧
      (srtpProtectRtcpMki s pkt useMki mkiIndex).1 =
        s₁.putStream { stream with rtcpRdb := rdb } := by
  unfold srtpProtectRtcpMki at hok ⊢
  by_cases hlen : pkt.length < octetsInRtcpHeader
  · exact absurd hok (by simp only [if_pos hlen, reduceCtorEq, not_false_eq_true])
  rw [if_neg hlen] at hok ⊢
  cases hout : s.outgoing (rtcpSsrc pkt) false with
  | error e => simp only [hout, reduceCtorEq] at hok
  | ok r =>
  rcases r with ⟨s₁, stream⟩
  simp only [hout] at hok ⊢
  cases hinc : stream.rtcpRdb.increment with
  | error e => simp only [hinc, reduceCtorEq] at hok
  | ok rdb =>
  simp only [hinc] at hok ⊢
  cases hseal : sealRtcp stream.rtcpServices (stream.keysAt useMki mkiIndex) pkt useMki
      rdb.windowStart with
  | error e => simp only [hseal, reduceCtorEq] at hok
  | ok o =>
      simp only [hseal, Except.ok.injEq] at hok
      exact ⟨s₁, stream, rdb, o, Nat.le_of_not_lt hlen, rfl, hinc, hseal, hok.symm, rfl⟩

end Srtp

end CryptoOpal

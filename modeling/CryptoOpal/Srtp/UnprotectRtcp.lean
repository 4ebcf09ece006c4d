import CryptoOpal.Srtp.RtcpHeader
import CryptoOpal.Srtp.Unprotect

/-!
# Receiving RTCP

`srtp_unprotect_rtcp_mki` and the AES-GCM path it dispatches to,
`srtp_unprotect_rtcp_aead`.

Everything the two paths can refuse a packet for comes before their first
change to the session. So a call opens the packet, which is a function of its
stream (`openRtcpPacket`), and then either leaves the session alone or
accepts the packet (`Session.acceptRtcp`). A use of the key is not counted.

The counter mode path computes the tag into a buffer on the stack. The null
authentication function leaves such a buffer as it is, so what it holds
before, `tmpTag`, is an argument of the model.

## Main definitions

* `Session.incomingRtcp`: The stream of a packet.
* `openRtcpPlain`, `openRtcpAead`: The two paths.
* `openRtcpPacket`: Keys, lengths and opening.
* `Session.acceptRtcp`: Direction, new stream and replay database.
* `srtpUnprotectRtcpMki`: The function.

## Theorems

* `unprotectRtcp_error`: A refused packet leaves the session as it was.
* `unprotectRtcp_ok`: What a call that succeeds has done.
-/

namespace CryptoOpal

namespace Srtp

open Lib (Octets slice overwrite ofBigEndian)

variable {C A : Type}

/-- The stream of a received packet, and whether it is the template. -/
def Session.incomingRtcp (s : Session C A) (pkt : Octets) :
    Except SrtpErrStatus (Stream C A × Bool) :=
  match s.getStream (rtcpSsrc pkt) with
  | some stream => .ok (stream, false)
  | none =>
    match s.streamTemplate with
    | none => .error .noCtx
    | some template => .ok (template, true)

/-- A packet goes by its stream or by the template. -/
theorem incomingRtcp_cases {s : Session C A} {pkt : Octets} {stream : Stream C A}
    {provisional : Bool} (h : s.incomingRtcp pkt = .ok (stream, provisional)) :
    (provisional = false ∧ s.getStream (rtcpSsrc pkt) = some stream) ∨
      (provisional = true ∧ s.getStream (rtcpSsrc pkt) = none ∧
        s.streamTemplate = some stream) := by
  unfold Session.incomingRtcp at h
  cases hget : s.getStream (rtcpSsrc pkt) with
  | some found =>
      simp only [hget, Except.ok.injEq, Prod.mk.injEq] at h
      exact Or.inl ⟨h.2.symm, by rw [h.1]⟩
  | none =>
      cases htemplate : s.streamTemplate with
      | none => simp only [hget, htemplate, reduceCtorEq] at h
      | some template =>
          simp only [hget, htemplate, Except.ok.injEq, Prod.mk.injEq] at h
          exact Or.inr ⟨h.2.symm, rfl, by rw [h.1]⟩

/-- Either way, it goes by the keying of its SSRC. -/
theorem keyingOn_incomingRtcp {s : Session C A} {pkt : Octets} {stream : Stream C A}
    {provisional : Bool} (h : s.incomingRtcp pkt = .ok (stream, provisional)) :
    s.keyingOn (rtcpSsrc pkt) = some stream.keying := by
  rcases incomingRtcp_cases h with ⟨-, hget⟩ | ⟨-, hget, htemplate⟩
  · exact Session.keyingOn_of_getStream hget
  · rw [Session.keyingOn, hget, htemplate, Option.map_some]

/-- `srtp_rdb_add_index(&stream->rtcp_rdb, seq_num)`. -/
def Stream.recordRtcp (stream : Stream C A) (seq : Nat) : Stream C A :=
  { stream with rtcpRdb := stream.rtcpRdb.addIndex seq }

/-- The end of both paths: claim the direction, make a stream of its own for a
    packet that went by the template, and record the index. -/
def Session.acceptRtcp (s : Session C A) (stream : Stream C A) (provisional : Bool)
    (pkt : Octets) (seq : Nat) : Session C A :=
  let stream := stream.claimDirection .srtpReceiver
  if provisional then
    (s.putTemplate stream).insertStream ((stream.clone (rtcpSsrc pkt)).recordRtcp seq)
  else s.putStream (stream.recordRtcp seq)

variable [CipherType C] [AuthType A]

/-- Compare the tag at the end of a packet with the one computed over the
    packet and its trailer. -/
def checkRtcpTag (keys : SessionKeys C A) (tmpTag pkt : Octets) (mkiSize : Nat) :
    Except Stop Unit :=
  let tagLen := AuthType.outLen keys.rtcpAuth
  let authLen := pkt.length - tagLen - mkiSize
  match AuthType.compute keys.rtcpAuth (pkt.take authLen) tmpTag with
  | none => .error (.status .authFail)
  | some tag => refuseIf (tag ≠ slice pkt (authLen + mkiSize) tagLen) (.status .authFail)

/-- The keystream prefix of a universal hash. It goes where the tag was, and
    is cut off with it. -/
def rtcpKeystreamPrefix (keys : SessionKeys C A) (cipher : C) :
    Except SrtpErrStatus (Octets × C) :=
  if AuthType.prefixLen keys.rtcpAuth ≠ 0 then
    cipherOutput cipher (AuthType.prefixLen keys.rtcpAuth)
  else .ok ([], cipher)

/-- Decrypt what follows the header, if there is confidentiality. -/
def decryptRtcp (services : SecServ) (cipher : C) (pkt : Octets) (bodyLen : Nat) :
    Except Stop Octets :=
  if services.hasConf then do
    let (data, _) ← orStop (fun _ => .status .cipherFail)
      (CipherType.decrypt cipher
        (slice pkt octetsInRtcpHeader (bodyLen - octetsInRtcpHeader)))
    .ok (overwrite pkt octetsInRtcpHeader data)
  else .ok pkt

/-- The counter mode path: encryption bit, replay check, IV, tag, decryption.
    It returns the packet and its index. -/
def openRtcpPlain (stream : Stream C A) (keys : SessionKeys C A) (tmpTag pkt : Octets)
    (mkiSize : Nat) : Except Stop (Octets × Nat) := do
  let bodyLen := pkt.length - (AuthType.outLen keys.rtcpAuth + mkiSize + srtcpTrailerLen)
  let trailer := slice pkt bodyLen srtcpTrailerLen
  refuseIf (trailerEBit trailer ≠ stream.rtcpServices.hasConf) (.status .cantCheck)
  orStop .status (stream.rtcpRdb.check (trailerIndex trailer))
  let iv := rtcpIv (CipherType.typeId keys.rtcpCipher) (rtcpSsrc pkt) (trailerIndex trailer)
  let cipher ← orStop (fun _ => .status .cipherFail)
    (CipherType.setIv keys.rtcpCipher iv .decrypt)
  checkRtcpTag keys tmpTag pkt mkiSize
  let (_, cipher) ← orStop (fun _ => .status .cipherFail) (rtcpKeystreamPrefix keys cipher)
  let body ← decryptRtcp stream.rtcpServices cipher pkt bodyLen
  .ok (body, trailerIndex trailer)

/-- `srtp_unprotect_rtcp_aead`. It goes by the encryption bit of the packet,
    and an unencrypted packet is associated data as a whole. -/
def openRtcpAead (stream : Stream C A) (keys : SessionKeys C A) (pkt : Octets)
    (mkiSize : Nat) : Except Stop (Octets × Nat) := do
  let tagLen := AuthType.outLen keys.rtcpAuth
  let trailer := slice pkt (pkt.length - srtcpTrailerLen - mkiSize) srtcpTrailerLen
  let bodyLen := pkt.length - tagLen - srtcpTrailerLen - mkiSize
  let start := if trailerEBit trailer then octetsInRtcpHeader else bodyLen
  let len := if trailerEBit trailer then
    pkt.length - (octetsInRtcpHeader + srtcpTrailerLen + mkiSize) else tagLen
  orStop .status (stream.rtcpRdb.check (trailerIndex trailer))
  let iv ← orStop (fun _ => .status .cipherFail)
    (rtcpAeadIv keys.cSalt (rtcpSsrc pkt) (trailerIndex trailer))
  let cipher ← orStop (fun _ => .status .cipherFail)
    (CipherType.setIv keys.rtcpCipher iv .decrypt)
  let cipher ← orStop (fun _ => .status .cipherFail)
    (CipherType.setAad cipher (pkt.take start))
  let cipher ← orStop (fun _ => .status .cipherFail) (CipherType.setAad cipher trailer)
  let (data, _) ← orStop .status (CipherType.decrypt cipher (slice pkt start len))
  .ok (overwrite pkt start data, trailerIndex trailer)

/-- The path of the keys, which depends on the RTP cipher. -/
def openRtcp (stream : Stream C A) (keys : SessionKeys C A) (tmpTag pkt : Octets)
    (mkiSize : Nat) : Except Stop (Octets × Nat) :=
  if keys.isGcm then openRtcpAead stream keys pkt mkiSize
  else openRtcpPlain stream keys tmpTag pkt mkiSize

/-- A received RTCP packet: what the caller gets, and the index and keys it
    went by. -/
structure UnprotectedRtcp where
  packet : Octets
  seq : Nat
  ref : Nat
  deriving DecidableEq

/-- Keys, lengths and opening of a packet. -/
def openRtcpPacket (stream : Stream C A) (pkt : Octets) (useMki : Bool) (tmpTag : Octets) :
    Except Stop UnprotectedRtcp := do
  let (keys, mkiSize) ← selectKeys stream pkt useMki
  let tagLen := AuthType.outLen keys.rtcpAuth
  rtcpLengths pkt tagLen mkiSize
  let (body, seq) ← openRtcp stream keys tmpTag pkt mkiSize
  .ok { packet := body.take (pkt.length - (tagLen + srtcpTrailerLen) - mkiSize)
        seq := seq
        ref := keys.ref }

/-- `srtp_unprotect_rtcp_mki`. -/
def srtpUnprotectRtcpMki (s : Session C A) (pkt : Octets) (useMki : Bool) (tmpTag : Octets) :
    Session C A × Except Stop UnprotectedRtcp :=
  if pkt.length < octetsInRtcpHeader + srtcpTrailerLen then (s, .error (.status .badParam))
  else
    match s.incomingRtcp pkt with
    | .error e => (s, .error (.status e))
    | .ok (stream, provisional) =>
      match openRtcpPacket stream pkt useMki tmpTag with
      | .error stop => (s, .error stop)
      | .ok u => (s.acceptRtcp stream provisional pkt u.seq, .ok u)

/-- A refused packet leaves the session as it was. -/
theorem unprotectRtcp_error {s : Session C A} {pkt : Octets} {useMki : Bool} {tmpTag : Octets}
    {stop : Stop} (h : (srtpUnprotectRtcpMki s pkt useMki tmpTag).2 = .error stop) :
    (srtpUnprotectRtcpMki s pkt useMki tmpTag).1 = s := by
  unfold srtpUnprotectRtcpMki at h ⊢
  by_cases hlen : pkt.length < octetsInRtcpHeader + srtcpTrailerLen
  · rw [if_pos hlen]
  rw [if_neg hlen] at h ⊢
  cases hinc : s.incomingRtcp pkt with
  | error e => rfl
  | ok r =>
      rcases r with ⟨stream, provisional⟩
      simp only [hinc] at h ⊢
      cases hopen : openRtcpPacket stream pkt useMki tmpTag with
      | error stop => rfl
      | ok u => simp only [hopen, reduceCtorEq] at h

/-- What a call that succeeds has done. -/
theorem unprotectRtcp_ok {s : Session C A} {pkt : Octets} {useMki : Bool} {tmpTag : Octets}
    {u : UnprotectedRtcp} (h : (srtpUnprotectRtcpMki s pkt useMki tmpTag).2 = .ok u) :
    ∃ stream provisional, s.incomingRtcp pkt = .ok (stream, provisional) ∧
      openRtcpPacket stream pkt useMki tmpTag = .ok u ∧
      (srtpUnprotectRtcpMki s pkt useMki tmpTag).1 =
        s.acceptRtcp stream provisional pkt u.seq := by
  unfold srtpUnprotectRtcpMki at h ⊢
  by_cases hlen : pkt.length < octetsInRtcpHeader + srtcpTrailerLen
  · exact absurd h (by simp only [if_pos hlen, reduceCtorEq, not_false_eq_true])
  rw [if_neg hlen] at h ⊢
  cases hinc : s.incomingRtcp pkt with
  | error e => simp only [hinc, reduceCtorEq] at h
  | ok r =>
      rcases r with ⟨stream, provisional⟩
      simp only [hinc] at h ⊢
      cases hopen : openRtcpPacket stream pkt useMki tmpTag with
      | error stop => simp only [hopen, reduceCtorEq] at h
      | ok u' =>
          simp only [hopen, Except.ok.injEq] at h
          exact ⟨stream, provisional, rfl, by rw [hopen, h], by rw [h]⟩

end Srtp

end CryptoOpal

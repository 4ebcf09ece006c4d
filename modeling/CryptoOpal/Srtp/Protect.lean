import CryptoOpal.Srtp.Outgoing
import CryptoOpal.Srtp.Unprotect

/-!
# Sending RTP

`srtp_protect_mki` and `srtp_protect_aead`.

The two paths have one shape: count a use of the key, check that there is an
encrypted portion, take the packet's index, and build the protected packet
under it. They differ in how they take the index and in what they build.
The index is taken before the packet is built, and stays taken if building it
fails.

A protected packet comes with the index it went by and with what its cipher
was given: the IV, and the cipher as it was handed to `srtp_cipher_encrypt`.
The C function returns none of these.

## Main definitions

* `sealPlain`, `sealAead`: The protected packet of the two paths.
* `srtpProtectMki`: The function.
* `ProtectStep`: Everything a call can do to a session.

## Theorems

* `protect_cases`: What a call does to a session.
* `protect_ok`: What a call that succeeds has done.
-/

namespace CryptoOpal

namespace Srtp

open Lib (Octets slice overwrite)

variable {C A : Type}

/-- `srtp_get_session_keys_with_mki_index`. -/
def Stream.keysAt (stream : Stream C A) (useMki : Bool) (mkiIndex : Nat) : SessionKeys C A :=
  if useMki then stream.sessionKeys.getD mkiIndex stream.firstKeys else stream.firstKeys

theorem Stream.keysAt_mem (stream : Stream C A) (useMki : Bool) (mkiIndex : Nat) :
    stream.keysAt useMki mkiIndex ∈ stream.sessionKeys := by
  have hhead : stream.firstKeys ∈ stream.sessionKeys := List.head_mem stream.keys_ne
  unfold Stream.keysAt
  split
  · rw [List.getD_eq_getElem?_getD]
    cases hget : stream.sessionKeys[mkiIndex]? with
    | none => exact hhead
    | some keys => exact List.mem_of_getElem? hget
  · exact hhead

variable [CipherType C] [AuthType A]

/-- `srtp_inject_mki`: the MKI that goes into the packet. -/
def injectMki (keys : SessionKeys C A) (useMki : Bool) : Octets :=
  if useMki then keys.mkiId else []

/-- A packet built under its index, with what its cipher was given. -/
structure Sealed (C : Type) where
  packet : Octets
  iv : Octets
  cipher : C

/-- Encrypt a packet from the start of its encrypted portion on. -/
def encryptPortion (cipher : C) (pkt : Octets) (start : Nat) :
    Except SrtpErrStatus (Octets × C) := do
  let (data, cipher) ← CipherType.encrypt cipher (slice pkt start (pkt.length - start))
  .ok (overwrite pkt start data, cipher)

/-- The status a failed cipher call becomes. -/
def cipherFailed {α : Type} : Except SrtpErrStatus α → Except SrtpErrStatus α
  | .ok a => .ok a
  | .error _ => .error .cipherFail

theorem cipherFailed_eq_ok {α : Type} {x : Except SrtpErrStatus α} {a : α} :
    cipherFailed x = .ok a ↔ x = .ok a := by
  cases x <;> simp only [cipherFailed, reduceCtorEq, Except.ok.injEq]

/-- The tag over the encrypted packet and the rollover counter. -/
def computeTag (keys : SessionKeys C A) (body : Octets) (est : Nat) (pfx : Octets) :
    Except SrtpErrStatus Octets :=
  match AuthType.compute keys.rtpAuth (body ++ rocOctets est) pfx with
  | none => .error .authFail
  | some tag => .ok tag

/-- The keystream prefix, if the packet is to be authenticated. -/
def sealPrefix (services : SecServ) (keys : SessionKeys C A) (cipher : C) :
    Except SrtpErrStatus (Octets × C) :=
  if services.hasAuth then cipherFailed (keystreamPrefix keys cipher) else .ok ([], cipher)

/-- The packet with its encrypted portion, if there is confidentiality. -/
def sealBody (services : SecServ) (cipher : C) (pkt : Octets) (start : Nat) :
    Except SrtpErrStatus (Octets × C) :=
  if services.hasConf then cipherFailed (encryptPortion cipher pkt start) else .ok (pkt, cipher)

/-- The tag, if the packet is to be authenticated. -/
def sealTag (services : SecServ) (keys : SessionKeys C A) (body : Octets) (est : Nat)
    (pfx : Octets) : Except SrtpErrStatus Octets :=
  if services.hasAuth then computeTag keys body est pfx else .ok []

/-- The counter mode path under its index: keystream prefix, extension,
    encryption, tag. The MKI comes before the tag. -/
def sealPlain (stream : Keying C A) (keys : SessionKeys C A) (pkt : Octets) (useMki : Bool)
    (est : Nat) : Except SrtpErrStatus (Sealed C) := do
  let (cipher, xtn) ← cipherFailed (setRtpIvs keys pkt est .encrypt)
  let (pfx, cipher) ← sealPrefix stream.services keys cipher
  let extended ← processXtn stream.encXtnHdr xtn (hdrX pkt && stream.services.hasConf) pkt
  let (body, _) ← sealBody stream.services cipher extended (encStart pkt)
  let tag ← sealTag stream.services keys body est pfx
  .ok { packet := body ++ injectMki keys useMki ++ tag
        iv := rtpIv (CipherType.typeId keys.rtpCipher) (hdrSsrc pkt) est
        cipher := cipher }

/-- The AEAD path under its index. The tag comes before the MKI. -/
def sealAead (stream : Keying C A) (keys : SessionKeys C A) (pkt : Octets) (useMki : Bool)
    (est : Nat) : Except SrtpErrStatus (Sealed C) := do
  let (cipher, xtn) ← cipherFailed (setAeadIvs keys pkt est .encrypt)
  let extended ← processXtn stream.encXtnHdr xtn (hdrX pkt) pkt
  let cipher ← cipherFailed (CipherType.setAad cipher (extended.take (encStart pkt)))
  let (body, after) ← cipherFailed (encryptPortion cipher extended (encStart pkt))
  let tag ← cipherFailed (CipherType.getTag after (AuthType.outLen keys.rtpAuth))
  .ok { packet := body ++ tag ++ injectMki keys useMki
        iv := aeadIv keys.salt (hdrSsrc pkt) est
        cipher := cipher }

/-- A packet to send, with the index and keys it went by and what its cipher
    was given. -/
structure Protected (C : Type) where
  packet : Octets
  est : Nat
  ref : Nat
  iv : Octets
  cipher : C

/-- The shape of both paths: count a use of the key, check the encrypted
    portion, take the index, build the packet. -/
def finishProtect (s : Session C A) (keys : SessionKeys C A) (pkt : Octets) (portion : Bool)
    (index : Except SrtpErrStatus (Stream C A × Nat))
    (build : Nat → Except SrtpErrStatus (Sealed C)) :
    Session C A × Except SrtpErrStatus (Protected C) :=
  let used := s.useKey keys
  if used.2 = .hardLimit then (used.1, .error .keyExpired)
  else if portion ∧ pkt.length < encStart pkt then (used.1, .error .parseErr)
  else
    match index with
    | .error e => (used.1, .error e)
    | .ok (stream, est) =>
      match build est with
      | .error e => (used.1.putStream stream, .error e)
      | .ok o =>
        (used.1.putStream stream,
          .ok { packet := o.packet, est := est, ref := keys.ref, iv := o.iv, cipher := o.cipher })

/-- The counter mode part of `srtp_protect_mki`. -/
def protectPlain (s : Session C A) (stream : Stream C A) (keys : SessionKeys C A) (pkt : Octets)
    (useMki : Bool) : Session C A × Except SrtpErrStatus (Protected C) :=
  finishProtect s keys pkt stream.rtpServices.hasConf (stream.takeIndex (hdrSeq pkt))
    (sealPlain stream.keying keys pkt useMki)

/-- `srtp_protect_aead`. -/
def protectAead (s : Session C A) (stream : Stream C A) (keys : SessionKeys C A) (pkt : Octets)
    (useMki : Bool) : Session C A × Except SrtpErrStatus (Protected C) :=
  finishProtect s keys pkt true (stream.takeIndexAead (hdrSeq pkt))
    (sealAead stream.keying keys pkt useMki)

/-- `srtp_protect_mki`. -/
def srtpProtectMki (s : Session C A) (pkt : Octets) (useMki : Bool) (mkiIndex : Nat) :
    Session C A × Except SrtpErrStatus (Protected C) :=
  match validateRtpHeader pkt with
  | .error e => (s, .error e)
  | .ok _ =>
    match s.outgoing (hdrSsrc pkt) true with
    | .error e => (s, .error e)
    | .ok (s, stream) =>
      let keys := stream.keysAt useMki mkiIndex
      if keys.isGcm then protectAead s stream keys pkt useMki
      else protectPlain s stream keys pkt useMki

/-- The stream takes an index for a packet, by the path of the keys. -/
def Stream.TakesIndex (stream : Stream C A) (keys : SessionKeys C A) (seq : UInt16)
    (stream' : Stream C A) (est : Nat) : Prop :=
  (if keys.isGcm then stream.takeIndexAead seq else stream.takeIndex seq) = .ok (stream', est)

/-- The protected packet, by the path of the keys. -/
def sealPacket (stream : Keying C A) (keys : SessionKeys C A) (pkt : Octets) (useMki : Bool)
    (est : Nat) : Except SrtpErrStatus (Sealed C) :=
  if keys.isGcm then sealAead stream keys pkt useMki est
  else sealPlain stream keys pkt useMki est

/-- Everything a call can do to a session, with its result: nothing, use the
    key, take an index, or protect the packet. -/
inductive ProtectStep (s : Session C A) (pkt : Octets) (useMki : Bool) (mkiIndex : Nat) :
    Session C A → Except SrtpErrStatus (Protected C) → Prop where
  | refused (e : SrtpErrStatus) : ProtectStep s pkt useMki mkiIndex s (.error e)
  | counted (s₁ : Session C A) (stream : Stream C A) (e : SrtpErrStatus)
      (hout : s.outgoing (hdrSsrc pkt) true = .ok (s₁, stream)) :
      ProtectStep s pkt useMki mkiIndex (s₁.useKey (stream.keysAt useMki mkiIndex)).1 (.error e)
  | taken (s₁ : Session C A) (stream stream' : Stream C A) (est : Nat) (e : SrtpErrStatus)
      (hout : s.outgoing (hdrSsrc pkt) true = .ok (s₁, stream))
      (hindex : stream.TakesIndex (stream.keysAt useMki mkiIndex) (hdrSeq pkt) stream' est) :
      ProtectStep s pkt useMki mkiIndex
        ((s₁.useKey (stream.keysAt useMki mkiIndex)).1.putStream stream') (.error e)
  | sent (s₁ : Session C A) (stream stream' : Stream C A) (est : Nat) (o : Sealed C)
      (hout : s.outgoing (hdrSsrc pkt) true = .ok (s₁, stream))
      (hlimit : (s₁.useKey (stream.keysAt useMki mkiIndex)).2 ≠ .hardLimit)
      (hindex : stream.TakesIndex (stream.keysAt useMki mkiIndex) (hdrSeq pkt) stream' est)
      (hseal : sealPacket stream.keying (stream.keysAt useMki mkiIndex) pkt useMki est = .ok o) :
      ProtectStep s pkt useMki mkiIndex
        ((s₁.useKey (stream.keysAt useMki mkiIndex)).1.putStream stream')
        (.ok { packet := o.packet, est := est, ref := (stream.keysAt useMki mkiIndex).ref
               iv := o.iv, cipher := o.cipher })

theorem finishProtect_cases {s s₁ : Session C A} {stream : Stream C A} {pkt : Octets}
    {useMki portion : Bool} {mkiIndex : Nat} {index : Except SrtpErrStatus (Stream C A × Nat)}
    {build : Nat → Except SrtpErrStatus (Sealed C)}
    (hout : s.outgoing (hdrSsrc pkt) true = .ok (s₁, stream))
    (hindex : ∀ r, index = .ok r →
      stream.TakesIndex (stream.keysAt useMki mkiIndex) (hdrSeq pkt) r.1 r.2)
    (hbuild : ∀ est, build est =
      sealPacket stream.keying (stream.keysAt useMki mkiIndex) pkt useMki est) :
    ProtectStep s pkt useMki mkiIndex
      (finishProtect s₁ (stream.keysAt useMki mkiIndex) pkt portion index build).1
      (finishProtect s₁ (stream.keysAt useMki mkiIndex) pkt portion index build).2 := by
  simp only [finishProtect]
  by_cases hlimit : (s₁.useKey (stream.keysAt useMki mkiIndex)).2 = .hardLimit
  · rw [if_pos hlimit]
    exact .counted s₁ stream _ hout
  rw [if_neg hlimit]
  by_cases hportion : portion ∧ pkt.length < encStart pkt
  · rw [if_pos hportion]
    exact .counted s₁ stream _ hout
  rw [if_neg hportion]
  cases hi : index with
  | error e => exact .counted s₁ stream e hout
  | ok r =>
      have htake := hindex r hi
      cases hb : build r.2 with
      | error e =>
          simp only [hb]
          exact .taken s₁ stream r.1 r.2 e hout htake
      | ok o =>
          simp only [hb]
          exact .sent s₁ stream r.1 r.2 o hout hlimit htake (by rw [← hbuild, hb])

/-- What a call does to a session, whatever the packet. -/
theorem protect_cases (s : Session C A) (pkt : Octets) (useMki : Bool) (mkiIndex : Nat) :
    ProtectStep s pkt useMki mkiIndex (srtpProtectMki s pkt useMki mkiIndex).1
      (srtpProtectMki s pkt useMki mkiIndex).2 := by
  cases hvalid : validateRtpHeader pkt with
  | error e =>
      simp only [srtpProtectMki, hvalid]
      exact .refused e
  | ok u =>
  cases hout : s.outgoing (hdrSsrc pkt) true with
  | error e =>
      simp only [srtpProtectMki, hvalid, hout]
      exact .refused e
  | ok r =>
  rcases r with ⟨s₁, stream⟩
  simp only [srtpProtectMki, hvalid, hout]
  cases hgcm : (stream.keysAt useMki mkiIndex).isGcm with
  | true =>
      rw [if_pos rfl, protectAead]
      refine finishProtect_cases hout (fun r hr => ?_) (fun est => ?_)
      · rw [Stream.TakesIndex, hgcm, if_pos rfl, hr]
      · rw [sealPacket, hgcm, if_pos rfl]
  | false =>
      rw [if_neg (by decide), protectPlain]
      refine finishProtect_cases hout (fun r hr => ?_) (fun est => ?_)
      · rw [Stream.TakesIndex, hgcm, if_neg (by decide), hr]
      · rw [sealPacket, hgcm, if_neg (by decide)]

/-- What a call that succeeds has done. -/
theorem protect_ok {s : Session C A} {pkt : Octets} {useMki : Bool} {mkiIndex : Nat}
    {p : Protected C} (hok : (srtpProtectMki s pkt useMki mkiIndex).2 = .ok p) :
    ∃ s₁ stream stream' est o, s.outgoing (hdrSsrc pkt) true = .ok (s₁, stream) ∧
      (s₁.useKey (stream.keysAt useMki mkiIndex)).2 ≠ .hardLimit ∧
      stream.TakesIndex (stream.keysAt useMki mkiIndex) (hdrSeq pkt) stream' est ∧
      sealPacket stream.keying (stream.keysAt useMki mkiIndex) pkt useMki est = .ok o ∧
      p = { packet := o.packet, est := est, ref := (stream.keysAt useMki mkiIndex).ref
            iv := o.iv, cipher := o.cipher } ∧
      (srtpProtectMki s pkt useMki mkiIndex).1 =
        (s₁.useKey (stream.keysAt useMki mkiIndex)).1.putStream stream' := by
  have hstep := protect_cases s pkt useMki mkiIndex
  generalize srtpProtectMki s pkt useMki mkiIndex = r at hstep hok
  rcases r with ⟨s', result⟩
  cases hstep with
  | refused e => exact absurd hok (by simp only [reduceCtorEq, not_false_eq_true])
  | counted => exact absurd hok (by simp only [reduceCtorEq, not_false_eq_true])
  | taken => exact absurd hok (by simp only [reduceCtorEq, not_false_eq_true])
  | sent s₁ stream stream' est o hout hlimit htake hseal =>
      rw [Except.ok.injEq] at hok
      exact ⟨s₁, stream, stream', est, o, hout, hlimit, htake, hseal, hok.symm, rfl⟩

end Srtp

end CryptoOpal

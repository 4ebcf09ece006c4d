import CryptoOpal.Srtp.Incoming
import CryptoOpal.Srtp.HeaderEncryption

/-!
# Receiving RTP

`srtp_unprotect_mki` and the AES-GCM path it dispatches to,
`srtp_unprotect_aead`.

Both paths are a sequence of stages. First the packet finds its stream and
its index (`Session.incoming`), then its session keys (`selectKeys`). The
counter mode path then authenticates (`openPlain`), counts the use of the
key, decrypts (`decryptPlain`), and records the packet
(`Session.accept`). The AEAD path counts the use first and authenticates
while it decrypts (`readyAead`, `openAead`). Only the last stages change the
session, so each path is a few lines over stages that are pure functions.

A call returns the session it leaves behind. Its result carries, next to the
plaintext packet, the index and the key reference it went by: the C function
returns neither, and they are there for the statements made about runs.

`unprotect_cases` says everything a call can do to a session, and the
theorems about runs start from it.

## Main definitions

* `findMki`, `selectKeys`: The session keys of a packet.
* `openPlain`, `decryptPlain`: The stages of the counter mode path.
* `readyAead`, `openAead`: The stages of the AEAD path.
* `srtpUnprotectMki`: The function.
* `Opens`: A packet that authenticates and decrypts.
* `UnprotectStep`: Everything a call can do to a session.

## Theorems

* `unprotect_cases`: What a call does to a session.
* `unprotect_ok`: What a call that succeeds has done.
-/

namespace CryptoOpal

namespace Srtp

open Lib (Octets slice overwrite)

variable {C A : Type}

/-- The loop of `srtp_get_session_keys` over the stream's keys, given where
    the tag starts. The MKI is looked for right before it. -/
def findMki (pkt : Octets) (base : Nat) :
    List (SessionKeys C A) → Except Stop (SessionKeys C A × Nat)
  | [] => .error (.status .badMki)
  | keys :: rest =>
    if keys.mkiId.length = 0 then findMki pkt base rest
    else if keys.mkiId.length ≤ sub32 base keys.mkiId.length then do
      inside pkt (sub32 base keys.mkiId.length) keys.mkiId.length
      if slice pkt (sub32 base keys.mkiId.length) keys.mkiId.length = keys.mkiId then
        .ok (keys, keys.mkiId.length)
      else findMki pkt base rest
    else findMki pkt base rest

/-- A search that succeeds returns keys from the list, with their MKI's
    length. -/
theorem mem_of_findMki {pkt : Octets} {base : Nat} {l : List (SessionKeys C A)}
    {keys : SessionKeys C A} {mkiSize : Nat} (h : findMki pkt base l = .ok (keys, mkiSize)) :
    keys ∈ l ∧ mkiSize = keys.mkiId.length := by
  induction l with
  | nil => exact absurd h (by simp only [findMki, reduceCtorEq, not_false_eq_true])
  | cons k l ih =>
      have hrest : findMki pkt base l = .ok (keys, mkiSize) →
          keys ∈ k :: l ∧ mkiSize = keys.mkiId.length :=
        fun hl => ⟨List.mem_cons_of_mem _ (ih hl).1, (ih hl).2⟩
      rw [findMki] at h
      by_cases hempty : k.mkiId.length = 0
      · rw [if_pos hempty] at h
        exact hrest h
      rw [if_neg hempty] at h
      by_cases hroom : k.mkiId.length ≤ sub32 base k.mkiId.length
      · rw [if_pos hroom] at h
        rcases bind_eq_ok.mp h with ⟨u, -, hcmp⟩
        by_cases heq : slice pkt (sub32 base k.mkiId.length) k.mkiId.length = k.mkiId
        · rw [if_pos heq, Except.ok.injEq, Prod.mk.injEq] at hcmp
          rw [← hcmp.1, ← hcmp.2]
          exact ⟨List.mem_cons_self, rfl⟩
        · rw [if_neg heq] at hcmp
          exact hrest hcmp
      · rw [if_neg hroom] at h
        exact hrest h

variable [CipherType C] [AuthType A]

/-- The tag length `srtp_get_session_keys` goes by: that of RTP, and none for
    AES-GCM. -/
def mkiTagLen (stream : Stream C A) : Nat :=
  if (CipherType.algorithm stream.firstKeys.rtpCipher).isGcm then 0
  else AuthType.outLen stream.firstKeys.rtpAuth

/-- `srtp_get_session_keys`. -/
def srtpGetSessionKeys (stream : Stream C A) (pkt : Octets) :
    Except Stop (SessionKeys C A × Nat) := do
  refuseIf (pkt.length < mkiTagLen stream) (.status .badMki)
  findMki pkt (pkt.length - mkiTagLen stream) stream.sessionKeys

/-- The session keys of a packet, and the length of its MKI. -/
def selectKeys (stream : Stream C A) (pkt : Octets) (useMki : Bool) :
    Except Stop (SessionKeys C A × Nat) :=
  if useMki then srtpGetSessionKeys stream pkt else .ok (stream.firstKeys, 0)

/-- The keys a packet selects are keys of its stream, with their MKI or none. -/
theorem mem_of_selectKeys {stream : Stream C A} {pkt : Octets} {useMki : Bool}
    {keys : SessionKeys C A} {mkiSize : Nat}
    (h : selectKeys stream pkt useMki = .ok (keys, mkiSize)) :
    keys ∈ stream.sessionKeys ∧ (mkiSize = 0 ∨ mkiSize = keys.mkiId.length) := by
  rw [selectKeys] at h
  by_cases hmki : useMki
  · rw [if_pos hmki, srtpGetSessionKeys] at h
    rcases bind_eq_ok.mp h with ⟨u, -, hfind⟩
    exact ⟨(mem_of_findMki hfind).1, Or.inr (mem_of_findMki hfind).2⟩
  · rw [if_neg hmki, Except.ok.injEq, Prod.mk.injEq] at h
    rw [← h.1, ← h.2]
    exact ⟨List.head_mem stream.keys_ne, Or.inl rfl⟩

/-- No MKI is longer than the policy check admits. -/
theorem mkiSize_le {stream : Stream C A} {pkt : Octets} {useMki : Bool} {keys : SessionKeys C A}
    {mkiSize : Nat} (h : selectKeys stream pkt useMki = .ok (keys, mkiSize)) :
    mkiSize ≤ srtpMaxMkiLen := by
  rcases (mem_of_selectKeys h).2 with hzero | hlength
  · rw [hzero]
    exact Nat.zero_le _
  · rw [hlength]
    exact keys.mki_le

/-- Set the IVs of the packet cipher and, if there is one, of the extension
    cipher. -/
def setIvs (keys : SessionKeys C A) (iv : Octets) (dir : CipherDirection) (xtnIv : Octets)
    (xtnDir : CipherDirection) : Except SrtpErrStatus (C × Option C) := do
  let cipher ← CipherType.setIv keys.rtpCipher iv dir
  match keys.rtpXtnHdrCipher with
  | none => .ok (cipher, none)
  | some xtn => do
    let xtn ← CipherType.setIv xtn xtnIv xtnDir
    .ok (cipher, some xtn)

/-- The IVs of the counter mode path. -/
def setRtpIvs (keys : SessionKeys C A) (pkt : Octets) (est : Nat) (dir : CipherDirection) :
    Except SrtpErrStatus (C × Option C) :=
  let iv := rtpIv (CipherType.typeId keys.rtpCipher) (hdrSsrc pkt) est
  setIvs keys iv dir iv dir

/-- The IVs of the AEAD path. The extension cipher is a counter mode cipher. -/
def setAeadIvs (keys : SessionKeys C A) (pkt : Octets) (est : Nat) (dir : CipherDirection) :
    Except SrtpErrStatus (C × Option C) :=
  setIvs keys (aeadIv keys.salt (hdrSsrc pkt) est) dir (icmIv (hdrSsrc pkt) est) .encrypt

/-- The keystream prefix of a universal hash; none of the other authentication
    functions has one. -/
def keystreamPrefix (keys : SessionKeys C A) (cipher : C) : Except SrtpErrStatus (Octets × C) :=
  if AuthType.prefixLen keys.rtpAuth ≠ 0 then
    cipherOutput cipher (AuthType.prefixLen keys.rtpAuth)
  else .ok ([], cipher)

/-- The encrypted portion of a received packet, or none if there is no
    confidentiality: its start and length. -/
def encPortion (services : SecServ) (pkt : Octets) (tagLen mkiSize : Nat) :
    Except Stop (Option (Nat × Nat)) :=
  if services.hasConf then do
    let limit := sub32 (sub32 pkt.length tagLen) mkiSize
    refuseIf (limit < encStart pkt) (.status .parseErr)
    inside pkt (encStart pkt) (limit - encStart pkt)
    .ok (some (encStart pkt, limit - encStart pkt))
  else .ok none

/-- Compare the tag of a received packet with the one computed over what
    precedes MKI and tag, and the rollover counter. -/
def checkTag (keys : SessionKeys C A) (cipher : C) (pkt : Octets) (est mkiSize : Nat) :
    Except Stop C := do
  let tagLen := AuthType.outLen keys.rtpAuth
  inside pkt (sub32 pkt.length tagLen) tagLen
  let authLen := sub32 (sub32 pkt.length tagLen) mkiSize
  inside pkt 0 authLen
  let (pfx, cipher) ← orStop (fun _ => .status .cipherFail) (keystreamPrefix keys cipher)
  match AuthType.compute keys.rtpAuth (pkt.take authLen ++ rocOctets est) pfx with
  | none => .error (.status .authFail)
  | some tag => do
    refuseIf (tag ≠ slice pkt (sub32 pkt.length tagLen) tagLen) (.status .authFail)
    .ok cipher

/-- The tag check, if the stream authenticates. -/
def checkAuth (services : SecServ) (keys : SessionKeys C A) (cipher : C) (pkt : Octets)
    (est mkiSize : Nat) : Except Stop C :=
  if services.hasAuth then checkTag keys cipher pkt est mkiSize else .ok cipher

/-- A packet past its authentication: the ciphers with their IVs set and the
    encrypted portion. -/
structure Opened (C : Type) where
  cipher : C
  xtnCipher : Option C
  portion : Option (Nat × Nat)

/-- The counter mode path up to and including authentication. -/
def openPlain (stream : Keying C A) (keys : SessionKeys C A) (pkt : Octets)
    (est mkiSize : Nat) : Except Stop (Opened C) := do
  let tagLen := AuthType.outLen keys.rtpAuth
  let (cipher, xtn) ← orStop (fun _ => .status .cipherFail) (setRtpIvs keys pkt est .decrypt)
  let portion ← encPortion stream.services pkt tagLen mkiSize
  let cipher ← checkAuth stream.services keys cipher pkt est mkiSize
  .ok { cipher := cipher, xtnCipher := xtn, portion := portion }

/-- Header extension encryption, if the packet has an extension and the keys
    have a cipher for it. -/
def processXtn (encXtnHdr : List Int) (xtn : Option C) (present : Bool) (pkt : Octets) :
    Except SrtpErrStatus Octets :=
  match present, xtn with
  | true, some xtn => processHeaderEncryption encXtnHdr xtn pkt
  | _, _ => .ok pkt

/-- The extension of a received packet. -/
def openXtn (encXtnHdr : List Int) (xtn : Option C) (present : Bool) (pkt : Octets) :
    Except Stop Octets := do
  let len := if present then octetsInRtpExtnHdr + 4 * extnLength pkt else 0
  inside pkt (extnStart pkt) len
  orStop .status (processXtn encXtnHdr xtn present pkt)

/-- The counter mode path after authentication: the extension, then the
    encrypted portion. The extension is only looked at with confidentiality. -/
def decryptPlain (stream : Keying C A) (o : Opened C) (pkt : Octets) : Except Stop Octets := do
  let pkt ← openXtn stream.encXtnHdr o.xtnCipher (hdrX pkt && stream.services.hasConf) pkt
  match o.portion with
  | none => .ok pkt
  | some (start, len) => do
    let (data, _) ← orStop (fun _ => .status .cipherFail)
      (CipherType.decrypt o.cipher (slice pkt start len))
    .ok (overwrite pkt start data)

/-- The AEAD path up to the key limit: IVs and lengths. -/
def readyAead (keys : SessionKeys C A) (pkt : Octets) (est mkiSize : Nat) :
    Except Stop (Opened C) := do
  let tagLen := AuthType.outLen keys.rtpAuth
  let (cipher, xtn) ← orStop (fun _ => .status .cipherFail) (setAeadIvs keys pkt est .decrypt)
  let limit := sub32 (sub32 pkt.length tagLen) mkiSize
  refuseIf (limit < encStart pkt) (.status .parseErr)
  inside pkt 0 limit
  let len := sub32 (sub32 pkt.length mkiSize) (encStart pkt)
  refuseIf (len < tagLen) (.status .cipherFail)
  inside pkt (encStart pkt) len
  .ok { cipher := cipher, xtnCipher := xtn, portion := some (encStart pkt, len) }

theorem readyAead_eq_ok {keys : SessionKeys C A} {pkt : Octets} {est mkiSize : Nat}
    {o : Opened C} :
    readyAead keys pkt est mkiSize = .ok o ↔
      ∃ cipher xtn, setAeadIvs keys pkt est .decrypt = .ok (cipher, xtn) ∧
        encStart pkt ≤ sub32 (sub32 pkt.length (AuthType.outLen keys.rtpAuth)) mkiSize ∧
        sub32 (sub32 pkt.length (AuthType.outLen keys.rtpAuth)) mkiSize ≤ pkt.length ∧
        AuthType.outLen keys.rtpAuth ≤ sub32 (sub32 pkt.length mkiSize) (encStart pkt) ∧
        encStart pkt + sub32 (sub32 pkt.length mkiSize) (encStart pkt) ≤ pkt.length ∧
        ⟨cipher, xtn, some (encStart pkt, sub32 (sub32 pkt.length mkiSize) (encStart pkt))⟩ = o := by
  simp only [readyAead, bind_eq_ok, orStop_eq_ok, refuseIf_eq_ok, inside_eq_ok, Prod.exists,
    exists_const, Except.ok.injEq, Nat.not_lt, Nat.zero_add]

/-- The AEAD path after the key limit: header as associated data, decryption
    with the tag check in it, then the extension. -/
def openAead (stream : Keying C A) (o : Opened C) (pkt : Octets) : Except Stop Octets := do
  let cipher ← orStop (fun _ => .status .cipherFail)
    (CipherType.setAad o.cipher (pkt.take (encStart pkt)))
  match o.portion with
  | none => .ok pkt
  | some (start, len) => do
    let (data, _) ← orStop .status (CipherType.decrypt cipher (slice pkt start len))
    openXtn stream.encXtnHdr o.xtnCipher (hdrX pkt) (overwrite pkt start data)

/-- A received packet: what the caller gets, and the index and keys it went
    by. -/
structure Unprotected where
  packet : Octets
  est : Nat
  ref : Nat
  deriving DecidableEq

/-- The packet with MKI and tag cut off. The length is an `int` and could only
    become negative for a stream without any services. -/
def unprotected (keys : SessionKeys C A) (inc : Incoming C A) (pkt : Octets) (mkiSize : Nat)
    (body : Octets) : Unprotected :=
  { packet := body.take (pkt.length - AuthType.outLen keys.rtpAuth - mkiSize)
    est := inc.est
    ref := keys.ref }

/-- The part both paths share: count a use of the key, go on to what is left
    of the decryption, and accept the packet. -/
def finishUnprotect (s : Session C A) (inc : Incoming C A) (keys : SessionKeys C A)
    (pkt : Octets) (mkiSize : Nat) (advance : Bool) (decrypted : Except Stop Octets) :
    Session C A × Except Stop Unprotected :=
  let used := s.useKey keys
  if used.2 = .hardLimit then (used.1, .error (.status .keyExpired))
  else
    match decrypted with
    | .error e => (used.1, .error e)
    | .ok body => (used.1.accept inc pkt advance, .ok (unprotected keys inc pkt mkiSize body))

/-- The counter mode part of `srtp_unprotect_mki`. -/
def unprotectPlain (s : Session C A) (inc : Incoming C A) (keys : SessionKeys C A)
    (pkt : Octets) (mkiSize : Nat) : Session C A × Except Stop Unprotected :=
  match openPlain inc.stream.keying keys pkt inc.est mkiSize with
  | .error e => (s, .error e)
  | .ok o =>
    finishUnprotect s inc keys pkt mkiSize inc.advance (decryptPlain inc.stream.keying o pkt)

/-- `srtp_unprotect_aead`. It is not told that the index is far ahead. -/
def unprotectAead (s : Session C A) (inc : Incoming C A) (keys : SessionKeys C A)
    (pkt : Octets) (mkiSize : Nat) : Session C A × Except Stop Unprotected :=
  match readyAead keys pkt inc.est mkiSize with
  | .error e => (s, .error e)
  | .ok o => finishUnprotect s inc keys pkt mkiSize false (openAead inc.stream.keying o pkt)

/-- The keys are for AES-GCM. -/
def SessionKeys.isGcm (keys : SessionKeys C A) : Bool :=
  (CipherType.algorithm keys.rtpCipher).isGcm

/-- `srtp_unprotect_mki`. -/
def srtpUnprotectMki (s : Session C A) (pkt : Octets) (useMki : Bool) :
    Session C A × Except Stop Unprotected :=
  match validateRtpHeader pkt with
  | .error e => (s, .error (.status e))
  | .ok _ =>
    match s.incoming pkt with
    | .error e => (s, .error (.status e))
    | .ok inc =>
      match selectKeys inc.stream pkt useMki with
      | .error e => (s, .error e)
      | .ok (keys, mkiSize) =>
        if keys.isGcm then unprotectAead s inc keys pkt mkiSize
        else unprotectPlain s inc keys pkt mkiSize

/-- A packet authenticates and decrypts under a keying and an index. -/
inductive Opens (stream : Keying C A) (keys : SessionKeys C A) (pkt : Octets) (est mkiSize : Nat)
    (body : Octets) : Prop where
  | plain (o : Opened C) (hgcm : keys.isGcm = false)
      (hopen : openPlain stream keys pkt est mkiSize = .ok o)
      (hdecrypt : decryptPlain stream o pkt = .ok body)
  | aead (o : Opened C) (hgcm : keys.isGcm = true)
      (hready : readyAead keys pkt est mkiSize = .ok o)
      (hopen : openAead stream o pkt = .ok body)

/-- Everything a call can do to a session, with its result: nothing, count a
    use of the key, or accept the packet. -/
inductive UnprotectStep (s : Session C A) (pkt : Octets) (useMki : Bool) :
    Session C A → Except Stop Unprotected → Prop where
  | refused (stop : Stop) : UnprotectStep s pkt useMki s (.error stop)
  | counted (inc : Incoming C A) (keys : SessionKeys C A) (mkiSize : Nat) (stop : Stop)
      (hinc : s.incoming pkt = .ok inc)
      (hkeys : selectKeys inc.stream pkt useMki = .ok (keys, mkiSize)) :
      UnprotectStep s pkt useMki (s.useKey keys).1 (.error stop)
  | accepted (inc : Incoming C A) (keys : SessionKeys C A) (mkiSize : Nat) (body : Octets)
      (hinc : s.incoming pkt = .ok inc)
      (hkeys : selectKeys inc.stream pkt useMki = .ok (keys, mkiSize))
      (hlimit : (s.useKey keys).2 ≠ .hardLimit)
      (hopens : Opens inc.stream.keying keys pkt inc.est mkiSize body) :
      UnprotectStep s pkt useMki
        ((s.useKey keys).1.accept inc pkt (inc.advance && !keys.isGcm))
        (.ok (unprotected keys inc pkt mkiSize body))

theorem finishUnprotect_cases {s : Session C A} {inc : Incoming C A} {keys : SessionKeys C A}
    {pkt : Octets} {mkiSize : Nat} {useMki advance : Bool} {decrypted : Except Stop Octets}
    (hinc : s.incoming pkt = .ok inc)
    (hkeys : selectKeys inc.stream pkt useMki = .ok (keys, mkiSize))
    (hadv : advance = (inc.advance && !keys.isGcm))
    (hopens : ∀ body, decrypted = .ok body →
      Opens inc.stream.keying keys pkt inc.est mkiSize body) :
    UnprotectStep s pkt useMki (finishUnprotect s inc keys pkt mkiSize advance decrypted).1
      (finishUnprotect s inc keys pkt mkiSize advance decrypted).2 := by
  simp only [finishUnprotect]
  by_cases hlimit : (s.useKey keys).2 = .hardLimit
  · rw [if_pos hlimit]
    exact .counted inc keys mkiSize _ hinc hkeys
  rw [if_neg hlimit]
  cases hd : decrypted with
  | error stop => exact .counted inc keys mkiSize stop hinc hkeys
  | ok body =>
      rw [hadv]
      exact .accepted inc keys mkiSize body hinc hkeys hlimit (hopens body hd)

/-- What a call does to a session, whatever the packet. -/
theorem unprotect_cases (s : Session C A) (pkt : Octets) (useMki : Bool) :
    UnprotectStep s pkt useMki (srtpUnprotectMki s pkt useMki).1
      (srtpUnprotectMki s pkt useMki).2 := by
  cases hvalid : validateRtpHeader pkt with
  | error e =>
      simp only [srtpUnprotectMki, hvalid]
      exact .refused _
  | ok u =>
  cases hinc : s.incoming pkt with
  | error e =>
      simp only [srtpUnprotectMki, hvalid, hinc]
      exact .refused _
  | ok inc =>
  cases hkeys : selectKeys inc.stream pkt useMki with
  | error stop =>
      simp only [srtpUnprotectMki, hvalid, hinc, hkeys]
      exact .refused stop
  | ok r =>
  rcases r with ⟨keys, mkiSize⟩
  simp only [srtpUnprotectMki, hvalid, hinc, hkeys]
  cases hgcm : keys.isGcm with
  | true =>
      rw [if_pos rfl, unprotectAead]
      cases hready : readyAead keys pkt inc.est mkiSize with
      | error stop => exact .refused stop
      | ok o =>
          exact finishUnprotect_cases hinc hkeys (by rw [hgcm, Bool.not_true, Bool.and_false])
            (fun body hbody => .aead o hgcm hready hbody)
  | false =>
      rw [if_neg (by decide), unprotectPlain]
      cases hopen : openPlain inc.stream.keying keys pkt inc.est mkiSize with
      | error stop => exact .refused stop
      | ok o =>
          exact finishUnprotect_cases hinc hkeys (by rw [hgcm, Bool.not_false, Bool.and_true])
            (fun body hbody => .plain o hgcm hopen hbody)

/-- What a call that succeeds has done. -/
theorem unprotect_ok {s : Session C A} {pkt : Octets} {useMki : Bool} {u : Unprotected}
    (hok : (srtpUnprotectMki s pkt useMki).2 = .ok u) :
    ∃ inc keys mkiSize body, s.incoming pkt = .ok inc ∧
      selectKeys inc.stream pkt useMki = .ok (keys, mkiSize) ∧
      (s.useKey keys).2 ≠ .hardLimit ∧ Opens inc.stream.keying keys pkt inc.est mkiSize body ∧
      u = unprotected keys inc pkt mkiSize body ∧
      (srtpUnprotectMki s pkt useMki).1 =
        (s.useKey keys).1.accept inc pkt (inc.advance && !keys.isGcm) := by
  have hstep := unprotect_cases s pkt useMki
  generalize srtpUnprotectMki s pkt useMki = r at hstep hok
  rcases r with ⟨s', result⟩
  cases hstep with
  | refused stop => exact absurd hok (by simp only [reduceCtorEq, not_false_eq_true])
  | counted => exact absurd hok (by simp only [reduceCtorEq, not_false_eq_true])
  | accepted inc keys mkiSize body hinc hkeys hlimit hopens =>
      rw [Except.ok.injEq] at hok
      exact ⟨inc, keys, mkiSize, body, hinc, hkeys, hlimit, hopens, hok.symm, rfl⟩

end Srtp

end CryptoOpal

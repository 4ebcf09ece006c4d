import CryptoOpal.Srtp.RoundTrip

/-!
# The Trailer Length

`srtp_get_protect_trailer_length` tells a caller how much room `srtp_protect_mki` needs
behind a packet. Both go by an index into the session keys, but not by the same stream and
not by the same check of the index.

* `srtp_protect_mki` takes the stream of the packet's SSRC, or the template. The other
  function knows no SSRC. It takes the head of the list, and the template only if the list is
  empty.
* `srtp_protect_mki` goes on with the first keys if the index is too large. The other
  function refuses such an index, except the first one, for which it reads behind the keys.

Tag and MKI are what a packet grows by. The tag is there for an AEAD cipher, or if the
stream's services ask for authentication. The length always counts it.

## Main definitions

* `Session.firstStream`, `Session.streamFor`: The streams of the two functions.
* `srtpGetProtectTrailerLength`: The function.
* `Stream.growth`: What a packet of a stream grows by.
* `TrailerAgrees`, `TrailerFits`: The two functions agree, and when they do.

## Theorems

* `length_protected`: A packet grows by that much.
* `protect_ne_badMki`: No index is refused.
* `trailerLength_eq_ok`: When a length is given, and which.
* `trailerAgrees_iff`: When the functions agree.
-/

namespace CryptoOpal

namespace Srtp

open Lib (Octets slice overwrite)

/-- What the lengths of packets rest on: ciphers keep the length of what they encrypt, and
    tags have the length asked for. -/
structure KeepsLengths (C A : Type) [CipherType C] [AuthType A] : Prop where
  encrypt : ∀ {c c' : C} {data data' : Octets}, CipherType.encrypt c data = .ok (data', c') →
    data'.length = data.length
  getTag : ∀ {c : C} {n : Nat} {tag : Octets}, CipherType.getTag c n = .ok tag → tag.length = n
  compute : ∀ {a : A} {msg pfx tag : Octets}, AuthType.compute a msg pfx = some tag →
    tag.length = AuthType.outLen a

variable {C A : Type}

/-- The head of the stream list, or the template. -/
def Session.firstStream (s : Session C A) : Option (Stream C A) :=
  match s.streamList with
  | [] => s.streamTemplate
  | stream :: _ => some stream

/-- The stream that packets of an SSRC go by, or the template they are to get one from. -/
def Session.streamFor (s : Session C A) (ssrc : UInt32) : Option (Stream C A) :=
  match s.getStream ssrc with
  | some stream => some stream
  | none => s.streamTemplate

variable [CipherType C] [AuthType A]

/-- `srtp_get_protect_trailer_length`. The sum is a `uint32_t`. -/
def srtpGetProtectTrailerLength (s : Session C A) (useMki : Bool) (mkiIndex : Nat) :
    Except Stop Nat :=
  match s.firstStream with
  | none => .error (.status .badParam)
  | some stream =>
    if useMki then
      if stream.sessionKeys.length < mkiIndex then .error (.status .badMki)
      else
        -- `session_keys` has `num_master_keys` entries
        match stream.sessionKeys[mkiIndex]? with
        | none => .error .fault
        | some keys => .ok ((keys.mkiId.length + AuthType.outLen keys.rtpAuth) % 2 ^ 32)
    else .ok (AuthType.outLen stream.firstKeys.rtpAuth)

/-- The tag of a packet under these keys, of a stream with these services. -/
def SessionKeys.tagLen (keys : SessionKeys C A) (services : SecServ) : Nat :=
  if keys.isGcm ∨ services.hasAuth then AuthType.outLen keys.rtpAuth else 0

/-- The MKI and the tag of a packet. -/
def Stream.growth (stream : Stream C A) (useMki : Bool) (mkiIndex : Nat) : Nat :=
  (if useMki then (stream.keysAt useMki mkiIndex).mkiId.length else 0) +
    (stream.keysAt useMki mkiIndex).tagLen stream.rtpServices

/-- The room for a packet of the first stream, tag included whatever its services. -/
def Stream.room (stream : Stream C A) (useMki : Bool) (mkiIndex : Nat) : Nat :=
  (if useMki then (stream.keysAt useMki mkiIndex).mkiId.length else 0) +
    AuthType.outLen (stream.keysAt useMki mkiIndex).rtpAuth

/-- The functions agree on the packets of an SSRC: both refuse the arguments for a bad MKI, or
    neither does and the length is enough for each packet. -/
def TrailerAgrees (s : Session C A) (ssrc : UInt32) (useMki : Bool) (mkiIndex : Nat) : Prop :=
  (∃ e, srtpGetProtectTrailerLength s useMki mkiIndex = .error (.status e) ∧
    ∀ pkt, hdrSsrc pkt = ssrc → (srtpProtectMki s pkt useMki mkiIndex).2 = .error .badMki) ∨
  ∃ len, srtpGetProtectTrailerLength s useMki mkiIndex = .ok len ∧
    ∀ pkt, hdrSsrc pkt = ssrc → (srtpProtectMki s pkt useMki mkiIndex).2 ≠ .error .badMki ∧
      ∀ p, (srtpProtectMki s pkt useMki mkiIndex).2 = .ok p →
        p.packet.length ≤ pkt.length + len

/-- The first stream has keys at the index, and room for what a packet of this stream grows
    by. -/
def TrailerFits (s : Session C A) (stream : Stream C A) (useMki : Bool) (mkiIndex : Nat) : Prop :=
  ∃ first, s.firstStream = some first ∧ (useMki = true → mkiIndex < first.sessionKeys.length) ∧
    stream.growth useMki mkiIndex ≤ first.room useMki mkiIndex

section Growth

variable {pkt : Octets} {keys : SessionKeys C A} {keying : Keying C A} {useMki : Bool} {est : Nat}
  {o : Sealed C}

theorem KeepsLengths.outputsLength (hlen : KeepsLengths C A) : OutputsLength C := by
  intro c c' n keystream h
  rw [hlen.encrypt h, List.length_replicate]

theorem length_processXtn (hlen : KeepsLengths C A) {xtn : Option C} {present : Bool}
    {extended : Octets} (hstart : encStart pkt ≤ pkt.length)
    (hpresent : present = true → hdrX pkt = true)
    (h : processXtn keying.encXtnHdr xtn present pkt = .ok extended) :
    extended.length = pkt.length := by
  rcases processXtn_undo hlen.outputsLength hstart hpresent h with ⟨head, rfl, -, hhead, -⟩
  rw [List.length_append, hhead, List.length_drop]
  omega

theorem length_encryptPortion (hlen : KeepsLengths C A) {cipher after : C} {start : Nat}
    {body : Octets} (hstart : start ≤ pkt.length)
    (h : encryptPortion cipher pkt start = .ok (body, after)) : body.length = pkt.length := by
  simp only [encryptPortion, bind_eq_ok, Prod.exists, Except.ok.injEq, Prod.mk.injEq] at h
  rcases h with ⟨data, c, hdata, rfl, rfl⟩
  have hsize := hlen.encrypt hdata
  rw [Lib.length_slice] at hsize
  exact Lib.length_overwrite _ _ _ (by omega)

omit [CipherType C] [AuthType A] in
theorem length_injectMki :
    (injectMki keys useMki).length = if useMki then keys.mkiId.length else 0 := by
  unfold injectMki
  split <;> rfl

theorem length_sealPlain (hlen : KeepsLengths C A) (hstart : encStart pkt ≤ pkt.length)
    (h : sealPlain keying keys pkt useMki est = .ok o) :
    o.packet.length = pkt.length + ((if useMki then keys.mkiId.length else 0) +
      if keying.services.hasAuth then AuthType.outLen keys.rtpAuth else 0) := by
  simp only [sealPlain, bind_eq_ok, cipherFailed_eq_ok, Prod.exists, Except.ok.injEq] at h
  rcases h with ⟨cipher, xtn, -, pfx, after, -, extended, hxtn, body, last, hbody, tag, htag, rfl⟩
  have hextended := length_processXtn hlen hstart (fun hp => (Bool.and_eq_true_iff.mp hp).1) hxtn
  have hbodyLen : body.length = pkt.length := by
    unfold sealBody at hbody
    split at hbody
    · rw [cipherFailed_eq_ok] at hbody
      rw [length_encryptPortion hlen (by omega) hbody, hextended]
    · rw [Except.ok.injEq, Prod.mk.injEq] at hbody
      rw [← hbody.1, hextended]
  -- The tag is there if the services authenticate.
  have htagLen : tag.length =
      if keying.services.hasAuth then AuthType.outLen keys.rtpAuth else 0 := by
    unfold sealTag at htag
    split at htag
    · rename_i hauth
      unfold computeTag at htag
      split at htag
      · cases htag
      · rename_i t hcompute
        rw [Except.ok.injEq] at htag
        rw [if_pos hauth, ← htag, hlen.compute hcompute]
    · rename_i hauth
      rw [Except.ok.injEq] at htag
      rw [if_neg hauth, ← htag]
      rfl
  simp only [List.length_append, hbodyLen, htagLen, length_injectMki]
  omega

theorem length_sealAead (hlen : KeepsLengths C A) (hstart : encStart pkt ≤ pkt.length)
    (h : sealAead keying keys pkt useMki est = .ok o) :
    o.packet.length = pkt.length + ((if useMki then keys.mkiId.length else 0) +
      AuthType.outLen keys.rtpAuth) := by
  simp only [sealAead, bind_eq_ok, cipherFailed_eq_ok, Prod.exists, Except.ok.injEq] at h
  rcases h with ⟨cipher, xtn, -, extended, hxtn, c, -, body, after, hbody, tag, htag, rfl⟩
  have hextended := length_processXtn hlen hstart id hxtn
  have hbodyLen := length_encryptPortion hlen (by omega) hbody
  simp only [List.length_append, hbodyLen, hextended, hlen.getTag htag, length_injectMki]
  omega

omit [CipherType C] [AuthType A] in
/-- A stream that is used, or made, for a packet has the keys and services it had. -/
theorem outgoing_streamFor {s s₁ : Session C A} {stream : Stream C A} {ssrc : UInt32}
    (h : s.outgoing ssrc true = .ok (s₁, stream)) :
    ∃ old, s.streamFor ssrc = some old ∧ stream.sessionKeys = old.sessionKeys ∧
      stream.rtpServices = old.rtpServices := by
  rcases outgoing_cases h with ⟨old, hget, rfl, -⟩ | ⟨template, dir, hget, htemplate, rfl, -⟩
  · refine ⟨old, by rw [Session.streamFor, hget], ?_, ?_⟩ <;>
      · unfold Stream.claimDirection
        split <;> rfl
  · exact ⟨template, by rw [Session.streamFor, hget, htemplate], rfl, rfl⟩

/-- A packet grows by the tag and the MKI of its stream. -/
theorem length_protected (hlen : KeepsLengths C A) {s : Session C A} {stream : Stream C A}
    {mkiIndex : Nat} {p : Protected C} (hstream : s.streamFor (hdrSsrc pkt) = some stream)
    (h : (srtpProtectMki s pkt useMki mkiIndex).2 = .ok p) :
    p.packet.length = pkt.length + stream.growth useMki mkiIndex := by
  have hstart := encStart_le (validate_of_protect h)
  rcases protect_ok h with ⟨s₁, sender, sender', est, o, hout, -, -, hseal, rfl, -⟩
  -- The stream that sends may be a new one, with the keys of the template.
  rcases outgoing_streamFor hout with ⟨old, hold, hkeys, hservices⟩
  rw [hstream, Option.some.injEq] at hold
  have hat : sender.keysAt useMki mkiIndex = stream.keysAt useMki mkiIndex := by
    simp only [Stream.keysAt, Stream.firstKeys, hkeys, hold]
  rw [hat] at hseal
  show o.packet.length = _
  unfold sealPacket at hseal
  unfold Stream.growth SessionKeys.tagLen
  split at hseal
  · rename_i hgcm
    rw [length_sealAead hlen hstart hseal, if_pos (Or.inl hgcm)]
  · rename_i hgcm
    rw [length_sealPlain hlen hstart hseal]
    show _ + (_ + if sender.rtpServices.hasAuth = true then _ else _) = _
    rw [hservices, ← hold]
    simp only [hgcm, Bool.false_eq_true, false_or]

end Growth

section Refusals

variable {α β : Type}

/-- The result of a step is not a refusal of an MKI. -/
def NotBadMki (x : Except SrtpErrStatus α) : Prop := x ≠ .error .badMki

theorem notBadMki_ok (a : α) : NotBadMki (.ok a) :=
  fun h => nomatch h

theorem notBadMki_error {e : SrtpErrStatus} :
    NotBadMki (.error e : Except SrtpErrStatus α) ↔ e ≠ .badMki :=
  not_congr (Except.error.injEq e .badMki ▸ Iff.rfl)

theorem NotBadMki.bind {x : Except SrtpErrStatus α} {f : α → Except SrtpErrStatus β}
    (hx : NotBadMki x) (hf : ∀ a, NotBadMki (f a)) : NotBadMki (x >>= f) := by
  intro h
  rcases bind_eq_error.mp h with h | ⟨a, -, h⟩
  · exact hx h
  · exact hf a h

theorem notBadMki_ite {c : Prop} [Decidable c] {x y : Except SrtpErrStatus α} (hx : NotBadMki x)
    (hy : NotBadMki y) : NotBadMki (if c then x else y) := by
  split
  · exact hx
  · exact hy

theorem notBadMki_cipherFailed (x : Except SrtpErrStatus α) : NotBadMki (cipherFailed x) := by
  cases x with
  | error e => exact notBadMki_error.mpr (by decide)
  | ok a => exact notBadMki_ok a

omit [AuthType A] in
theorem notBadMki_processElement (encXtnHdr : List Int) (c : C) (hdrLen xid : Nat) (body : Octets) :
    NotBadMki (processElement encXtnHdr c hdrLen xid body) := by
  unfold processElement
  split
  · exact notBadMki_error.mpr (by decide)
  · split <;> exact notBadMki_ok _

omit [AuthType A] in
theorem notBadMki_oneByteLoop (encXtnHdr : List Int) (c : C) (d : Octets) :
    NotBadMki (oneByteLoop encXtnHdr c d) := by
  fun_induction oneByteLoop encXtnHdr c d with
  | case1 => exact notBadMki_ok _
  | case2 => exact notBadMki_error.mpr (by decide)
  | case3 => exact notBadMki_ok _
  | case4 c hd rest xid xlen hlen hxid e he =>
      have helem := notBadMki_processElement encXtnHdr c 1 xid (rest.take xlen)
      rw [he] at helem
      exact notBadMki_error.mpr (notBadMki_error.mp helem)
  | case5 c hd rest xid xlen hlen hxid body c' he e hloop ih =>
      rw [hloop] at ih
      exact ih
  | case6 => exact notBadMki_ok _

omit [AuthType A] in
theorem notBadMki_twoByteLoop (encXtnHdr : List Int) (c : C) (d : Octets) :
    NotBadMki (twoByteLoop encXtnHdr c d) := by
  fun_induction twoByteLoop encXtnHdr c d with
  | case1 | case2 => exact notBadMki_ok _
  | case3 => exact notBadMki_error.mpr (by decide)
  | case4 c hd l rest xid xlen hlen e he =>
      have helem := notBadMki_processElement encXtnHdr c 2 xid (rest.take xlen)
      rw [he] at helem
      exact notBadMki_error.mpr (notBadMki_error.mp helem)
  | case5 c hd l rest xid xlen hlen body c' he e hloop ih =>
      rw [hloop] at ih
      exact ih
  | case6 => exact notBadMki_ok _

omit [AuthType A] in
theorem notBadMki_processXtn (encXtnHdr : List Int) (xtn : Option C) (present : Bool)
    (pkt : Octets) : NotBadMki (processXtn encXtnHdr xtn present pkt) := by
  unfold processXtn
  split
  · rename_i xtn
    -- Neither of the loops over the elements knows an MKI.
    have hdata : NotBadMki (processExtensionData encXtnHdr xtn (extnProfile pkt)
        (slice pkt (extnStart pkt + octetsInRtpExtnHdr) (4 * extnLength pkt))) := by
      unfold processExtensionData
      split
      · exact notBadMki_oneByteLoop _ _ _
      · split
        · exact notBadMki_twoByteLoop _ _ _
        · exact notBadMki_error.mpr (by decide)
    unfold processHeaderEncryption
    simp only
    split
    · rename_i e he
      rw [he] at hdata
      exact hdata
    · exact notBadMki_ok _
  · exact notBadMki_ok _

theorem notBadMki_sealPacket (keying : Keying C A) (keys : SessionKeys C A) (pkt : Octets)
    (useMki : Bool) (est : Nat) : NotBadMki (sealPacket keying keys pkt useMki est) := by
  unfold sealPacket
  split
  · refine (notBadMki_cipherFailed _).bind fun ivs => ?_
    refine (notBadMki_processXtn _ _ _ _).bind fun extended => ?_
    refine (notBadMki_cipherFailed _).bind fun cipher => ?_
    refine (notBadMki_cipherFailed _).bind fun body => ?_
    exact (notBadMki_cipherFailed _).bind fun tag => notBadMki_ok _
  · refine (notBadMki_cipherFailed _).bind fun ivs => ?_
    refine (notBadMki_ite (notBadMki_cipherFailed _) (notBadMki_ok _)).bind fun pfx => ?_
    refine (notBadMki_processXtn _ _ _ _).bind fun extended => ?_
    refine (notBadMki_ite (notBadMki_cipherFailed _) (notBadMki_ok _)).bind fun body => ?_
    have htag : NotBadMki (sealTag keying.services keys body.1 est pfx.1) := by
      unfold sealTag computeTag
      split
      · split
        · exact notBadMki_error.mpr (by decide)
        · exact notBadMki_ok _
      · exact notBadMki_ok _
    exact htag.bind fun tag => notBadMki_ok _

theorem notBadMki_check (rdbx : Rdbx) (delta : Int) : NotBadMki (rdbx.check delta) := by
  unfold Rdbx.check
  refine notBadMki_ite (notBadMki_ok _) ?_
  refine notBadMki_ite (notBadMki_error.mpr (by decide)) ?_
  exact notBadMki_ite (notBadMki_error.mpr (by decide)) (notBadMki_ok _)

omit [CipherType C] [AuthType A] in
/-- The estimate of an index has no such status. -/
theorem getEstPktIndex_ne_badMki (stream : Stream C A) (seq : UInt16) :
    (stream.getEstPktIndex seq).1 ≠ .badMki := by
  unfold Stream.getEstPktIndex
  split
  · rcases Stream.srtpEstimateIndex_cases stream.rtpRdbx stream.pendingRoc seq with
      ⟨est, hest, -⟩ | ⟨est, hest⟩ | ⟨est, delta, hest, -⟩
    · rw [hest]
      exact fun h => (nomatch h)
    · rw [hest]
      exact fun h => (nomatch h)
    · rw [hest]
      exact fun h => (nomatch h)
  · exact fun h => (nomatch h)

omit [CipherType C] [AuthType A] in
theorem notBadMki_takeIndex (stream : Stream C A) (seq : UInt16) :
    NotBadMki (stream.takeIndex seq) := by
  have hest := getEstPktIndex_ne_badMki stream seq
  unfold Stream.takeIndex
  split
  · exact notBadMki_ok _
  · rename_i est delta _
    have hcheck := notBadMki_check stream.rtpRdbx delta
    split
    · exact notBadMki_ok _
    · rename_i e he
      rw [he] at hcheck
      split
      · exact notBadMki_error.mpr (notBadMki_error.mp hcheck)
      · exact notBadMki_ok _
  · rename_i e est delta _ _ heq
    rw [heq] at hest
    exact notBadMki_error.mpr hest

omit [CipherType C] [AuthType A] in
theorem notBadMki_takeIndexAead (stream : Stream C A) (seq : UInt16) :
    NotBadMki (stream.takeIndexAead seq) := by
  have hcheck := notBadMki_check stream.rtpRdbx (stream.rtpRdbx.estimateIndex seq).2
  unfold Stream.takeIndexAead
  simp only
  split
  · exact notBadMki_ok _
  · rename_i e he
    rw [he] at hcheck
    split
    · exact notBadMki_error.mpr (notBadMki_error.mp hcheck)
    · exact notBadMki_ok _

omit [CipherType C] [AuthType A] in
theorem notBadMki_finishProtect {s : Session C A} {keys : SessionKeys C A} {pkt : Octets}
    {portion : Bool} {index : Except SrtpErrStatus (Stream C A × Nat)}
    {build : Nat → Except SrtpErrStatus (Sealed C)} (hindex : NotBadMki index)
    (hbuild : ∀ est, NotBadMki (build est)) :
    NotBadMki (finishProtect s keys pkt portion index build).2 := by
  unfold finishProtect
  simp only
  split
  · exact notBadMki_error.mpr (by decide)
  · split
    · exact notBadMki_error.mpr (by decide)
    · cases index with
      | error e => exact notBadMki_error.mpr (notBadMki_error.mp hindex)
      | ok r =>
          have hr := hbuild r.2
          cases hb : build r.2 with
          | error e =>
              rw [hb] at hr
              simp only [hb]
              exact notBadMki_error.mpr (notBadMki_error.mp hr)
          | ok o =>
              simp only [hb]
              exact notBadMki_ok _

theorem notBadMki_validate (pkt : Octets) : NotBadMki (validateRtpHeader pkt) := by
  unfold validateRtpHeader
  refine notBadMki_ite (notBadMki_error.mpr (by decide)) ?_
  refine notBadMki_ite (notBadMki_error.mpr (by decide)) ?_
  exact notBadMki_ite (notBadMki_error.mpr (by decide)) (notBadMki_ok _)

omit [CipherType C] [AuthType A] in
theorem notBadMki_outgoing (s : Session C A) (ssrc : UInt32) (rtp : Bool) :
    NotBadMki (s.outgoing ssrc rtp) := by
  unfold Session.outgoing
  split
  · exact notBadMki_ok _
  · split
    · exact notBadMki_error.mpr (by decide)
    · exact notBadMki_ok _

/-- `srtp_protect_mki` refuses no index into the session keys. -/
theorem protect_ne_badMki (s : Session C A) (pkt : Octets) (useMki : Bool) (mkiIndex : Nat) :
    NotBadMki (srtpProtectMki s pkt useMki mkiIndex).2 := by
  have hvalid := notBadMki_validate pkt
  have hout := notBadMki_outgoing s (hdrSsrc pkt) true
  unfold srtpProtectMki
  split
  · rename_i e he
    rw [he] at hvalid
    exact notBadMki_error.mpr (notBadMki_error.mp hvalid)
  · split
    · rename_i e he
      rw [he] at hout
      exact notBadMki_error.mpr (notBadMki_error.mp hout)
    · rename_i s₁ stream _
      have hseal := notBadMki_sealPacket stream.keying (stream.keysAt useMki mkiIndex) pkt useMki
      simp only [sealPacket] at hseal
      simp only
      split
      · rename_i hgcm
        simp only [if_pos hgcm] at hseal
        exact notBadMki_finishProtect (notBadMki_takeIndexAead _ _) hseal
      · rename_i hgcm
        simp only [if_neg hgcm] at hseal
        exact notBadMki_finishProtect (notBadMki_takeIndex _ _) hseal

end Refusals

section Agreement

variable {s : Session C A} {useMki : Bool} {mkiIndex : Nat}

omit [CipherType C] [AuthType A] in
theorem Stream.keysAt_of_getElem {stream : Stream C A} {keys : SessionKeys C A}
    (h : stream.sessionKeys[mkiIndex]? = some keys) : stream.keysAt true mkiIndex = keys := by
  rw [Stream.keysAt, if_pos rfl, List.getD_eq_getElem?_getD, h, Option.getD_some]

omit [CipherType C] in
/-- The length is given for the indices of the first stream's keys. -/
theorem trailerLength_eq_ok {len : Nat} :
    srtpGetProtectTrailerLength s useMki mkiIndex = .ok len ↔
      ∃ first, s.firstStream = some first ∧
        (useMki = true → mkiIndex < first.sessionKeys.length) ∧
        len = first.room useMki mkiIndex := by
  unfold srtpGetProtectTrailerLength
  cases hfirst : s.firstStream with
  | none => simp only [reduceCtorEq, false_and, exists_false]
  | some first =>
  simp only [Option.some.injEq, exists_eq_left']
  cases useMki with
  | false =>
      rw [if_neg (by decide), Except.ok.injEq, Stream.room, Stream.keysAt, if_neg (by decide),
        if_neg (by decide), Nat.zero_add, eq_comm]
      simp only [Bool.false_eq_true, false_imp_iff, true_and]
  | true =>
  rw [if_pos rfl]
  by_cases hlarge : first.sessionKeys.length < mkiIndex
  · rw [if_pos hlarge]
    simp only [reduceCtorEq, false_iff, not_and]
    intro hlt
    exact absurd (hlt trivial) (by omega)
  rw [if_neg hlarge]
  cases hkeys : first.sessionKeys[mkiIndex]? with
  | none =>
      have hlen := List.getElem?_eq_none_iff.mp hkeys
      simp only [reduceCtorEq, false_iff, not_and]
      intro hlt
      exact absurd (hlt trivial) (by omega)
  | some keys =>
      have hlt := (List.getElem?_eq_some_iff.mp hkeys).1
      have hmki := keys.mki_le
      have htag := AuthType.outLen_lt keys.rtpAuth
      have h128 : srtpMaxMkiLen = 128 := rfl
      rw [Except.ok.injEq, Stream.room, Stream.keysAt_of_getElem hkeys, if_pos rfl,
        Nat.mod_eq_of_lt (by omega), eq_comm]
      exact ⟨fun h => ⟨fun _ => hlt, h⟩, fun h => h.2⟩

/-- The functions agree on a stream if the index is one of the first stream's keys', and these
    need at least as much as the stream's own. If some packet of the stream can be protected at
    all, they agree only then. -/
theorem trailerAgrees_iff (hlen : KeepsLengths C A) {ssrc : UInt32} {stream : Stream C A}
    (hstream : s.streamFor ssrc = some stream) :
    (TrailerFits s stream useMki mkiIndex → TrailerAgrees s ssrc useMki mkiIndex) ∧
    ((∃ pkt p, hdrSsrc pkt = ssrc ∧ (srtpProtectMki s pkt useMki mkiIndex).2 = .ok p) →
      TrailerAgrees s ssrc useMki mkiIndex → TrailerFits s stream useMki mkiIndex) := by
  constructor
  · rintro ⟨first, hfirst, hindex, hgrowth⟩
    refine Or.inr ⟨_, trailerLength_eq_ok.mpr ⟨first, hfirst, hindex, rfl⟩, ?_⟩
    intro pkt hssrc
    refine ⟨protect_ne_badMki s pkt useMki mkiIndex, fun p hp => ?_⟩
    rw [length_protected hlen (by rw [hssrc]; exact hstream) hp]
    omega
  · rintro ⟨pkt, p, hssrc, hp⟩ hagrees
    rcases hagrees with ⟨e, -, hrefused⟩ | ⟨len, hok, henough⟩
    · exact absurd (hrefused pkt hssrc) (protect_ne_badMki s pkt useMki mkiIndex)
    · rcases trailerLength_eq_ok.mp hok with ⟨first, hfirst, hindex, hroom⟩
      have hgrowth := (henough pkt hssrc).2 p hp
      rw [length_protected hlen (by rw [hssrc]; exact hstream) hp] at hgrowth
      exact ⟨first, hfirst, hindex, by omega⟩

end Agreement

section Samples

/-- `srtp_null_cipher`. It has no associated data and no tag. -/
structure NullCipher where

instance : CipherType NullCipher where
  typeId _ := .nullCipher
  algorithm _ := .nullCipher
  setIv c _ _ := .ok c
  setAad _ _ := .error .noSuchOp
  encrypt c data := .ok (data, c)
  decrypt c data := .ok (data, c)
  getTag _ _ := .error .noSuchOp

theorem keepsLengths_nullCipher : KeepsLengths NullCipher FixedAuth where
  encrypt h := by
    simp only [CipherType.encrypt, Except.ok.injEq, Prod.mk.injEq] at h
    rw [h.1]
  getTag h := by
    simp only [CipherType.getTag, reduceCtorEq] at h
  compute {a msg pfx tag} h := by
    simp only [AuthType.compute, Option.some.injEq] at h
    rw [← h]
    exact a.length_mac msg

/-- A stream with an MKI of one octet and a tag of four. -/
def nullStream : Stream NullCipher FixedAuth :=
  streamOf
    { ref := 0
      rtpCipher := NullCipher.mk
      rtpXtnHdrCipher := none
      rtpAuth := rocAuth
      rtcpCipher := NullCipher.mk
      rtcpAuth := rocAuth
      salt := List.replicate 12 0
      cSalt := List.replicate 12 0
      mkiId := [7]
      salt_len := length_sampleSalt
      cSalt_len := length_sampleSalt
      mki_le := by decide }

/-- Five octets for the first keys of the only stream. -/
theorem trailerAgrees_nullStream :
    TrailerFits (sessionOf nullStream) nullStream true 0 ∧
      TrailerAgrees (sessionOf nullStream) 1 true 0 :=
  have hagrees := @trailerAgrees_iff NullCipher FixedAuth _ _ (sessionOf nullStream) true 0
    keepsLengths_nullCipher 1 nullStream rfl
  have hfits : TrailerFits (sessionOf nullStream) nullStream true 0 :=
    ⟨nullStream, rfl, by decide, by decide⟩
  ⟨hagrees.2 ⟨samplePacket 0 1 [], _, rfl, rfl⟩ (hagrees.1 hfits), hagrees.1 hfits⟩

/-- With one key the index 1 is not refused, and there is nothing to read. -/
theorem not_trailerAgrees_nullStream : ¬ TrailerAgrees (sessionOf nullStream) 1 true 1 := by
  have hfault : srtpGetProtectTrailerLength (sessionOf nullStream) true 1 = .error .fault := rfl
  rintro (⟨e, h, -⟩ | ⟨len, h, -⟩)
  · rw [hfault] at h
    cases h
  · rw [hfault] at h
    cases h

end Samples

end Srtp

end CryptoOpal

import CryptoOpal.Srtp.Bounds
import CryptoOpal.Srtp.UnprotectRtcp

/-!
# Forged Packets

What a packet that does not authenticate does to the receiver's session.

Three of the four receive paths check the tag before they change anything.
The fourth, `srtp_unprotect_aead`, counts a use of the key first, because the
tag is only checked when the cipher decrypts. So an AES-GCM packet that
passes the checks before that uses up the key, whoever sent it
(`Session.CountsFirst`). Every other forged packet leaves the session as it
was (`forged_packet`).

A packet is forged here if there is no tag check that it passes. One that is
refused earlier, for its header or as a replay, is among them.

## Main definitions

* `Authenticates`, `AuthenticatesRtcp`: A packet passes the tag check.
* `Session.Forged`, `Session.ForgedRtcp`: It does not.
* `Session.CountsFirst`: The packet gets as far as the key limit.
* `LeavesAlone`: A call ends with a status and changes nothing.

## Theorems

* `forged_unprotect`: The session after a forged RTP packet.
* `forged_packet`: When a forged packet changes nothing.
-/

namespace CryptoOpal

namespace Srtp

open Lib (Octets slice)

/-- A call ends with a status other than `ok`, and the session stays as it
    is: streams, template, replay databases, directions and key limits. -/
def LeavesAlone {C A α : Type} (s : Session C A) (r : Session C A × Except Stop α) : Prop :=
  r.1 = s ∧ ∃ e, r.2 = .error (.status e)

/-- The AEAD path past its checks has used the key, whatever comes of it. -/
theorem finishUnprotect_error {C A : Type} [AuthType A] {s : Session C A} {pkt : Octets} {inc : Incoming C A} {keys : SessionKeys C A} {mkiSize : Nat}
    {advance : Bool} {decrypted : Except Stop Octets}
    (h : ∀ u, (finishUnprotect s inc keys pkt mkiSize advance decrypted).2 ≠ .ok u) :
    (finishUnprotect s inc keys pkt mkiSize advance decrypted).1 = (s.useKey keys).1 := by
  simp only [finishUnprotect] at h ⊢
  by_cases hlimit : (s.useKey keys).2 = .hardLimit
  · rw [if_pos hlimit]
  · rw [if_neg hlimit] at h ⊢
    cases decrypted with
    | error stop => rfl
    | ok body => exact absurd rfl (h (unprotected keys inc pkt mkiSize body))

variable {C A : Type} [CipherType C] [AuthType A]

/-- The tag check of an RTP packet succeeds. In AES-GCM it is part of the
    decryption. -/
inductive Authenticates (stream : Keying C A) (keys : SessionKeys C A) (pkt : Octets)
    (est mkiSize : Nat) : Prop where
  | plain (o : Opened C) (hgcm : keys.isGcm = false)
      (hopen : openPlain stream keys pkt est mkiSize = .ok o)
  | aead (o : Opened C) (cipher : C) (start len : Nat) (r : Octets × C) (hgcm : keys.isGcm = true)
      (hready : readyAead keys pkt est mkiSize = .ok o)
      (haad : CipherType.setAad o.cipher (pkt.take (encStart pkt)) = .ok cipher)
      (hportion : o.portion = some (start, len))
      (hdecrypt : CipherType.decrypt cipher (slice pkt start len) = .ok r)

/-- The tag check of an RTCP packet succeeds. -/
inductive AuthenticatesRtcp (stream : Stream C A) (keys : SessionKeys C A) (tmpTag pkt : Octets)
    (mkiSize : Nat) : Prop where
  | plain (hgcm : keys.isGcm = false) (hcheck : checkRtcpTag keys tmpTag pkt mkiSize = .ok ())
  | aead (r : Octets × Nat) (hgcm : keys.isGcm = true)
      (hopen : openRtcpAead stream keys pkt mkiSize = .ok r)

namespace Session

/-- The stream of the packet authenticates, and the packet passes no tag
    check. -/
def Forged (s : Session C A) (pkt : Octets) (useMki : Bool) : Prop :=
  ∀ inc keys mkiSize, s.incoming pkt = .ok inc →
    selectKeys inc.stream pkt useMki = .ok (keys, mkiSize) →
    (keys.isGcm = true ∨ inc.stream.rtpServices.hasAuth = true) ∧
      ¬ Authenticates inc.stream.keying keys pkt inc.est mkiSize

/-- The same for RTCP, which is always authenticated. -/
def ForgedRtcp (s : Session C A) (pkt : Octets) (useMki : Bool) (tmpTag : Octets) : Prop :=
  ∀ stream provisional keys mkiSize, s.incomingRtcp pkt = .ok (stream, provisional) →
    selectKeys stream pkt useMki = .ok (keys, mkiSize) →
    ¬ AuthenticatesRtcp stream keys tmpTag pkt mkiSize

/-- An AES-GCM packet that gets as far as the key limit: it has a valid header
    and a stream that takes its index for a new one, an IV can be set, and
    header, MKI and tag fit into it. -/
def CountsFirst (s : Session C A) (pkt : Octets) (useMki : Bool) : Prop :=
  ∃ inc keys mkiSize, validateRtpHeader pkt = .ok () ∧ s.incoming pkt = .ok inc ∧
    selectKeys inc.stream pkt useMki = .ok (keys, mkiSize) ∧ keys.isGcm = true ∧
    (∃ r, setAeadIvs keys pkt inc.est .decrypt = .ok r) ∧
    encStart pkt + AuthType.outLen keys.rtpAuth + mkiSize ≤ pkt.length

end Session

/-- Every MKI that an RTCP packet is searched for fits before the tag, and the
    lengths of MKI and tag are small enough for an `int`. -/
def Stream.EndInsideRtcp (stream : Stream C A) (pkt : Octets) (useMki : Bool) : Prop :=
  (useMki = true → mkiTagLen stream ≤ pkt.length →
    MkiFits pkt (pkt.length - mkiTagLen stream) stream.sessionKeys) ∧
  ∀ keys mkiSize, selectKeys stream pkt useMki = .ok (keys, mkiSize) →
    octetsInRtcpHeader + AuthType.outLen keys.rtcpAuth + mkiSize + srtcpTrailerLen < 2 ^ 31

/-- The same for a packet that is long enough to have a stream. -/
def Session.EndInsideRtcp (s : Session C A) (pkt : Octets) (useMki : Bool) : Prop :=
  ∀ stream provisional, octetsInRtcpHeader + srtcpTrailerLen ≤ pkt.length →
    s.incomingRtcp pkt = .ok (stream, provisional) → stream.EndInsideRtcp pkt useMki

section Rtp

variable {s : Session C A} {pkt : Octets} {useMki : Bool}

/-- A packet that opens has passed its tag check. -/
theorem authenticates_of_opens {stream : Keying C A} {keys : SessionKeys C A} {est mkiSize : Nat}
    {body : Octets} (h : Opens stream keys pkt est mkiSize body) :
    Authenticates stream keys pkt est mkiSize := by
  cases h with
  | plain o hgcm hopen _ => exact .plain o hgcm hopen
  | aead o hgcm hready hopen =>
      have hportion : ∃ start len, o.portion = some (start, len) := by
        rcases readyAead_eq_ok.mp hready with ⟨cipher, xtn, -, -, -, -, -, rfl⟩
        exact ⟨_, _, rfl⟩
      rcases hportion with ⟨start, len, hportion⟩
      simp only [openAead, hportion, bind_eq_ok, orStop_eq_ok, Prod.exists] at hopen
      rcases hopen with ⟨cipher, haad, data, after, hdecrypt, -⟩
      exact .aead o cipher start len (data, after) hgcm hready haad hportion hdecrypt

/-- A forged packet is not accepted. -/
theorem forged_ne_ok (h : s.Forged pkt useMki) (u : Unprotected) :
    (srtpUnprotectMki s pkt useMki).2 ≠ .ok u := by
  intro hok
  rcases unprotect_ok hok with ⟨inc, keys, mkiSize, body, hinc, hkeys, -, hopens, -⟩
  exact (h inc keys mkiSize hinc hkeys).2 (authenticates_of_opens hopens)

/-- The AEAD path gets as far as the key limit if an IV can be set, and header,
    MKI and tag fit. -/
theorem readyAead_isOk {keys : SessionKeys C A} {est mkiSize : Nat} (hlen : pkt.length < 2 ^ 31)
    (hmki : mkiSize ≤ 128) :
    (∃ o, readyAead keys pkt est mkiSize = .ok o) ↔
      (∃ r, setAeadIvs keys pkt est .decrypt = .ok r) ∧
        encStart pkt + AuthType.outLen keys.rtpAuth + mkiSize ≤ pkt.length := by
  have htag := AuthType.outLen_lt keys.rtpAuth
  simp only [readyAead_eq_ok]
  constructor
  · rintro ⟨o, cipher, xtn, hset, hstart, hlimit, -, -, -⟩
    refine ⟨⟨(cipher, xtn), hset⟩, ?_⟩
    by_cases hfit : AuthType.outLen keys.rtpAuth + mkiSize ≤ pkt.length
    · rw [sub32_sub32 hlen hfit] at hstart
      omega
    · have hwrap := sub32_wraps htag hmki (Nat.lt_of_not_le hfit)
      omega
  · rintro ⟨⟨⟨cipher, xtn⟩, hset⟩, hfit⟩
    have hlimit : sub32 (sub32 pkt.length (AuthType.outLen keys.rtpAuth)) mkiSize =
        pkt.length - AuthType.outLen keys.rtpAuth - mkiSize :=
      sub32_sub32 hlen (by omega)
    have henc : sub32 (sub32 pkt.length mkiSize) (encStart pkt) =
        pkt.length - mkiSize - encStart pkt := by
      rw [sub32_of_le (show mkiSize ≤ pkt.length by omega) (by omega),
        sub32_of_le (by omega) (by omega)]
    exact ⟨_, cipher, xtn, hset, by rw [hlimit]; omega, by rw [hlimit]; omega,
      by rw [henc]; omega, by rw [henc]; omega, rfl⟩

/-- A forged RTP packet leaves the session alone unless the AEAD path counts it
    first. -/
theorem forged_unprotect (hlen : pkt.length < 2 ^ 31) (h : s.Forged pkt useMki) :
    (srtpUnprotectMki s pkt useMki).1 = s ↔ ¬ s.CountsFirst pkt useMki := by
  have hnot := forged_ne_ok h
  unfold srtpUnprotectMki at hnot ⊢
  cases hvalid : validateRtpHeader pkt with
  | error e =>
      refine iff_of_true rfl ?_
      rintro ⟨inc, keys, mkiSize, hv, -⟩
      exact absurd (hvalid.symm.trans hv) (by simp only [reduceCtorEq, not_false_eq_true])
  | ok u =>
  cases hinc : s.incoming pkt with
  | error e =>
      refine iff_of_true rfl ?_
      rintro ⟨inc, keys, mkiSize, -, hi, -⟩
      exact absurd (hinc.symm.trans hi) (by simp only [reduceCtorEq, not_false_eq_true])
  | ok inc =>
  cases hkeys : selectKeys inc.stream pkt useMki with
  | error stop =>
      simp only [hkeys, true_iff]
      rintro ⟨inc', keys, mkiSize, -, hi, hk, -⟩
      obtain rfl := Except.ok.inj (hinc.symm.trans hi)
      exact absurd (hkeys.symm.trans hk) (by simp only [reduceCtorEq, not_false_eq_true])
  | ok r =>
  rcases r with ⟨keys, mkiSize⟩
  have hmki : mkiSize ≤ 128 := mkiSize_le hkeys
  have hcounts : s.CountsFirst pkt useMki ↔
      keys.isGcm = true ∧ ∃ o, readyAead keys pkt inc.est mkiSize = .ok o := by
    rw [readyAead_isOk hlen hmki]
    constructor
    · rintro ⟨inc', keys', mkiSize', -, hi, hk, hgcm, hready⟩
      obtain rfl := Except.ok.inj (hinc.symm.trans hi)
      obtain ⟨rfl, rfl⟩ := Prod.mk.inj (Except.ok.inj (hkeys.symm.trans hk))
      exact ⟨hgcm, hready⟩
    · rintro ⟨hgcm, hready⟩
      exact ⟨inc, keys, mkiSize, hvalid, hinc, hkeys, hgcm, hready⟩
  simp only [hvalid, hinc, hkeys] at hnot ⊢
  rw [hcounts]
  cases hgcm : keys.isGcm with
  | true =>
      simp only [hgcm, if_true, unprotectAead, true_and] at hnot ⊢
      cases hready : readyAead keys pkt inc.est mkiSize with
      | error stop =>
          simp only [reduceCtorEq, exists_false, not_false_eq_true]
      | ok o =>
          simp only [hready] at hnot ⊢
          simp only [finishUnprotect_error hnot, Session.useKey_ne, Except.ok.injEq, exists_eq',
            not_true_eq_false]
  | false =>
      simp only [Bool.false_eq_true, if_false, unprotectPlain, false_and, not_false_eq_true,
        iff_true]
      cases hopen : openPlain inc.stream.keying keys pkt inc.est mkiSize with
      | error stop => rfl
      | ok o => exact absurd (.plain o hgcm hopen) (h inc keys mkiSize hinc hkeys).2

end Rtp

section Rtcp

variable {s : Session C A} {stream : Stream C A} {pkt tmpTag : Octets} {useMki : Bool}

/-- Past the length check, an RTCP packet is opened inside its octets. -/
theorem openRtcp_ne_fault (stream : Stream C A) (keys : SessionKeys C A) (tmpTag pkt : Octets)
    (mkiSize : Nat) : ¬ openRtcp stream keys tmpTag pkt mkiSize = .error .fault := by
  have hstatus : ∀ {α : Type} (x : Except SrtpErrStatus α), ¬ orStop .status x = .error .fault :=
    fun x => orStop_ne_fault id x
  have hcheck : ¬ checkRtcpTag keys tmpTag pkt mkiSize = .error .fault := by
    simp only [checkRtcpTag]
    split
    · simp only [Except.error.injEq, reduceCtorEq, not_false_eq_true]
    · simp only [refuseIf_eq_error, reduceCtorEq, and_false, not_false_eq_true]
  have hdecrypt : ∀ (services : SecServ) (cipher : C) (bodyLen : Nat),
      ¬ decryptRtcp services cipher pkt bodyLen = .error .fault := by
    intro services cipher bodyLen
    unfold decryptRtcp
    split
    · simp only [bind_eq_error, orStop_ne_fault, reduceCtorEq, and_false, exists_false, or_self,
        not_false_eq_true]
    · simp only [reduceCtorEq, not_false_eq_true]
  unfold openRtcp
  split
  · simp only [openRtcpAead, bind_eq_error, orStop_ne_fault, hstatus, reduceCtorEq, and_false,
      exists_false, or_self, not_false_eq_true]
  · simp only [openRtcpPlain, bind_eq_error, refuseIf_eq_error, orStop_ne_fault, hstatus, hcheck,
      hdecrypt, reduceCtorEq, and_false, exists_false, or_self, not_false_eq_true]

theorem rtcpLengths_fault_iff {tagLen mkiSize : Nat} (hlen : pkt.length < 2 ^ 31)
    (htag : tagLen < 2 ^ 31) (hmki : mkiSize ≤ 128) :
    rtcpLengths pkt tagLen mkiSize = .error .fault ↔
      2 ^ 31 ≤ octetsInRtcpHeader + tagLen + mkiSize + srtcpTrailerLen := by
  have h8 : octetsInRtcpHeader = 8 := rfl
  have h4 : srtcpTrailerLen = 4 := rfl
  simp only [rtcpLengths, bind_eq_error, refuseIf_eq_error, refuseIf_eq_ok, inside_eq_fault,
    reduceCtorEq, and_false, false_or, exists_const, Int.not_lt, Nat.zero_add]
  by_cases hsum : octetsInRtcpHeader + tagLen + mkiSize + srtcpTrailerLen < 2 ^ 31
  · rw [Int.bmod_eq_of_le (by omega) (by omega)]
    omega
  · -- The sum becomes negative as an `int`, and the check lets it pass.
    have hneg : ((octetsInRtcpHeader + tagLen + mkiSize + srtcpTrailerLen : Nat) : Int).bmod
        (2 ^ 32) < 0 := by
      rw [← Int.sub_bmod_right, Int.bmod_eq_of_le (by omega) (by omega)]
      omega
    omega

theorem openRtcpPacket_fault_iff (hlen : pkt.length < 2 ^ 31) (stream : Stream C A)
    (useMki : Bool) (tmpTag : Octets) :
    openRtcpPacket stream pkt useMki tmpTag = .error .fault ↔
      ¬ stream.EndInsideRtcp pkt useMki := by
  simp only [openRtcpPacket, bind_eq_error, selectKeys_fault_iff hlen, openRtcp_ne_fault,
    reduceCtorEq, and_false, exists_false, or_false, Prod.exists, Stream.EndInsideRtcp,
    not_and_or, not_forall, Nat.not_lt]
  refine or_congr (by simp only [exists_prop]) (exists₂_congr fun keys mkiSize => ?_)
  rw [exists_prop]
  exact and_congr_right fun hkeys =>
    rtcpLengths_fault_iff hlen (AuthType.outLen_lt keys.rtcpAuth) (mkiSize_le hkeys)

/-- A forged RTCP packet does not open. -/
theorem forgedRtcp_ne_ok {provisional : Bool} (h : s.ForgedRtcp pkt useMki tmpTag)
    (hinc : s.incomingRtcp pkt = .ok (stream, provisional)) (u : UnprotectedRtcp) :
    openRtcpPacket stream pkt useMki tmpTag ≠ .ok u := by
  intro hopen
  simp only [openRtcpPacket, bind_eq_ok, Prod.exists] at hopen
  rcases hopen with ⟨keys, mkiSize, hkeys, -, -, body, seq, hopen, -⟩
  refine h stream provisional keys mkiSize hinc hkeys ?_
  unfold openRtcp at hopen
  cases hgcm : keys.isGcm with
  | true =>
      rw [hgcm, if_pos rfl] at hopen
      exact .aead (body, seq) hgcm hopen
  | false =>
      rw [hgcm, if_neg (by decide)] at hopen
      simp only [openRtcpPlain, bind_eq_ok, orStop_eq_ok] at hopen
      rcases hopen with ⟨-, -, -, -, cipher, -, u', hcheck, -⟩
      exact .plain hgcm hcheck

/-- A forged RTCP packet leaves the session alone whenever it is read inside
    its octets. -/
theorem forged_unprotectRtcp (hlen : pkt.length < 2 ^ 31) (h : s.ForgedRtcp pkt useMki tmpTag) :
    LeavesAlone s (srtpUnprotectRtcpMki s pkt useMki tmpTag) ↔ s.EndInsideRtcp pkt useMki := by
  unfold srtpUnprotectRtcpMki Session.EndInsideRtcp
  by_cases hshort : pkt.length < octetsInRtcpHeader + srtcpTrailerLen
  · rw [if_pos hshort]
    exact iff_of_true ⟨rfl, _, rfl⟩ fun stream provisional hlong =>
      absurd hlong (Nat.not_le.mpr hshort)
  rw [if_neg hshort]
  cases hinc : s.incomingRtcp pkt with
  | error e =>
      refine iff_of_true ⟨rfl, _, rfl⟩ fun stream provisional _ hi => ?_
      exact absurd hi (by simp only [reduceCtorEq, not_false_eq_true])
  | ok r =>
  rcases r with ⟨stream, provisional⟩
  have hfault := openRtcpPacket_fault_iff hlen stream useMki tmpTag
  have hinside : (∀ stream' provisional',
      octetsInRtcpHeader + srtcpTrailerLen ≤ pkt.length →
      Except.ok (stream, provisional) = (.ok (stream', provisional') : Except SrtpErrStatus _) →
      stream'.EndInsideRtcp pkt useMki) ↔ stream.EndInsideRtcp pkt useMki := by
    constructor
    · intro hall
      exact hall stream provisional (Nat.le_of_not_lt hshort) rfl
    · rintro hin _ _ - heq
      obtain ⟨rfl, rfl⟩ := Prod.mk.inj (Except.ok.inj heq)
      exact hin
  rw [hinside]
  cases hopen : openRtcpPacket stream pkt useMki tmpTag with
  | ok u => exact absurd hopen (forgedRtcp_ne_ok h hinc u)
  | error stop =>
      rw [hopen, Except.error.injEq] at hfault
      simp only [LeavesAlone, hopen, true_and, Except.error.injEq]
      cases stop with
      | fault =>
          simp only [true_iff] at hfault
          exact iff_of_false (by simp only [reduceCtorEq, exists_false, not_false_eq_true]) hfault
      | status e =>
          simp only [reduceCtorEq, false_iff, not_not] at hfault
          exact iff_of_true ⟨e, rfl⟩ hfault

end Rtcp

/-- A forged packet leaves the session alone exactly when it is read inside its
    octets and is not counted first. An RTCP packet never is. -/
theorem forged_packet {C A : Type} [CipherType C] [AuthType A] (s : Session C A) (pkt : Octets)
    (useMki : Bool) (tmpTag : Octets) (hlen : pkt.length < 2 ^ 31) :
    (s.Forged pkt useMki →
      (LeavesAlone s (srtpUnprotectMki s pkt useMki) ↔
        EndInside s pkt useMki ∧ ¬ s.CountsFirst pkt useMki)) ∧
    (s.ForgedRtcp pkt useMki tmpTag →
      (LeavesAlone s (srtpUnprotectRtcpMki s pkt useMki tmpTag) ↔
        s.EndInsideRtcp pkt useMki)) := by
  refine ⟨fun h => ?_, fun h => forged_unprotectRtcp hlen h⟩
  have hnot := forged_ne_ok h
  rw [← unprotect_inside s pkt useMki hlen, ← forged_unprotect hlen h, and_comm, LeavesAlone]
  refine and_congr_right fun _ => ?_
  cases hr : (srtpUnprotectMki s pkt useMki).2 with
  | ok u => exact absurd hr (hnot u)
  | error stop =>
      cases stop with
      | fault =>
          simp only [Except.error.injEq, reduceCtorEq, exists_false, ne_eq, not_true_eq_false]
      | status e =>
          simp only [Except.error.injEq, Stop.status.injEq, exists_eq', ne_eq, reduceCtorEq,
            not_false_eq_true]

/-- A packet of the sample stream with an AES-GCM tag that is not its own. -/
def forgedPacket : Octets := samplePacket 0 5 [1, 2, 3, 4]

theorem forged_sample : (sampleSession .aesGcm128).Forged forgedPacket false := by
  intro inc keys mkiSize hinc hkeys
  have hstream : (sampleSession .aesGcm128).incoming forgedPacket =
      .ok { stream := sampleStream .aesGcm128, provisional := false, advance := false
            est := 5, delta := 5 } := rfl
  obtain rfl := Except.ok.inj (hinc.symm.trans hstream)
  obtain ⟨rfl, rfl⟩ := Prod.mk.inj (Except.ok.inj hkeys)
  refine ⟨Or.inl rfl, ?_⟩
  intro hauth
  cases hauth with
  | plain o hgcm _ => exact absurd hgcm (by decide)
  | aead o cipher start len r _ hready haad hportion hdecrypt =>
      rcases readyAead_eq_ok.mp hready with ⟨c, xtn, hivs, -, -, -, -, rfl⟩
      obtain ⟨rfl, rfl⟩ := Prod.mk.inj (Except.ok.inj hivs)
      obtain rfl := Except.ok.inj haad
      obtain ⟨rfl, rfl⟩ := Prod.mk.inj (Option.some.inj hportion)
      have htag : (if (rocCipher .aesGcm128).id.isGcm then
          KeystreamCipher.openTag _ _ else .ok _) = .ok r := hdecrypt
      rw [if_pos (show (rocCipher .aesGcm128).id.isGcm = true from rfl), KeystreamCipher.openTag,
        if_neg (by decide +kernel)] at htag
      exact absurd htag (by simp only [reduceCtorEq, not_false_eq_true])

/-- It is counted first. -/
theorem forged_packet_counted :
    LeavesAlone (sampleSession .aesGcm128)
        (srtpUnprotectMki (sampleSession .aesGcm128) forgedPacket false) ↔
      EndInside (sampleSession .aesGcm128) forgedPacket false ∧
        ¬ (sampleSession .aesGcm128).CountsFirst forgedPacket false :=
  (forged_packet (sampleSession .aesGcm128) forgedPacket false [] (by decide)).1 forged_sample

/-- A forged packet does not always leave the session alone: this one takes a
    use from the key. -/
theorem forged_packet_uses_key :
    ¬ ∀ (s : Session KeystreamCipher FixedAuth) (pkt : Octets) (useMki : Bool),
      s.Forged pkt useMki → LeavesAlone s (srtpUnprotectMki s pkt useMki) := by
  intro h
  have hsame := (h _ _ _ forged_sample).1
  have hleft := congrArg (fun s => (s.limits 0).numLeft) hsame
  exact absurd hleft (by decide +kernel)

end Srtp

end CryptoOpal

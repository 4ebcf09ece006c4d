import CryptoOpal.Srtp.ProtectRtcp
import CryptoOpal.Srtp.RoundTrip

/-!
# The RTCP Round Trip

When `srtp_unprotect_rtcp_mki` gives back the packet that
`srtp_protect_rtcp_mki` was given, on the counter mode path.

Both functions count trailer, MKI and tag the same way, with the length of the
RTCP tag, and there is a tag whatever the services say. The MKI is the only
thing they may disagree on: `srtp_get_session_keys` is shared with RTP and
takes the RTP tag's length off the packet's end before it looks for an MKI.

If the two tags differ in length, the search is in the wrong place. What it
finds there, if anything, is found by chance (`MkiByChance`).

## Main definitions

* `SameRtcpKeying`: The receiver has the sender's keys and RTCP services.
* `rtcpBody`, `rtcpPacket`: What the sender builds.
* `RtcpRoundTripKept`: The condition.
* `RtcpRestored`: The receiver gives back the packet.

## Theorems

* `packet_of_sealRtcp`: The sender builds `rtcpPacket`.
* `openRtcpPlain_rtcpPacket`: The receiver takes it apart.
* `rtcp_round_trip`: When the packet is restored.
-/

namespace CryptoOpal

namespace Srtp

open Lib (Octets slice overwrite)

/-- The receiver has the sender's RTCP services and keys, under numbers of its
    own. -/
structure SameRtcpKeying {C A : Type} (f : Nat → Nat) (sending receiving : Keying C A) :
    Prop where
  rtcpServices : receiving.rtcpServices = sending.rtcpServices
  sessionKeys : receiving.sessionKeys = sending.sessionKeys.map (SessionKeys.relabel f)

/-- The RTCP cipher under the IV of an index. -/
def rtcpCipherAt (keys : SessionKeys KeystreamCipher FixedAuth) (pkt : Octets) (seq : Nat) :
    KeystreamCipher :=
  { keys.rtcpCipher with iv := rtcpIv keys.rtcpCipher.id (rtcpSsrc pkt) seq, position := 0 }

/-- The same behind the prefix for the tag. -/
def rtcpCipherAfter (keys : SessionKeys KeystreamCipher FixedAuth) (pkt : Octets) (seq : Nat) :
    KeystreamCipher :=
  ((rtcpCipherAt keys pkt seq).exor (List.replicate keys.rtcpAuth.prefixLen 0)).2

/-- Header and encrypted portion. -/
def rtcpBody (services : SecServ) (keys : SessionKeys KeystreamCipher FixedAuth) (pkt : Octets)
    (seq : Nat) : Octets :=
  pkt.take octetsInRtcpHeader ++
    if services.hasConf then
      ((rtcpCipherAfter keys pkt seq).exor (pkt.drop octetsInRtcpHeader)).1
    else pkt.drop octetsInRtcpHeader

/-- The tag, over body and trailer. -/
def rtcpTag (services : SecServ) (keys : SessionKeys KeystreamCipher FixedAuth) (pkt : Octets)
    (seq : Nat) : Octets :=
  keys.rtcpAuth.mac (rtcpBody services keys pkt seq ++ srtcpTrailer services seq)

/-- What the sender builds. -/
def rtcpPacket (services : SecServ) (keys : SessionKeys KeystreamCipher FixedAuth) (pkt : Octets)
    (useMki : Bool) (seq : Nat) : Octets :=
  rtcpBody services keys pkt seq ++ srtcpTrailer services seq ++ injectMki keys useMki ++
    rtcpTag services keys pkt seq

section Packets

variable {services : SecServ} {keys : SessionKeys KeystreamCipher FixedAuth} {pkt : Octets}
  {useMki : Bool} {seq : Nat}

theorem length_rtcpBody : (rtcpBody services keys pkt seq).length = pkt.length := by
  have hsplit : (pkt.take octetsInRtcpHeader).length + (pkt.drop octetsInRtcpHeader).length =
      pkt.length := by
    rw [← List.length_append, List.take_append_drop]
  unfold rtcpBody
  split
  · rw [List.length_append, KeystreamCipher.length_exor, hsplit]
  · rw [List.length_append, hsplit]

theorem length_rtcpTag : (rtcpTag services keys pkt seq).length = keys.rtcpAuth.outLen :=
  FixedAuth.length_mac _ _

theorem length_rtcpPacket : (rtcpPacket services keys pkt useMki seq).length =
    pkt.length + srtcpTrailerLen + (injectMki keys useMki).length + keys.rtcpAuth.outLen := by
  rw [rtcpPacket, List.length_append, List.length_append, List.length_append, length_rtcpBody,
    length_srtcpTrailer, length_rtcpTag]

/-- What the sender builds on the counter mode path. -/
theorem packet_of_sealRtcp {o : Sealed KeystreamCipher} (hlen : octetsInRtcpHeader ≤ pkt.length)
    (h : sealRtcpPlain services keys pkt useMki seq = .ok o) :
    o.packet = rtcpPacket services keys pkt useMki seq := by
  simp only [sealRtcpPlain, bind_eq_ok, cipherFailed_eq_ok, Prod.exists, Except.ok.injEq,
    cipherOutput, computeRtcpTag, CipherType.setIv, CipherType.encrypt, AuthType.compute] at h
  rcases h with ⟨cipher, hiv, pfx, after, hpfx, body, last, hbody, tag, htag, rfl⟩
  have hafter : after = rtcpCipherAfter keys pkt seq := by
    rw [← hiv] at hpfx
    exact (congrArg Prod.snd hpfx).symm
  have hsplit : pkt.take octetsInRtcpHeader ++ pkt.drop octetsInRtcpHeader = pkt :=
    List.take_append_drop _ _
  have hbody' : body = rtcpBody services keys pkt seq := by
    unfold sealBody at hbody
    unfold rtcpBody
    split at hbody
    · rename_i hconf
      have hhead : (pkt.take octetsInRtcpHeader).length = octetsInRtcpHeader := by
        rw [List.length_take, Nat.min_eq_left hlen]
      have hrun : encryptPortion after (pkt.take octetsInRtcpHeader ++ pkt.drop octetsInRtcpHeader)
          octetsInRtcpHeader = _ := encryptPortion_keystream after hhead
      rw [hsplit] at hrun
      rw [cipherFailed_eq_ok, hrun, Except.ok.injEq, Prod.mk.injEq] at hbody
      rw [if_pos hconf, ← hafter]
      exact hbody.1.symm
    · rename_i hconf
      rw [Except.ok.injEq, Prod.mk.injEq] at hbody
      rw [if_neg hconf, hsplit]
      exact hbody.1.symm
  rw [← htag, hbody']
  rfl

/-- The header is not encrypted. -/
theorem rtcpSsrc_rtcpPacket (hlen : octetsInRtcpHeader ≤ pkt.length) :
    rtcpSsrc (rtcpPacket services keys pkt useMki seq) = rtcpSsrc pkt := by
  have hslice (a b : Octets) (ha : a.length = octetsInRtcpHeader) :
      slice (a ++ b) 4 4 = slice a 4 4 := by
    have h8 : octetsInRtcpHeader = 8 := rfl
    rw [slice, slice, List.drop_append_of_le_length (by omega),
      List.take_append_of_le_length (by rw [List.length_drop]; omega)]
  have hhead : (pkt.take octetsInRtcpHeader).length = octetsInRtcpHeader := by
    rw [List.length_take, Nat.min_eq_left hlen]
  have hpkt := hslice _ (pkt.drop octetsInRtcpHeader) hhead
  rw [List.take_append_drop] at hpkt
  unfold rtcpSsrc rtcpPacket rtcpBody
  rw [List.append_assoc, List.append_assoc, List.append_assoc, hslice _ _ hhead, hpkt]

/-- The receiver finds the trailer, counting from the packet's end. -/
theorem trailer_rtcpPacket :
    slice (rtcpPacket services keys pkt useMki seq) pkt.length srtcpTrailerLen =
      srtcpTrailer services seq := by
  have hmid := Lib.slice_middle (rtcpBody services keys pkt seq) (srtcpTrailer services seq)
    (injectMki keys useMki ++ rtcpTag services keys pkt seq)
  rw [length_rtcpBody, length_srtcpTrailer, ← List.append_assoc] at hmid
  exact hmid

/-- It computes the tag that is there. -/
theorem checkRtcpTag_rtcpPacket (f : Nat → Nat) (tmpTag : Octets) :
    checkRtcpTag (keys.relabel f) tmpTag (rtcpPacket services keys pkt useMki seq)
      (injectMki keys useMki).length = .ok () := by
  have htag : (rtcpTag services keys pkt seq).length = keys.rtcpAuth.outLen := length_rtcpTag
  have hauth : (rtcpPacket services keys pkt useMki seq).length - keys.rtcpAuth.outLen -
      (injectMki keys useMki).length =
        (rtcpBody services keys pkt seq ++ srtcpTrailer services seq).length := by
    rw [length_rtcpPacket, List.length_append, length_rtcpBody, length_srtcpTrailer]
    omega
  have htake : (rtcpPacket services keys pkt useMki seq).take
      (rtcpBody services keys pkt seq ++ srtcpTrailer services seq).length =
        rtcpBody services keys pkt seq ++ srtcpTrailer services seq := by
    rw [rtcpPacket, List.append_assoc, List.take_left]
  have hslice : slice (rtcpPacket services keys pkt useMki seq)
      ((rtcpBody services keys pkt seq ++ srtcpTrailer services seq).length +
        (injectMki keys useMki).length) keys.rtcpAuth.outLen = rtcpTag services keys pkt seq := by
    rw [rtcpPacket, slice, ← List.length_append, List.drop_left, ← htag, List.take_length]
  have hout : AuthType.outLen (keys.relabel f).rtcpAuth = keys.rtcpAuth.outLen := rfl
  simp only [checkRtcpTag, hout, hauth, htake, hslice, AuthType.compute, refuseIf_eq_ok, not_not]
  rfl

/-- The prefix is taken from the keystream only if there is one, which makes no
    difference to what follows. -/
theorem rtcpKeystreamPrefix_keystream (keys : SessionKeys KeystreamCipher FixedAuth) (pkt : Octets)
    (seq : Nat) (f : Nat → Nat) :
    ∃ pfx cipher, rtcpKeystreamPrefix (keys.relabel f) (rtcpCipherAt keys pkt seq) =
        .ok (pfx, cipher) ∧ cipher.id = keys.rtcpCipher.id ∧
      ∀ data, (cipher.exor data).1 = ((rtcpCipherAfter keys pkt seq).exor data).1 := by
  have hout : AuthType.prefixLen (keys.relabel f).rtcpAuth = keys.rtcpAuth.prefixLen := rfl
  unfold rtcpKeystreamPrefix
  rw [hout]
  split
  · exact ⟨_, _, rfl, rfl, fun data => rfl⟩
  · rename_i hnone
    refine ⟨_, _, rfl, rfl, fun data => ?_⟩
    rw [rtcpCipherAfter, not_not.mp hnone]
    rfl

/-- It decrypts the body. What follows the body is still there. -/
theorem decryptRtcp_rtcpPacket {cipher : KeystreamCipher} (hlen : octetsInRtcpHeader ≤ pkt.length)
    (hid : cipher.id.isGcm = false)
    (hcipher : ∀ data, (cipher.exor data).1 = ((rtcpCipherAfter keys pkt seq).exor data).1) :
    decryptRtcp services cipher (rtcpPacket services keys pkt useMki seq) pkt.length =
      .ok (pkt ++ srtcpTrailer services seq ++ injectMki keys useMki ++
        rtcpTag services keys pkt seq) := by
  have hsplit : pkt.take octetsInRtcpHeader ++ pkt.drop octetsInRtcpHeader = pkt :=
    List.take_append_drop _ _
  have hhead : (pkt.take octetsInRtcpHeader).length = octetsInRtcpHeader := by
    rw [List.length_take, Nat.min_eq_left hlen]
  unfold decryptRtcp
  cases hconf : services.hasConf with
  | false =>
      have hbody : rtcpBody services keys pkt seq = pkt := by
        rw [rtcpBody, hconf, if_neg (by decide), hsplit]
      rw [if_neg (by decide), rtcpPacket, hbody]
  | true =>
      have hbody : rtcpBody services keys pkt seq = pkt.take octetsInRtcpHeader ++
          ((rtcpCipherAfter keys pkt seq).exor (pkt.drop octetsInRtcpHeader)).1 := by
        rw [rtcpBody, hconf, if_pos rfl]
      -- Header, encrypted portion, and everything behind them.
      have hparts : rtcpPacket services keys pkt useMki seq = pkt.take octetsInRtcpHeader ++
          ((rtcpCipherAfter keys pkt seq).exor (pkt.drop octetsInRtcpHeader)).1 ++
            (srtcpTrailer services seq ++ injectMki keys useMki ++
              rtcpTag services keys pkt seq) := by
        rw [rtcpPacket, hbody]
        simp only [List.append_assoc]
      have hdata : ((rtcpCipherAfter keys pkt seq).exor (pkt.drop octetsInRtcpHeader)).1.length =
          pkt.length - octetsInRtcpHeader := by
        rw [KeystreamCipher.length_exor, List.length_drop]
      generalize hportion :
        ((rtcpCipherAfter keys pkt seq).exor (pkt.drop octetsInRtcpHeader)).1 = data at hparts hdata
      have hslice := Lib.slice_middle (pkt.take octetsInRtcpHeader) data
        (srtcpTrailer services seq ++ injectMki keys useMki ++ rtcpTag services keys pkt seq)
      rw [← hparts, hhead, hdata] at hslice
      have hplain : (cipher.exor data).1 = pkt.drop octetsInRtcpHeader := by
        rw [hcipher, ← hportion, KeystreamCipher.exor_exor]
      have hwrite := Lib.overwrite_middle (pkt.take octetsInRtcpHeader) data
        (srtcpTrailer services seq ++ injectMki keys useMki ++ rtcpTag services keys pkt seq)
        (pkt.drop octetsInRtcpHeader) (by rw [hdata, List.length_drop])
      rw [← hparts, hhead, hsplit] at hwrite
      simp only [if_true, hslice, CipherType.decrypt, hid, Bool.false_eq_true, if_false, orStop,
        bind, Except.bind, hplain, hwrite, List.append_assoc]

/-- The receiver takes the packet apart. -/
theorem openRtcpPlain_rtcpPacket (f : Nat → Nat) {stream : Stream KeystreamCipher FixedAuth}
    (hlen : octetsInRtcpHeader ≤ pkt.length) (hseq : seq < 2 ^ 31)
    (hcipher : keys.rtcpCipher.id.isGcm = false) (hservices : stream.rtcpServices = services)
    (hnew : stream.rtcpRdb.check seq = .ok ()) (tmpTag : Octets) :
    openRtcpPlain stream (keys.relabel f) tmpTag (rtcpPacket services keys pkt useMki seq)
        (injectMki keys useMki).length =
      .ok (pkt ++ srtcpTrailer services seq ++ injectMki keys useMki ++
        rtcpTag services keys pkt seq, seq) := by
  have hout : AuthType.outLen (keys.relabel f).rtcpAuth = keys.rtcpAuth.outLen := rfl
  have hbodyLen : (rtcpPacket services keys pkt useMki seq).length -
      (keys.rtcpAuth.outLen + (injectMki keys useMki).length + srtcpTrailerLen) = pkt.length := by
    rw [length_rtcpPacket]
    omega
  have hiv : CipherType.setIv (keys.relabel f).rtcpCipher
      (rtcpIv (CipherType.typeId (keys.relabel f).rtcpCipher) (rtcpSsrc pkt) seq) .decrypt =
        .ok (rtcpCipherAt keys pkt seq) := rfl
  rcases rtcpKeystreamPrefix_keystream keys pkt seq f with ⟨pfx, cipher, hpfx, hid, hsame⟩
  have hgcm : cipher.id.isGcm = false := by rw [hid, hcipher]
  simp only [openRtcpPlain, hout, hbodyLen, trailer_rtcpPacket, trailerEBit_srtcpTrailer _ hseq,
    trailerIndex_srtcpTrailer _ hseq, rtcpSsrc_rtcpPacket hlen, hservices, hnew, hiv,
    checkRtcpTag_rtcpPacket, hpfx, decryptRtcp_rtcpPacket hlen hgcm hsame, refuseIf, orStop,
    ne_eq, not_true_eq_false, if_false, bind, Except.bind]

end Packets

/-- The receiver gives back the packet. -/
def RtcpRestored (r : Session KeystreamCipher FixedAuth) (pkt packet : Octets) (useMki : Bool)
    (tmpTag : Octets) : Prop :=
  (srtpUnprotectRtcpMki r packet useMki tmpTag).2.toOption.map UnprotectedRtcp.packet = some pkt

/-- If MKIs are used, the RTP and the RTCP tag have one length, and the sender's
    MKI stands out. -/
def RtcpRoundTripKept (sending : Keying KeystreamCipher FixedAuth) (pkt : Octets) (useMki : Bool)
    (mkiIndex : Nat) (keys : SessionKeys KeystreamCipher FixedAuth) : Prop :=
  useMki = true → keys.rtpAuth.outLen = keys.rtcpAuth.outLen ∧
    MkiStandsOut sending.sessionKeys mkiIndex keys (pkt.length + srtcpTrailerLen)

/-- The tags have different lengths, and yet an MKI is found where the RTP tag's
    length points. -/
def MkiByChance (sending : Keying KeystreamCipher FixedAuth)
    (keys : SessionKeys KeystreamCipher FixedAuth) (packet : Octets) : Prop :=
  keys.rtpAuth.outLen ≠ keys.rtcpAuth.outLen ∧ ∃ other ∈ sending.sessionKeys,
    MkiAt packet (packet.length - keys.rtpAuth.outLen) other

section Calls

variable {r : Session KeystreamCipher FixedAuth} {pkt packet : Octets} {useMki provisional : Bool}
  {mkiIndex seq : Nat} {f : Nat → Nat} {sending : Keying KeystreamCipher FixedAuth}
  {keys : SessionKeys KeystreamCipher FixedAuth} {stream : Stream KeystreamCipher FixedAuth}
  {tmpTag : Octets}

/-- The receiver restores a packet if the condition holds. -/
theorem rtcpRestored_of_kept (hlen : octetsInRtcpHeader ≤ pkt.length) (hseq : seq < 2 ^ 31)
    (hplain : PlainKeys keys.rtpAuth.outLen sending.sessionKeys)
    (hcipher : keys.rtcpCipher.id.isGcm = false)
    (hget : sending.sessionKeys[if useMki then mkiIndex else 0]? = some keys)
    (hpacket : packet = rtcpPacket sending.rtcpServices keys pkt useMki seq)
    (hsize : packet.length < 2 ^ 31) (hinc : r.incomingRtcp packet = .ok (stream, provisional))
    (hsame : SameRtcpKeying f sending stream.keying) (hnew : stream.rtcpRdb.check seq = .ok ())
    (hkept : RtcpRoundTripKept sending pkt useMki mkiIndex keys) :
    RtcpRestored r pkt packet useMki tmpTag := by
  have hlength : packet.length =
      pkt.length + srtcpTrailerLen + (injectMki keys useMki).length + keys.rtcpAuth.outLen := by
    rw [hpacket, length_rtcpPacket]
  have hgcm : (keys.relabel f).isGcm = false := (hplain keys (List.mem_of_getElem? hget)).1
  have hfront : (rtcpBody sending.rtcpServices keys pkt seq ++
      srtcpTrailer sending.rtcpServices seq).length = pkt.length + srtcpTrailerLen := by
    rw [List.length_append, length_rtcpBody, length_srtcpTrailer]
  have hselect : selectKeys stream packet useMki =
      .ok (keys.relabel f, (injectMki keys useMki).length) := by
    rw [hpacket] at hsize ⊢
    refine selectKeys_kept hplain hsame.sessionKeys hget ?_ ?_ hsize
    · intro hmki
      rw [hfront]
      exact (hkept hmki).2
    · intro hmki
      rw [length_rtcpTag]
      exact (hkept hmki).1.symm
  have hlengths : rtcpLengths packet (AuthType.outLen (keys.relabel f).rtcpAuth)
      (injectMki keys useMki).length = .ok () :=
    rtcpLengths_of_le hsize (hlength ▸ by
      rw [show AuthType.outLen (keys.relabel f).rtcpAuth = keys.rtcpAuth.outLen from rfl]
      omega)
  have hopen : openRtcp stream (keys.relabel f) tmpTag packet (injectMki keys useMki).length =
      .ok (pkt ++ srtcpTrailer sending.rtcpServices seq ++ injectMki keys useMki ++
        rtcpTag sending.rtcpServices keys pkt seq, seq) := by
    rw [openRtcp, hgcm, if_neg (by decide), hpacket]
    exact openRtcpPlain_rtcpPacket f hlen hseq hcipher hsame.rtcpServices hnew tmpTag
  have hcut : (pkt ++ srtcpTrailer sending.rtcpServices seq ++ injectMki keys useMki ++
      rtcpTag sending.rtcpServices keys pkt seq).take
        (packet.length - (keys.rtcpAuth.outLen + srtcpTrailerLen) -
          (injectMki keys useMki).length) = pkt := by
    rw [show packet.length - (keys.rtcpAuth.outLen + srtcpTrailerLen) -
      (injectMki keys useMki).length = pkt.length by omega, List.append_assoc, List.append_assoc,
      List.take_left]
  have hopened : openRtcpPacket stream packet useMki tmpTag =
      .ok { packet := pkt, seq := seq, ref := (keys.relabel f).ref } := by
    refine bind_eq_ok.mpr ⟨_, hselect, bind_eq_ok.mpr ⟨_, hlengths, bind_eq_ok.mpr ⟨_, hopen, ?_⟩⟩⟩
    exact congrArg (fun body => Except.ok (UnprotectedRtcp.mk body seq (keys.relabel f).ref)) hcut
  have hroom : ¬ packet.length < octetsInRtcpHeader + srtcpTrailerLen := by omega
  unfold RtcpRestored srtpUnprotectRtcpMki
  rw [if_neg hroom]
  simp only [hinc, hopened]
  rfl

/-- With distinct MKIs of one length, it does not restore it otherwise, unless an
    MKI is found by chance. -/
theorem kept_of_rtcpRestored
    (hplain : PlainKeys keys.rtpAuth.outLen sending.sessionKeys)
    (hget : sending.sessionKeys[if useMki then mkiIndex else 0]? = some keys)
    (hpacket : packet = rtcpPacket sending.rtcpServices keys pkt useMki seq)
    (hsize : packet.length < 2 ^ 31) (hinc : r.incomingRtcp packet = .ok (stream, provisional))
    (hsame : SameRtcpKeying f sending stream.keying)
    (huniform : useMki = true → UniformMkis sending.sessionKeys)
    (hchance : ¬ MkiByChance sending keys packet)
    (hrestored : RtcpRestored r pkt packet useMki tmpTag) :
    RtcpRoundTripKept sending pkt useMki mkiIndex keys := by
  rintro rfl
  rcases Option.map_eq_some_iff.mp hrestored with ⟨u, hu, -⟩
  rcases unprotectRtcp_ok (toOption_eq_some.mp hu) with ⟨stream', provisional', hinc', hopen, -⟩
  rw [hinc, Except.ok.injEq, Prod.mk.injEq] at hinc'
  rw [← hinc'.1] at hopen
  simp only [openRtcpPacket, bind_eq_ok, Prod.exists] at hopen
  rcases hopen with ⟨found, mkiSize, hselect, -⟩
  have hfront : (rtcpBody sending.rtcpServices keys pkt seq ++
      srtcpTrailer sending.rtcpServices seq).length = pkt.length + srtcpTrailerLen := by
    rw [List.length_append, length_rtcpBody, length_srtcpTrailer]
  by_cases htags : keys.rtpAuth.outLen = keys.rtcpAuth.outLen
  · refine ⟨htags, ?_⟩
    rw [hpacket] at hselect hsize
    rw [← hfront]
    exact kept_of_selectKeys hplain hsame.sessionKeys hget huniform
      (length_rtcpTag.trans htags.symm) hsize hselect rfl
  · -- The search is in the wrong place, and what it finds is found by chance.
    refine absurd ⟨htags, ?_⟩ hchance
    have hbase : mkiTagLen stream = keys.rtpAuth.outLen := mkiTagLen_plain (by
      rw [show stream.sessionKeys = _ from hsame.sessionKeys]
      exact hplain.relabel f)
    simp only [selectKeys, if_true, srtpGetSessionKeys, bind_eq_ok] at hselect
    rcases hselect with ⟨-, -, hfind⟩
    rw [hbase, show stream.sessionKeys = _ from hsame.sessionKeys, findMki_relabel, map_eq_ok]
      at hfind
    rcases hfind with ⟨⟨other, size⟩, hfind, -⟩
    rcases (findMki_eq_ok hsize (Nat.sub_le _ _)).mp hfind with ⟨pre, post, hl, -, -, -, hat, -⟩
    refine ⟨other, ?_, hat⟩
    rw [hl]
    exact List.mem_append_right pre List.mem_cons_self

end Calls

/-- An authentication function with a tag of ten octets, the end of the
    message. -/
def endAuth : FixedAuth :=
  { outLen := 10
    outLen_lt := by decide
    prefixLen := 0
    mac := fun msg => (List.replicate 10 0 ++ msg).drop msg.length
    length_mac := by
      intro msg
      simp only [List.length_drop, List.length_append, List.length_replicate]
      omega }

/-- An MKI of one octet. -/
def sampleMki : Octets := [1]

theorem length_sampleMki : sampleMki.length ≤ 128 := by decide

/-- Session keys with an MKI, for packets with an RTP tag of four octets and the
    given RTCP tag. -/
def mkiKeys (rtcpAuth : FixedAuth) : SessionKeys KeystreamCipher FixedAuth :=
  { sampleKeys .aesIcm128 with rtcpAuth := rtcpAuth, mkiId := sampleMki, mki_le := length_sampleMki }

/-- An RTCP packet of SSRC 1. -/
def sampleReport : Octets := [0x80, 201, 0, 2, 0, 0, 0, 1, 9, 9, 9, 9]

/-- What is left of an RTCP packet that is protected and unprotected. -/
def throughBothRtcp (stream : Stream KeystreamCipher FixedAuth) (pkt : Octets) :
    Option (Except Stop Octets) :=
  (srtpProtectRtcpMki (sessionOf stream) pkt true 0).2.toOption.bind fun p =>
    ((sessionOf stream).incomingRtcp p.packet).toOption.bind fun inc =>
      (inc.1.rtcpRdb.check p.seq).toOption.bind fun _ =>
        if p.packet.length < 2 ^ 31 then
          some ((srtpUnprotectRtcpMki (sessionOf stream) p.packet true []).2.map
            UnprotectedRtcp.packet)
        else none

/-- The calls behind `throughBothRtcp`. -/
theorem of_throughBothRtcp {stream : Stream KeystreamCipher FixedAuth} {pkt : Octets}
    {last : Except Stop Octets} (h : throughBothRtcp stream pkt = some last) :
    ∃ p found provisional, (srtpProtectRtcpMki (sessionOf stream) pkt true 0).2 = .ok p ∧
      p.packet.length < 2 ^ 31 ∧
      (sessionOf stream).incomingRtcp p.packet = .ok (found, provisional) ∧
      found.rtcpRdb.check p.seq = .ok () ∧
      (srtpUnprotectRtcpMki (sessionOf stream) p.packet true []).2.map UnprotectedRtcp.packet =
        last := by
  simp only [throughBothRtcp, Option.bind_eq_some_iff, toOption_eq_some] at h
  rcases h with ⟨p, hprotect, ⟨found, provisional⟩, hinc, u, hcheck, hlast⟩
  split at hlast
  · rename_i hsize
    rw [Option.some.injEq] at hlast
    exact ⟨p, found, provisional, hprotect, hsize, hinc, hcheck, hlast⟩
  · exact absurd hlast (by simp only [reduceCtorEq, not_false_eq_true])

theorem plainKeys_mkiKeys (rtcpAuth : FixedAuth) : PlainKeys 4 [mkiKeys rtcpAuth] := by
  intro keys hmem
  rw [List.mem_singleton] at hmem
  rw [hmem]
  exact ⟨rfl, rfl⟩

theorem sameRtcpKeying_self (keying : Keying KeystreamCipher FixedAuth) :
    SameRtcpKeying id keying keying := by
  refine ⟨rfl, ?_⟩
  exact (List.map_id keying.sessionKeys).symm

end Srtp

end CryptoOpal

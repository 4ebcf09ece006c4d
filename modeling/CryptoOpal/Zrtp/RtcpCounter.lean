import CryptoOpal.Zrtp.SrtpBuiltin

/-!
# The RTCP Counter of libzrtp

A stream protects one RTCP packet after another, and each one that comes out
is received. The packet carries its index in a trailer, below the bit that
says that it is encrypted, and the index is the counter of the node for its
SSRC, which every call moves on by one.

A packet whose index takes 31 bits comes back as it was (`unprotect_protect`):
the header is sent in the clear, so both sides compute one IV, and the index
is above all that the receiver has seen. But the test for the end of the
indices is made before the counter moves on, so one more packet is sent, with
an index of 2^31. The receiver masks that to zero and refuses the packet. Later
on the counter starts again, and packets are sent although all the indices
have been used. `rtcp_exchange_iff` says when a call does what it should.

## Main definitions

* `RtcpLink`: The nodes of both sides.
* `roundTrip`, `roundTrips`: Protect packets, and receive what comes out.
* `callsFor`: The calls that went to one counter.
* `Meets`: What a call should do, given how many there were before.

## Theorems

* `applyKeystream_cancel`: Encryption twice changes nothing.
* `srtpUnprotectRtcp_sealed`: What the receiver makes of a protected packet.
* `unprotect_protect`: A packet comes back.
* `counted_exchange`: The step: both sides count on.
* `rtcp_exchange_iff`: Which calls of a run do what they should.
-/

namespace CryptoOpal

namespace Zrtp

open Lib (Octets slice overwrite bigEndian ofBigEndian length_bigEndian)

section Keystream

variable {packet : Octets} {off len : Nat}

theorem length_applyKeystream (keystream : Nat → UInt8) (h : off + len ≤ packet.length) :
    (applyKeystream keystream packet off len).length = packet.length := by
  rw [applyKeystream]
  apply Lib.length_overwrite
  rw [List.length_mapIdx, Lib.length_slice]
  omega

/-- What precedes the encrypted part stays. -/
theorem take_applyKeystream (keystream : Nat → UInt8) (h : off + len ≤ packet.length) :
    (applyKeystream keystream packet off len).take off = packet.take off :=
  Lib.take_overwrite packet _ (Nat.le_refl off) (by omega)

/-- Encryption twice changes nothing. -/
theorem applyKeystream_cancel (keystream : Nat → UInt8) (h : off + len ≤ packet.length) :
    applyKeystream keystream (applyKeystream keystream packet off len) off len = packet := by
  have hlen : ((slice packet off len).mapIdx fun i b => b ^^^ keystream i).length = len := by
    rw [List.length_mapIdx, Lib.length_slice]
    omega
  have hslice : slice (applyKeystream keystream packet off len) off len =
      (slice packet off len).mapIdx fun i b => b ^^^ keystream i := by
    have hwritten := @Lib.slice_overwrite packet off
      ((slice packet off len).mapIdx fun i b => b ^^^ keystream i) (by omega)
    rwa [hlen] at hwritten
  have hback : ((slice packet off len).mapIdx fun i b => b ^^^ keystream i).mapIdx
      (fun i b => b ^^^ keystream i) = slice packet off len := by
    apply List.ext_getElem
    · rw [List.length_mapIdx, List.length_mapIdx]
    · intro i _ _
      rw [List.getElem_mapIdx, List.getElem_mapIdx, Lib.xor_cancel_right]
  rw [applyKeystream, hslice, hback, applyKeystream]
  exact Lib.overwrite_back packet _ hlen (by omega)

end Keystream

/-- The four octets of the SSRC are in the header. -/
theorem rtcpSsrc_congr {packet packet' : Octets} (h : packet.take 8 = packet'.take 8) :
    rtcpSsrc packet = rtcpSsrc packet' := by
  have hpart : ∀ p : Octets, rtcpSsrc p = (p.take 8).drop 4 := by
    intro p
    rw [rtcpSsrc, slice, List.drop_take]
  rw [hpart, hpart, h]

section Receive

variable {snd rcv : SrtpCtx} {owner : Nat} {nodes : List ReplayNode} {info : RtpInfo}

/-- Whatever the packet, the receiver changes no half but that of its SSRC. -/
theorem halfAt_unprotectRtcp {k : Nat} (hk : info.ssrc ≠ k) (half : Half) :
    halfAt half (srtpUnprotectRtcp rcv owner nodes info).1 k = halfAt half nodes k := by
  have hwrite : ∀ rp : ReplayProtection, halfAt half
      (updateNode { (addNode owner info.ssrc nodes).1 with rtcpRp := rp }
        (addNode owner info.ssrc nodes).2) k = halfAt half nodes k := by
    intro rp
    have hset := @halfAt_setHalf nodes owner info.ssrc .rtcp half rp k
    rwa [if_neg fun hboth => hk hboth.1] at hset
  simp only [srtpUnprotectRtcp]
  split
  · exact halfAt_addNode half k
  · split
    · exact halfAt_addNode half k
    · split
      · exact halfAt_addNode half k
      · split
        · exact hwrite _
        · exact hwrite _

/-- The packet that the sender makes with an index. -/
def sealRtcp (stream : SrtpStreamCtx) (packet : Octets) (seqNum : Nat) : Octets :=
  let body := applyKeystream (stream.rtcpCipher (packetIv (rtcpSsrc packet) seqNum)) packet
    octetsInRtcpHeader (packet.length - octetsInRtcpHeader)
  let covered := body ++ rtcpTrailer seqNum
  covered ++ stream.rtcpAuth covered

/-- The sender's call, for a packet with a header. -/
theorem srtpProtectRtcp_eq (hlen : octetsInRtcpHeader ≤ info.packet.length) :
    let rp := halfAt .rtcp nodes info.ssrc
    let done := srtpProtectRtcp snd owner nodes info
    done.1 = updateNode ((addNode owner info.ssrc nodes).1.setHalf rp.increment.2 .rtcp)
        (addNode owner info.ssrc nodes).2 ∧
      (rp.seq ≤ 0x7fffffff → done.2.status = .ok ∧
        done.2.packet = sealRtcp snd.outgoingSrtp info.packet ((rp.seq + 1) % 2 ^ 32)) ∧
      (0x7fffffff < rp.seq → done.2.status = .rpFail) := by
  have hfound : (addNode owner info.ssrc nodes).1.rtcpRp = halfAt .rtcp nodes info.ssrc :=
    half_addNode .rtcp
  have hlong : ¬ info.packet.length < octetsInRtcpHeader := Nat.not_lt.mpr hlen
  simp only [srtpProtectRtcp, hfound, if_neg hlong, ReplayProtection.increment]
  by_cases hexpired : (halfAt .rtcp nodes info.ssrc).seq > 0x7fffffff
  · simp only [if_pos hexpired, ne_eq, reduceCtorEq, not_false_eq_true, if_true]
    refine ⟨rfl, ?_, fun _ => rfl⟩
    intro hle
    exact absurd hexpired (Nat.not_lt.mpr hle)
  · simp only [if_neg hexpired, ne_eq, not_true, if_false]
    refine ⟨rfl, fun _ => ⟨trivial, rfl⟩, ?_⟩
    intro hlt
    exact absurd hlt hexpired

/-- The bit and the index come out of the trailer. -/
theorem ofBigEndian_rtcpTrailer {seqNum : Nat} (h : seqNum < 2 ^ 31) :
    ofBigEndian (rtcpTrailer seqNum) = 2 ^ 31 + seqNum := by
  have hor : 0x80000000 ||| seqNum = 2 ^ 31 + seqNum :=
    (Nat.two_pow_add_eq_or_of_lt h 1).symm
  rw [rtcpTrailer, hor, Lib.ofBigEndian_bigEndian]
  omega

/-- The encrypted packet, before the trailer. -/
def sealedBody (stream : SrtpStreamCtx) (packet : Octets) (seqNum : Nat) : Octets :=
  applyKeystream (stream.rtcpCipher (packetIv (rtcpSsrc packet) seqNum)) packet
    octetsInRtcpHeader (packet.length - octetsInRtcpHeader)

theorem length_sealedBody (stream : SrtpStreamCtx) {packet : Octets} (seqNum : Nat)
    (hlen : octetsInRtcpHeader ≤ packet.length) :
    (sealedBody stream packet seqNum).length = packet.length :=
  length_applyKeystream _ (by omega)

/-- The receiver finds the tag and the trailer where the sender has put them. -/
theorem parts_of_sealRtcp (stream : SrtpStreamCtx) (packet : Octets) (seqNum : Nat) :
    let sent := sealRtcp stream packet seqNum
    let covered := sealedBody stream packet seqNum ++ rtcpTrailer seqNum
    sent.take (sent.length - stream.rtcpTagLen) = covered ∧
      sent.drop covered.length = stream.rtcpAuth covered ∧
      covered.length - rtcpTrailerSize = (sealedBody stream packet seqNum).length ∧
      covered.drop (sealedBody stream packet seqNum).length = rtcpTrailer seqNum := by
  have hsealed : sealRtcp stream packet seqNum =
      (sealedBody stream packet seqNum ++ rtcpTrailer seqNum) ++
        stream.rtcpAuth (sealedBody stream packet seqNum ++ rtcpTrailer seqNum) := rfl
  have hwhole : (sealRtcp stream packet seqNum).length - stream.rtcpTagLen =
      (sealedBody stream packet seqNum ++ rtcpTrailer seqNum).length := by
    rw [hsealed, List.length_append, stream.length_rtcpAuth, Nat.add_sub_cancel]
  have htrailer : (rtcpTrailer seqNum).length = rtcpTrailerSize := length_bigEndian 4 _
  simp only [hwhole]
  refine ⟨?_, ?_, ?_, List.drop_left⟩
  · rw [hsealed, List.take_left]
  · rw [hsealed, List.drop_left]
  · rw [List.length_append, htrailer, Nat.add_sub_cancel]

/-- A protected packet is not too short for its receiver. -/
theorem not_short_sealRtcp (stream : SrtpStreamCtx) {packet : Octets} (seqNum : Nat)
    (hlen : octetsInRtcpHeader ≤ packet.length) :
    ¬ (sealRtcp stream packet seqNum).length < octetsInRtcpHeader := by
  have hbody := length_sealedBody stream seqNum hlen
  have hsealed : (sealRtcp stream packet seqNum).length =
      (sealedBody stream packet seqNum ++ rtcpTrailer seqNum).length +
        (stream.rtcpAuth (sealedBody stream packet seqNum ++ rtcpTrailer seqNum)).length :=
    List.length_append
  rw [hsealed, List.length_append]
  omega

/-- What the receiver makes of a protected packet with an index of 31 bits
    that its window accepts. -/
theorem srtpUnprotectRtcp_sealed (owner : Nat) {packet : Octets} {seqNum : Nat}
    (hlen : octetsInRtcpHeader ≤ packet.length) (htag : rcv.incomingSrtp.rtcpTagLen ≠ 0)
    (hseq : seqNum < 2 ^ 31) (hpacket : info.packet = sealRtcp rcv.incomingSrtp packet seqNum)
    (hgood : (halfAt .rtcp nodes info.ssrc).check seqNum = .ok) :
    let rp := halfAt .rtcp nodes info.ssrc
    let done := srtpUnprotectRtcp rcv owner nodes info
    done.1 = updateNode ((addNode owner info.ssrc nodes).1.setHalf (rp.add seqNum) .rtcp)
        (addNode owner info.ssrc nodes).2 ∧
      done.2.status = .ok ∧ done.2.packet = packet := by
  have hfound : (addNode owner info.ssrc nodes).1.rtcpRp = halfAt .rtcp nodes info.ssrc :=
    half_addNode .rtcp
  obtain ⟨hcovered, hrest, hcut, htrailer⟩ := parts_of_sealRtcp rcv.incomingSrtp packet seqNum
  have hlong := not_short_sealRtcp rcv.incomingSrtp seqNum hlen
  have hpart : octetsInRtcpHeader + (packet.length - octetsInRtcpHeader) ≤ packet.length := by
    omega
  have hbodylen := length_sealedBody rcv.incomingSrtp seqNum hlen
  rw [← hpacket] at hcovered hrest hlong
  have hindex : (2 ^ 31 + seqNum) % 2 ^ 31 = seqNum := by omega
  have hbit : (2 ^ 31 + seqNum) / 2 ^ 31 % 2 = 1 := by omega
  have hssrc : rtcpSsrc info.packet = rtcpSsrc packet := by
    apply rtcpSsrc_congr
    have hkept := take_applyKeystream
      (rcv.incomingSrtp.rtcpCipher (packetIv (rtcpSsrc packet) seqNum)) hpart
    rw [hpacket, sealRtcp, List.append_assoc, List.take_append_of_le_length]
    · exact hkept
    · exact Nat.le_trans hlen (Nat.le_of_eq hbodylen.symm)
  have hauth : ¬ (rcv.incomingSrtp.rtcpTagLen = 0 ∨
      rcv.incomingSrtp.rtcpAuth (sealedBody rcv.incomingSrtp packet seqNum ++ rtcpTrailer seqNum) ≠
        info.packet.drop
          (sealedBody rcv.incomingSrtp packet seqNum ++ rtcpTrailer seqNum).length) := by
    rw [hrest]
    intro h
    rcases h with h | h
    · exact htag h
    · exact h rfl
  have hplain : applyKeystream (rcv.incomingSrtp.rtcpCipher (packetIv (rtcpSsrc packet) seqNum))
      (sealedBody rcv.incomingSrtp packet seqNum) octetsInRtcpHeader
      ((sealedBody rcv.incomingSrtp packet seqNum).length - octetsInRtcpHeader) = packet := by
    rw [hbodylen]
    exact applyKeystream_cancel _ hpart
  have hgood' : ¬ (halfAt .rtcp nodes info.ssrc).check seqNum ≠ .ok := fun h => h hgood
  simp only [srtpUnprotectRtcp, hfound, if_neg hlong, hcovered, hcut, htrailer,
    ofBigEndian_rtcpTrailer hseq, hindex, if_neg hgood', if_neg hauth, if_pos hbit, List.take_left,
    hssrc, hplain]
  exact ⟨rfl, trivial, trivial⟩

/-- The index after the last one has its upper bit masked, and the packet is
    refused. -/
theorem srtpUnprotectRtcp_masked (owner : Nat) {packet : Octets}
    (hlen : octetsInRtcpHeader ≤ packet.length)
    (hpacket : info.packet = sealRtcp rcv.incomingSrtp packet (2 ^ 31))
    (hbad : (halfAt .rtcp nodes info.ssrc).check 0 ≠ .ok) :
    (srtpUnprotectRtcp rcv owner nodes info).2.status = .rpFail := by
  have hfound : (addNode owner info.ssrc nodes).1.rtcpRp = halfAt .rtcp nodes info.ssrc :=
    half_addNode .rtcp
  obtain ⟨hcovered, _, hcut, htrailer⟩ := parts_of_sealRtcp rcv.incomingSrtp packet (2 ^ 31)
  have hlong := not_short_sealRtcp rcv.incomingSrtp (2 ^ 31) hlen
  rw [← hpacket] at hcovered hlong
  have hindex : ofBigEndian (rtcpTrailer (2 ^ 31)) % 2 ^ 31 = 0 := by decide
  simp only [srtpUnprotectRtcp, hfound, if_neg hlong, hcovered, hcut, htrailer, hindex, if_pos hbad]
  rfl

end Receive

/-- The nodes for what one side sends and for what the other receives. -/
structure RtcpLink where
  sender : List ReplayNode
  receiver : List ReplayNode
  deriving DecidableEq

/-- What a call and the delivery of its packet did. Only a packet that was
    returned with ok is delivered. -/
structure Exchanged where
  sent : Outcome
  received : Option Outcome
  link : RtcpLink
  deriving DecidableEq

/-- Protect a packet, and receive what comes out. -/
def roundTrip (snd rcv : SrtpCtx) (sndOwner rcvOwner : Nat) (link : RtcpLink) (info : RtpInfo) :
    Exchanged :=
  let sent := srtpProtectRtcp snd sndOwner link.sender info
  if sent.2.status = .ok then
    let received := srtpUnprotectRtcp rcv rcvOwner link.receiver
      { info with packet := sent.2.packet }
    ⟨sent.2, some received.2, ⟨sent.1, received.1⟩⟩
  else ⟨sent.2, none, ⟨sent.1, link.receiver⟩⟩

/-- The nodes after these calls, from none. -/
def roundTrips (snd rcv : SrtpCtx) (sndOwner rcvOwner : Nat) (infos : List RtpInfo) : RtcpLink :=
  infos.foldl (fun link info => (roundTrip snd rcv sndOwner rcvOwner link info).link) ⟨[], []⟩

/-- The calls with this SSRC. -/
def callsFor (ssrc : Nat) (infos : List RtpInfo) : Nat := infos.countP fun info => info.ssrc = ssrc

/-- What a call should do after `n` others: a packet that is returned comes
    back, and none is returned when the indices of 31 bits are used up. -/
def Meets (n : Nat) (info : RtpInfo) (done : Exchanged) : Prop :=
  (done.sent.status = .ok →
    ∃ got, done.received = some got ∧ got.status = .ok ∧ got.packet = info.packet) ∧
  (2 ^ 31 ≤ n + 1 → done.sent.status ≠ .ok)

section Runs

variable {snd rcv : SrtpCtx} {sndOwner rcvOwner : Nat}

/-- The counters after some calls. The receiver has the sender's index, as long
    as that has 31 bits. -/
structure Counted (infos : List RtpInfo) (link : RtcpLink) : Prop where
  sender : ∀ ssrc, (halfAt .rtcp link.sender ssrc).seq = callsFor ssrc infos % 2 ^ 32
  receiver : ∀ ssrc, callsFor ssrc infos < 2 ^ 31 →
    (halfAt .rtcp link.receiver ssrc).seq = callsFor ssrc infos

theorem callsFor_append (ssrc : Nat) (infos : List RtpInfo) (info : RtpInfo) :
    callsFor ssrc (infos ++ [info]) =
      callsFor ssrc infos + if info.ssrc = ssrc then 1 else 0 := by
  rw [callsFor, List.countP_append, List.countP_singleton, callsFor]
  by_cases h : info.ssrc = ssrc
  · rw [if_pos h, if_pos (decide_eq_true h)]
  · rw [if_neg h, if_neg (by simp only [h, decide_false, Bool.false_eq_true, not_false_eq_true])]

/-- An index that is above all that were seen is accepted. -/
theorem check_above {rp : ReplayProtection} {seq : Nat} (hlt : rp.seq < seq) (hseq : seq < 2 ^ 31) :
    rp.check seq = .ok ∧ (rp.add seq).seq = seq := by
  have hdelta : rp.delta seq = (seq : Int) - rp.seq :=
    ReplayProtection.delta_of_near ⟨by omega, by omega⟩
  have hpos : rp.delta seq > 0 := by
    rw [hdelta]
    omega
  constructor
  · rw [ReplayProtection.check, if_pos hpos]
  · rw [ReplayProtection.add, if_pos hpos]

section

variable {infos : List RtpInfo} {link : RtcpLink} {info : RtpInfo}

/-- A packet with an index of 31 bits comes back, and both sides have that
    index. -/
theorem unprotect_protect (sndOwner rcvOwner : Nat) (hkeys : rcv.incomingSrtp = snd.outgoingSrtp)
    (htag : snd.outgoingSrtp.rtcpTagLen ≠ 0) (hlen : octetsInRtcpHeader ≤ info.packet.length)
    (h : Counted infos link) (hcount : callsFor info.ssrc infos + 1 < 2 ^ 31) :
    let done := roundTrip snd rcv sndOwner rcvOwner link info
    done.sent.status = .ok ∧
      (∃ got, done.received = some got ∧ got.status = .ok ∧ got.packet = info.packet) ∧
      (halfAt .rtcp done.link.receiver info.ssrc).seq = callsFor info.ssrc infos + 1 := by
  have hsender := h.sender info.ssrc
  have hreceiver := h.receiver info.ssrc (by omega)
  have hsmall : (halfAt .rtcp link.sender info.ssrc).seq ≤ 0x7fffffff := by omega
  have hnext : ((halfAt .rtcp link.sender info.ssrc).seq + 1) % 2 ^ 32 =
      callsFor info.ssrc infos + 1 := by
    omega
  obtain ⟨_, hsent, _⟩ := @srtpProtectRtcp_eq snd sndOwner link.sender info hlen
  obtain ⟨hstatus, hpacket⟩ := hsent hsmall
  rw [hnext, ← hkeys] at hpacket
  rw [← hkeys] at htag
  have habove : (halfAt .rtcp link.receiver info.ssrc).seq < callsFor info.ssrc infos + 1 := by
    omega
  obtain ⟨hgood, htop⟩ := check_above habove hcount
  obtain ⟨received, hreceived⟩ : ∃ received : RtpInfo, received =
    { info with packet := (srtpProtectRtcp snd sndOwner link.sender info).2.packet } := ⟨_, rfl⟩
  have hssrc : received.ssrc = info.ssrc := by rw [hreceived]
  rw [show (srtpProtectRtcp snd sndOwner link.sender info).2.packet = received.packet by
    rw [hreceived]] at hpacket
  have hgood' : (halfAt .rtcp link.receiver received.ssrc).check (callsFor info.ssrc infos + 1) =
      .ok := by
    rw [hssrc]
    exact hgood
  obtain ⟨hnodes, hok, hback⟩ :=
    srtpUnprotectRtcp_sealed rcvOwner hlen htag hcount hpacket hgood'
  simp only [roundTrip, if_pos hstatus, ← hreceived]
  refine ⟨hstatus, ⟨_, rfl, hok, hback⟩, ?_⟩
  rw [hnodes, hssrc, halfAt_setHalf, if_pos ⟨rfl, rfl⟩, htop]

/-- The step: both sides count on. -/
theorem counted_exchange (hkeys : rcv.incomingSrtp = snd.outgoingSrtp)
    (htag : snd.outgoingSrtp.rtcpTagLen ≠ 0) (hlen : octetsInRtcpHeader ≤ info.packet.length)
    (h : Counted infos link) :
    Counted (infos ++ [info]) (roundTrip snd rcv sndOwner rcvOwner link info).link := by
  obtain ⟨hnodes, _, _⟩ := @srtpProtectRtcp_eq snd sndOwner link.sender info hlen
  have hsender : (roundTrip snd rcv sndOwner rcvOwner link info).link.sender =
      (srtpProtectRtcp snd sndOwner link.sender info).1 := by
    rw [roundTrip]
    by_cases hstatus : (srtpProtectRtcp snd sndOwner link.sender info).2.status = .ok
    · simp only [if_pos hstatus]
    · simp only [if_neg hstatus]
  refine ⟨?_, ?_⟩
  · intro ssrc
    have hold := h.sender ssrc
    rw [hsender, hnodes, halfAt_setHalf, callsFor_append]
    by_cases hssrc : info.ssrc = ssrc
    · rw [if_pos ⟨hssrc, rfl⟩, if_pos hssrc, hssrc]
      simp only [ReplayProtection.increment]
      omega
    · rw [if_neg fun hboth => hssrc hboth.1, if_neg hssrc]
      exact hold
  · intro ssrc
    rw [callsFor_append]
    by_cases hssrc : info.ssrc = ssrc
    · rw [if_pos hssrc, ← hssrc]
      intro hcount
      exact (unprotect_protect sndOwner rcvOwner hkeys htag hlen h hcount).2.2
    · rw [if_neg hssrc]
      intro hcount
      have hother : halfAt .rtcp (roundTrip snd rcv sndOwner rcvOwner link info).link.receiver ssrc =
          halfAt .rtcp link.receiver ssrc := by
        rw [roundTrip]
        by_cases hstatus : (srtpProtectRtcp snd sndOwner link.sender info).2.status = .ok
        · simp only [if_pos hstatus]
          apply halfAt_unprotectRtcp
          exact hssrc
        · simp only [if_neg hstatus]
      rw [hother]
      exact h.receiver ssrc hcount

end

/-- The run: the counters after any calls. -/
theorem counted_exchanges (sndOwner rcvOwner : Nat) (hkeys : rcv.incomingSrtp = snd.outgoingSrtp)
    (htag : snd.outgoingSrtp.rtcpTagLen ≠ 0) (infos : List RtpInfo)
    (hlens : ∀ info ∈ infos, octetsInRtcpHeader ≤ info.packet.length) :
    Counted infos (roundTrips snd rcv sndOwner rcvOwner infos) := by
  have hall : ∀ (done : List RtpInfo) (link : RtcpLink), Counted done link →
      Counted (done ++ infos)
        (infos.foldl (fun link info => (roundTrip snd rcv sndOwner rcvOwner link info).link) link) := by
    induction infos with
    | nil =>
        intro done link h
        rw [List.append_nil]
        exact h
    | cons info infos ih =>
        intro done link h
        obtain ⟨hlen, hrest⟩ := List.forall_mem_cons.mp hlens
        have hnext := ih hrest (done ++ [info])
          (roundTrip snd rcv sndOwner rcvOwner link info).link
          (counted_exchange hkeys htag hlen h)
        rwa [List.append_assoc, List.singleton_append] at hnext
  exact hall [] ⟨[], []⟩ ⟨fun _ => rfl, fun _ _ => rfl⟩

/-- After any calls with packets that have a header, one more does what it
    should exactly if its index takes 31 bits, or the counter is in its upper
    half. -/
theorem rtcp_exchange_iff (snd rcv : SrtpCtx) (sndOwner rcvOwner : Nat)
    (hkeys : rcv.incomingSrtp = snd.outgoingSrtp)
    (htag : snd.outgoingSrtp.rtcpTagLen = 4 ∨ snd.outgoingSrtp.rtcpTagLen = 10)
    (infos : List RtpInfo) (info : RtpInfo)
    (hlens : ∀ info' ∈ infos ++ [info], octetsInRtcpHeader ≤ info'.packet.length) :
    Meets (callsFor info.ssrc infos) info (roundTrip snd rcv sndOwner rcvOwner
        (roundTrips snd rcv sndOwner rcvOwner infos) info) ↔
      callsFor info.ssrc infos + 1 < 2 ^ 31 ∨ 2 ^ 31 ≤ callsFor info.ssrc infos % 2 ^ 32 := by
  have htag' : snd.outgoingSrtp.rtcpTagLen ≠ 0 := by omega
  have hlen := hlens info (List.mem_append_right infos (List.mem_singleton_self info))
  have h := counted_exchanges sndOwner rcvOwner hkeys htag' infos
    fun info' hinfo' => hlens info' (List.mem_append_left [info] hinfo')
  have hsender := h.sender info.ssrc
  obtain ⟨_, hsent, hexpired⟩ := @srtpProtectRtcp_eq snd sndOwner
    (roundTrips snd rcv sndOwner rcvOwner infos).sender info hlen
  have hstatus : (roundTrip snd rcv sndOwner rcvOwner
      (roundTrips snd rcv sndOwner rcvOwner infos) info).sent.status =
        (srtpProtectRtcp snd sndOwner
          (roundTrips snd rcv sndOwner rcvOwner infos).sender info).2.status := by
    rw [roundTrip]
    split
    · rfl
    · rfl
  constructor
  · intro hmeets
    -- A counter in its lower half sends a packet, and then there must be an index for it.
    by_cases hlow : (halfAt .rtcp (roundTrips snd rcv sndOwner rcvOwner infos).sender info.ssrc).seq ≤
        0x7fffffff
    · refine Or.inl (Nat.lt_of_not_le ?_)
      intro hused
      exact hmeets.2 hused (hstatus.trans (hsent hlow).1)
    · refine Or.inr ?_
      omega
  · intro hcount
    rcases hcount with hcount | hcount
    · obtain ⟨_, hback, _⟩ := unprotect_protect sndOwner rcvOwner hkeys htag' hlen h hcount
      refine ⟨fun _ => hback, ?_⟩
      intro hused
      exact absurd hcount (Nat.not_lt.mpr hused)
    · -- The upper half of the counter returns errors.
      have hfail := hstatus.trans (hexpired (by omega))
      refine ⟨?_, ?_⟩
      · intro hok
        rw [hfail] at hok
        exact absurd hok (by simp only [reduceCtorEq, not_false_eq_true])
      · intro _ hok
        rw [hfail] at hok
        exact absurd hok (by simp only [reduceCtorEq, not_false_eq_true])

/-- Two packets that come back, and the keys for them. -/
def plainStream : SrtpStreamCtx where
  rtpCipher := fun _ _ => 0
  rtpAuth := fun _ => [0, 0, 0, 0]
  rtpTagLen := 4
  rtcpCipher := fun iv i => iv.getD (i % 16) 0
  rtcpAuth := fun m => [m.getD 0 0, m.getD 4 0, m.getD 8 0, m.getD 12 0]
  rtcpTagLen := 4
  length_rtpAuth := fun _ => rfl
  length_rtcpAuth := fun _ => rfl

/-- A receiver report without blocks. -/
def emptyReport : RtpInfo := ⟨.none, [0x80, 201, 0, 1, 1, 2, 3, 4], 0, 1⟩

/-- The second report does what it should. -/
theorem rtcp_exchange_second :
    Meets 1 emptyReport (roundTrip ⟨plainStream, plainStream⟩ ⟨plainStream, plainStream⟩ 0 0
      (roundTrips ⟨plainStream, plainStream⟩ ⟨plainStream, plainStream⟩ 0 0 [emptyReport])
      emptyReport) ↔ callsFor 1 [emptyReport] + 1 < 2 ^ 31 ∨ 2 ^ 31 ≤ callsFor 1 [emptyReport] % 2 ^ 32 :=
  rtcp_exchange_iff ⟨plainStream, plainStream⟩ ⟨plainStream, plainStream⟩ 0 0 rfl (Or.inl rfl)
    [emptyReport] emptyReport (by decide)

/-- After 2^31 - 1 reports one more is returned with ok, and refused by its
    receiver. -/
theorem rtcp_exchange_last :
    let calls := List.replicate (2 ^ 31 - 1) emptyReport
    let keys : SrtpCtx := ⟨plainStream, plainStream⟩
    let done := roundTrip keys keys 0 0 (roundTrips keys keys 0 0 calls) emptyReport
    callsFor 1 calls = 2 ^ 31 - 1 ∧ done.sent.status = .ok ∧
      done.received.map Outcome.status = some .rpFail ∧
      ¬ Meets (callsFor 1 calls) emptyReport done := by
  intro calls keys done
  have hcalls : callsFor 1 calls = 2 ^ 31 - 1 := by
    rw [callsFor, List.countP_replicate]
    rfl
  have hlens : ∀ info ∈ calls, octetsInRtcpHeader ≤ info.packet.length := by
    intro info hinfo
    rw [List.eq_of_mem_replicate hinfo]
    decide
  have hcounted : Counted calls (roundTrips keys keys 0 0 calls) :=
    counted_exchanges 0 0 rfl (by decide) calls hlens
  obtain ⟨link, hlink⟩ : ∃ link, link = roundTrips keys keys 0 0 calls := ⟨_, rfl⟩
  rw [← hlink] at hcounted
  have hsender := hcounted.sender 1
  have hreceiver := hcounted.receiver 1 (by omega)
  rw [hcalls] at hsender hreceiver
  obtain ⟨_, hsent, _⟩ := @srtpProtectRtcp_eq keys 0 link.sender emptyReport (by decide)
  obtain ⟨hstatus, hpacket⟩ := hsent (by rw [show emptyReport.ssrc = 1 from rfl]; omega)
  have hnext : ((halfAt .rtcp link.sender emptyReport.ssrc).seq + 1) % 2 ^ 32 = 2 ^ 31 := by
    rw [show emptyReport.ssrc = 1 from rfl]
    omega
  rw [hnext] at hpacket
  -- Zero is far below what the receiver has seen.
  have hbad : (halfAt .rtcp link.receiver 1).check 0 ≠ .ok := by
    have hnear : (halfAt .rtcp link.receiver 1).Near 0 := ⟨by omega, by omega⟩
    rw [ReplayProtection.check, ReplayProtection.delta_of_near hnear, hreceiver,
      if_neg (by omega), if_pos (by simp only [windowWidth]; omega)]
    simp only [ne_eq, reduceCtorEq, not_false_eq_true]
  have hrefused : (srtpUnprotectRtcp keys 0 link.receiver
      { emptyReport with
        packet := (srtpProtectRtcp keys 0 link.sender emptyReport).2.packet }).2.status = .rpFail :=
    srtpUnprotectRtcp_masked 0 (by decide) hpacket hbad
  have hok : done.sent.status = .ok := by
    simp only [done, roundTrip, ← hlink, if_pos hstatus]
    exact hstatus
  have hreceived : done.received.map Outcome.status = some .rpFail := by
    simp only [done, roundTrip, ← hlink, if_pos hstatus, Option.map_some]
    exact congrArg some hrefused
  refine ⟨hcalls, hok, hreceived, ?_⟩
  intro hmeets
  obtain ⟨got, hgot, hgotok, _⟩ := hmeets.1 hok
  rw [hgot, Option.map_some, hgotok, Option.some.injEq] at hreceived
  exact absurd hreceived (by simp only [reduceCtorEq, not_false_eq_true])

end Runs

end Zrtp

end CryptoOpal

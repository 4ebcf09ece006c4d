import CryptoOpal.Lib.Transducer
import CryptoOpal.Zrtp.Receive

/-!
# A Forged Media Packet

`_zrtp_packet_preparse` runs before the tag of a packet is checked, and it
raises the stream's highest index to the one it estimates. A packet with a
wrong tag is rejected afterwards, but the index stays. From then on the
sequence numbers of genuine packets are extended from a highest index that
nobody has sent.

Some indices do no harm. One that is not above the highest changes nothing.
Up to the middle of the first range every estimate has rollover counter 0. And
the two indices in the middle of a range give the same estimates. Past these
exceptions there is always a sequence number that is now taken for another
index, and a genuine packet that shows it.

The forged packet also gets its SSRC a replay node, which is like having none
and belongs to the stream.

## Main definitions

* `SameEstimates`: Two highest indices give the same estimates.
* `Harmless`: The index of a forged packet leaves the estimates as they are.
* `ForgedMedia`: Media whose tag is wrong for the index it is given.
* `Genuine`: A packet with the tag of an index that it can have.
* `receiveCall`, `outcomesOf`: A stream receives packets.
* `Undisturbed`: Two states of the stream that cannot be told apart.
* `Unnoticed`: Genuine packets meet the same fate with the forged packet and
  without it.

## Theorems

* `exists_estimateIndex_ne`: Other highest indices can be told apart.
* `undisturbed_call`: What a received packet preserves.
* `forged_unnoticed`: A forged packet goes unnoticed when its index is
  harmless, and only then.
-/

namespace CryptoOpal

namespace Zrtp

namespace Engine

open Lib (Octets slice bigEndian ofBigEndian run Along stepAt)

/-- The estimates from two highest indices are the same for every sequence
    number. -/
def SameEstimates (high high' : Nat) : Prop :=
  high = high' ∨ (high ≤ 32768 ∧ high' ≤ 32768) ∨
    (high % 2 ^ 16 = 32767 ∧ high' = high + 1) ∨ (high' % 2 ^ 16 = 32767 ∧ high = high' + 1)

/-- Up to the middle of the first range the rollover counter is 0. -/
theorem estimateIndex_early {seq high : Nat} (hseq : seq < 2 ^ 16) (hhigh : high ≤ 32768) :
    estimateIndex seq high = seq := by
  by_cases hhalf : high % 2 ^ 16 < 32768
  · rw [estimateIndex_lower hseq hhalf]
    split
    · omega
    · omega
  · rw [estimateIndex_upper hseq (by omega), if_neg (by omega)]
    omega

/-- On both sides of the middle of a range nothing is taken for another
    range. -/
theorem estimateIndex_middle {seq high : Nat} (hseq : seq < 2 ^ 16)
    (hhigh : high % 2 ^ 16 = 32767) : estimateIndex seq high = estimateIndex seq (high + 1) := by
  rw [estimateIndex_lower hseq (by omega), estimateIndex_upper hseq (by omega), if_neg (by omega),
    if_neg (by omega)]
  omega

theorem SameEstimates.estimateIndex_eq {high high' : Nat} (h : SameEstimates high high') {seq : Nat}
    (hseq : seq < 2 ^ 16) : estimateIndex seq high = estimateIndex seq high' := by
  rcases h with rfl | ⟨h, h'⟩ | ⟨h, rfl⟩ | ⟨h, rfl⟩
  · rfl
  · rw [estimateIndex_early hseq h, estimateIndex_early hseq h']
  · exact estimateIndex_middle hseq h
  · exact (estimateIndex_middle hseq h).symm

/-- The highest index after an estimate. -/
def nextHigh (high seq : Nat) : Nat := if high = 0 ∨ seq > high then seq else high

theorem SameEstimates.next {high high' : Nat} (h : SameEstimates high high') (seq : Nat) :
    SameEstimates (nextHigh high seq) (nextHigh high' seq) := by
  simp only [SameEstimates, nextHigh] at h ⊢
  split
  · split
    · exact Or.inl rfl
    · omega
  · split
    · omega
    · exact h

/-- The highest index that can be estimated from this one. -/
def reach (high : Nat) : Nat := high + if high % 2 ^ 16 < 32768 then 32768 else 32767

theorem estimateIndex_le_reach {seq high : Nat} (hseq : seq < 2 ^ 16) (hlate : 32768 ≤ high) :
    estimateIndex seq high ≤ reach high := by
  rw [reach]
  by_cases hhalf : high % 2 ^ 16 < 32768
  · rw [estimateIndex_lower hseq hhalf, if_pos hhalf]
    split
    · omega
    · omega
  · rw [estimateIndex_upper hseq (by omega), if_neg hhalf]
    split
    · omega
    · omega

theorem estimateIndex_reach {high : Nat} (hlate : 32768 < high) (hhigh : high + 2 ^ 16 < 2 ^ 32) :
    estimateIndex (reach high % 2 ^ 16) high = reach high := by
  have hseq : reach high % 2 ^ 16 < 2 ^ 16 := Nat.mod_lt _ (by omega)
  by_cases hhalf : high % 2 ^ 16 < 32768
  · have hreach : reach high = high + 32768 := by rw [reach, if_pos hhalf]
    rw [estimateIndex_lower hseq hhalf, hreach, if_neg (by omega)]
    omega
  · have hreach : reach high = high + 32767 := by rw [reach, if_neg hhalf]
    rw [estimateIndex_upper hseq (by omega), hreach]
    split
    · omega
    · omega

/-- Two highest indices that are not alike are told apart by a sequence
    number. -/
theorem exists_estimateIndex_ne {high high' : Nat} (hlt : high < high') (hlate : 32768 < high')
    (hmiddle : ¬ (high % 2 ^ 16 = 32767 ∧ high' = high + 1)) (hhigh : high' + 2 ^ 16 < 2 ^ 32) :
    ∃ seq < 2 ^ 16, estimateIndex seq high ≠ estimateIndex seq high' := by
  have hseq : reach high' % 2 ^ 16 < 2 ^ 16 := Nat.mod_lt _ (by omega)
  refine ⟨reach high' % 2 ^ 16, hseq, Nat.ne_of_lt ?_⟩
  rw [estimateIndex_reach hlate hhigh]
  by_cases hearly : high ≤ 32768
  · rw [estimateIndex_early hseq hearly, reach]
    split
    · omega
    · omega
  · have hle := estimateIndex_le_reach hseq (show 32768 ≤ high by omega)
    have hreach : reach high < reach high' := by
      simp only [reach]
      split
      · split
        · omega
        · omega
      · split
        · omega
        · omega
    omega

/-- The packet functions read the four highest indices through their estimates
    only. -/
structure SameMedia (m m' : MediaContext) : Prop where
  same : m' = { m with highInMediaSeq := m'.highInMediaSeq }
  alike : SameEstimates m.highInMediaSeq m'.highInMediaSeq

/-- The index of a media packet, and the highest index after it. -/
theorem convertSeq_media (m : MediaContext) (packet : Octets) :
    convertSeq m packet true true =
      let seq := estimateIndex (ofBigEndian (slice packet 2 2)) m.highInMediaSeq
      (seq, { m with highInMediaSeq := nextHigh m.highInMediaSeq seq }) := by
  simp only [convertSeq, MediaContext.high, MediaContext.setHigh, if_true, nextHigh]
  split
  · rfl
  · rfl

/-- A packet is given one index, and leaves the highest indices alike. -/
theorem SameMedia.convertSeq {m m' : MediaContext} (h : SameMedia m m') (packet : Octets)
    (isMedia : Bool) :
    (convertSeq m packet isMedia true).1 = (convertSeq m' packet isMedia true).1 ∧
      SameMedia (convertSeq m packet isMedia true).2 (convertSeq m' packet isMedia true).2 := by
  cases isMedia with
  | true =>
      have hseq := h.alike.estimateIndex_eq (headerSeq_lt packet)
      rw [convertSeq_media, convertSeq_media]
      simp only [← hseq]
      refine ⟨trivial, ?_, h.alike.next _⟩
      rw [h.same]
  | false =>
      rw [h.same]
      refine ⟨rfl, ?_⟩
      simp only [Engine.convertSeq, MediaContext.high, MediaContext.setHigh, if_true,
        Bool.false_eq_true, if_false]
      split
      · exact ⟨rfl, h.alike⟩
      · exact ⟨rfl, h.alike⟩

/-- What a call leaves, when it is asked to leave these highest indices. -/
def Processed.withMedia (done : Processed) (m : MediaContext) : Processed :=
  { done with stream := { done.stream with mediaCtx := m } }

section Calls

variable {z : Global} {id : Nat} {c : Control} {m m' : MediaContext}

/-- A parsed packet leaves the highest indices alone. -/
theorem processParsed_withMedia (rp : ReplayCtx) (info : RtpInfo) :
    processParsed z id rp ⟨c, m'⟩ info = (processParsed z id rp ⟨c, m⟩ info).withMedia m' := by
  simp only [processParsed]
  split
  · rfl
  split
  · rfl
  split
  · rfl
  split
  · rfl
  · rfl

theorem mediaCtx_processParsed (rp : ReplayCtx) (stream : Stream) (info : RtpInfo) :
    (processParsed z id rp stream info).stream.mediaCtx = stream.mediaCtx := by
  simp only [processParsed]
  split
  · rfl
  split
  · rfl
  split
  · rfl
  split
  · rfl
  · rfl

/-- A packet is parsed in the same way. -/
theorem preparse_sameMedia (sha256 : Hash) (h : SameMedia m m') (packet : Octets) :
    let pre := preparse sha256 ⟨c, m⟩ packet true
    ∃ m'', SameMedia pre.stream.mediaCtx m'' ∧
      preparse sha256 ⟨c, m'⟩ packet true = { pre with stream := ⟨pre.stream.control, m''⟩ } := by
  rcases h.convertSeq packet (getType packet == .none) with ⟨hseq, hnext⟩
  simp only [preparse, ← hseq]
  split
  · exact ⟨m', h, rfl⟩
  split
  · exact ⟨_, hnext, rfl⟩
  · exact ⟨_, hnext, rfl⟩

/-- `zrtp_process_srtp` does not tell highest indices apart that give the same
    estimates. -/
theorem processSrtp_sameMedia (h : SameMedia m m') (rp : ReplayCtx) (packet : Octets) :
    let done := processSrtp z id rp ⟨c, m⟩ packet
    ∃ m'', SameMedia done.stream.mediaCtx m'' ∧
      processSrtp z id rp ⟨c, m'⟩ packet = done.withMedia m'' := by
  rcases preparse_sameMedia (c := c) z.sha256 h packet with ⟨m'', hmedia, hpre⟩
  simp only [processSrtp, hpre]
  generalize preparse z.sha256 ⟨c, m⟩ packet true = pre at hmedia ⊢
  split
  · exact ⟨m', h, rfl⟩
  split
  · exact ⟨m'', hmedia, rfl⟩
  · refine ⟨m'', ?_, processParsed_withMedia _ _⟩
    rw [mediaCtx_processParsed]
    exact hmedia

/-- Neither does `zrtp_process_srtcp`, which reads none. -/
theorem processSrtcp_sameMedia (h : SameMedia m m') (rp : ReplayCtx) (packet : Octets) :
    let done := processSrtcp id rp ⟨c, m⟩ packet
    ∃ m'', SameMedia done.stream.mediaCtx m'' ∧
      processSrtcp id rp ⟨c, m'⟩ packet = done.withMedia m'' := by
  simp only [processSrtcp]
  split
  · exact ⟨m', h, rfl⟩
  · exact ⟨m', h, rfl⟩
  · exact ⟨m', h, rfl⟩
  · exact ⟨m', h, rfl⟩
  · split
    · exact ⟨m', h, rfl⟩
    · exact ⟨m', h, rfl⟩
  · split
    · exact ⟨m', h, rfl⟩
    · exact ⟨m', h, rfl⟩
  · exact ⟨m', h, rfl⟩

theorem receive_sameMedia (h : SameMedia m m') (rp : ReplayCtx) (call : Received) :
    let done := receive z id rp ⟨c, m⟩ call
    ∃ m'', SameMedia done.stream.mediaCtx m'' ∧
      receive z id rp ⟨c, m'⟩ call = done.withMedia m'' := by
  cases call with
  | srtp packet => exact processSrtp_sameMedia h rp packet
  | srtcp packet => exact processSrtcp_sameMedia h rp packet

end Calls

/-- Two lists of nodes in which the stream's packets find the same. A node of
    the stream's own may be missing in the second. -/
structure SameNodes (id : Nat) (nodes nodes' : List ReplayNode) : Prop where
  distinct : Distinct nodes
  distinct' : Distinct nodes'
  halves : ∀ half key, halfAt half nodes key = halfAt half nodes' key
  owners : ∀ key, ownerAt nodes key = ownerAt nodes' key ∨
    ownerAt nodes key = some id ∧ ownerAt nodes' key = none

/-- Two states of the stream that cannot be told apart. -/
structure Undisturbed (id : Nat) (σ τ : ReplayCtx × Stream) : Prop where
  nodes : SameNodes id σ.1.incHead τ.1.incHead
  control : σ.2.control = τ.2.control
  media : SameMedia σ.2.mediaCtx τ.2.mediaCtx

section Nodes

variable {id : Nat} {rp rp' : ReplayCtx} {nodes nodes' : List ReplayNode}

/-- A node of the stream's own goes when the stream goes. -/
theorem SameNodes.afterHandler (h : SameNodes id rp.incHead rp'.incHead) (destroyed : Bool) :
    SameNodes id (afterHandler id destroyed rp).incHead (afterHandler id destroyed rp').incHead := by
  cases destroyed with
  | false => exact h
  | true =>
      simp only [Engine.afterHandler, if_true, srtpDestroy]
      refine ⟨distinct_removeNodesOf h.distinct, distinct_removeNodesOf h.distinct', ?_, ?_⟩
      · intro half key
        rw [halfAt_removeNodesOf h.distinct, halfAt_removeNodesOf h.distinct']
        rcases h.owners key with hsame | ⟨hmine, hnone⟩
        · rw [hsame, h.halves half key]
        · -- Where there is no node, a packet finds a clear one.
          rw [if_pos hmine, hnone, if_neg (by simp only [reduceCtorEq, not_false_eq_true])]
          rw [ownerAt, Option.map_eq_none_iff] at hnone
          exact (halfAt_of_none hnone).symm
      · intro key
        rw [ownerAt_removeNodesOf h.distinct, ownerAt_removeNodesOf h.distinct']
        rcases h.owners key with hsame | ⟨hmine, hnone⟩
        · rw [hsame]
          exact Or.inl rfl
        · rw [if_pos hmine, hnone, ite_self]
          exact Or.inl rfl

/-- A node that is looked up is there afterwards. -/
theorem SameNodes.looked {half : Half} {key : Nat} {moved : ReplayProtection}
    {later later' : List ReplayNode} (h : SameNodes id nodes nodes')
    (hlooked : Looked id half key moved nodes later)
    (hlooked' : Looked id half key moved nodes' later') : SameNodes id later later' := by
  refine ⟨hlooked.distinct h.distinct, hlooked'.distinct h.distinct', ?_, ?_⟩
  · intro half' k
    rw [hlooked.halves, hlooked'.halves, h.halves]
  · intro k
    rw [hlooked.owners, hlooked'.owners]
    by_cases hk : key = k
    · rw [if_pos hk, if_pos hk]
      rcases h.owners k with hsame | ⟨hmine, hnone⟩
      · rw [hsame]
        exact Or.inl rfl
      · rw [hmine, hnone]
        exact Or.inl rfl
    · rw [if_neg hk, if_neg hk]
      exact h.owners k

end Nodes

/-- A stream receives a packet. -/
def receiveCall (z : Global) (id : Nat) (σ : ReplayCtx × Stream) (call : Received) :
    (ReplayCtx × Stream) × Outcome :=
  let done := receive z id σ.1 σ.2 call
  ((done.rp, done.stream), done.outcome)

/-- What is done with the packets. -/
def outcomesOf (z : Global) (id : Nat) (σ : ReplayCtx × Stream) (calls : List Received) :
    List Outcome :=
  (run (receiveCall z id) σ calls).map Lib.Step.output

section Runs

variable {z : Global} {id : Nat} {σ τ : ReplayCtx × Stream}

/-- A received packet meets the same fate in both states, and leaves them so. -/
theorem undisturbed_call (h : Undisturbed id σ τ) (call : Received) :
    Undisturbed id (receiveCall z id σ call).1 (receiveCall z id τ call).1 ∧
      (receiveCall z id σ call).2 = (receiveCall z id τ call).2 := by
  rcases σ with ⟨rp, c, m⟩
  rcases τ with ⟨rp', c', m'⟩
  have hcontrol : c = c' := h.control
  subst hcontrol
  have hnodes : SameNodes id rp.incHead rp'.incHead := h.nodes
  -- Both states with the highest indices of the first, then those of the second.
  have hmedia : SameMedia m m' := h.media
  have hother : ∃ m'', SameMedia (receive z id rp' ⟨c, m⟩ call).stream.mediaCtx m'' ∧
      receive z id rp' ⟨c, m'⟩ call = (receive z id rp' ⟨c, m⟩ call).withMedia m'' :=
    receive_sameMedia hmedia rp' call
  simp only [receiveCall]
  cases hlook : lookup ⟨c, m⟩ call with
  | none =>
    have hquiet : Quiet id fun rp => receive z id rp ⟨c, m⟩ call := receive_quiet hlook
    rcases hquiet with ⟨destroyed, stream', outcome, hcall⟩
    simp only at hcall
    rw [hcall rp'] at hother
    rcases hother with ⟨m'', hnext, hsame⟩
    rw [hcall rp, hsame]
    exact ⟨⟨hnodes.afterHandler destroyed, rfl, hnext⟩, rfl⟩
  | some found =>
    rcases found with ⟨half, key⟩
    have hlooks : LooksUp id half key fun rp => receive z id rp ⟨c, m⟩ call := receive_lookup hlook
    rcases hlooks with ⟨unprotect, stream', hcall, halike⟩
    simp only at hcall
    rw [hcall rp'] at hother
    rcases hother with ⟨m'', hnext, hsame⟩
    rcases halike rp.incHead rp'.incHead (hnodes.halves half key) with
      ⟨houtcome, moved, hlooked, hlooked'⟩
    rw [hcall rp, hsame]
    exact ⟨⟨hnodes.looked hlooked hlooked', rfl, hnext⟩, houtcome⟩

/-- All packets meet the same fate in both states. -/
theorem outcomesOf_undisturbed (h : Undisturbed id σ τ) (calls : List Received) :
    outcomesOf z id σ calls = outcomesOf z id τ calls := by
  have hstep : ∀ s t call, Undisturbed id s t → True →
      Undisturbed id (receiveCall z id s call).1 (receiveCall z id t call).1 ∧
        (stepAt (receiveCall z id) s call).output = (stepAt (receiveCall z id) t call).output :=
    fun s t call hst _ => undisturbed_call hst call
  have hrun := Lib.run_related (Undisturbed id) (fun call => call)
    (fun x y => x.output = y.output) hstep σ τ calls h fun _ _ => trivial
  rw [List.map_id'] at hrun
  rw [outcomesOf, outcomesOf]
  rw [← List.forall₂_eq_eq_eq, List.forall₂_map_left_iff, List.forall₂_map_right_iff]
  exact hrun

end Runs

/-- Media whose tag is wrong for the index it is given. -/
def ForgedMedia (stream : Stream) (packet : Octets) : Prop :=
  rtpHdrSize < packet.length ∧ getType packet = .none ∧
    ∃ ctx, stream.control.srtp = some ctx ∧ 0 < ctx.incomingSrtp.rtpTagLen ∧
      rtpTagMatches ctx.incomingSrtp packet (mediaInfo stream packet true).seq = false

/-- A packet that is no media, or has the tag of an index that it can have. -/
def Genuine (stream : Stream) : Received → Prop
  | .srtcp _ => True
  | .srtp packet => getType packet = .none → ∃ ctx index, stream.control.srtp = some ctx ∧
      index < 2 ^ 32 ∧ index % 2 ^ 16 = ofBigEndian (slice packet 2 2) ∧
      rtpTagMatches ctx.incomingSrtp packet index = true

/-- The index of a forged packet leaves the estimates as they are: it is not
    above the highest, or both are in the first half of the first range, or
    they are the two in the middle of a range. -/
def Harmless (high seq : Nat) : Prop :=
  seq ≤ high ∨ seq ≤ 32768 ∨ (high % 2 ^ 16 = 32767 ∧ seq = high + 1)

instance (high seq : Nat) : Decidable (Harmless high seq) := inferInstanceAs (Decidable (_ ∨ _))

/-- Whatever genuine packets come later, they meet the same fate with this
    packet before them and without it. -/
def Unnoticed (z : Global) (id : Nat) (σ : ReplayCtx × Stream) (packet : Octets) : Prop :=
  ∀ later : List Received, (∀ call ∈ later, Genuine σ.2 call) →
    outcomesOf z id (receiveCall z id σ (.srtp packet)).1 later = outcomesOf z id σ later

theorem harmless_iff {high seq : Nat} :
    Harmless high seq ↔ SameEstimates (nextHigh high seq) high := by
  simp only [Harmless, SameEstimates, nextHigh]
  split
  · omega
  · omega

section Forged

variable {z : Global} {id : Nat} {rp : ReplayCtx} {stream : Stream} {packet : Octets}

/-- A wrong tag leaves the windows alone. -/
theorem srtpUnprotect_forged {ctx : SrtpCtx} {nodes : List ReplayNode} {info : RtpInfo}
    (hlen : 0 < ctx.incomingSrtp.rtpTagLen)
    (htag : rtpTagMatches ctx.incomingSrtp info.packet info.seq = false) :
    (srtpUnprotect ctx id nodes info).1 = (addNode id info.ssrc nodes).2 := by
  simp only [srtpUnprotect]
  split
  · rfl
  split
  · rfl
  · rw [if_pos ⟨hlen, htag⟩]

/-- A forged packet is noted in the highest index, and may get its SSRC a
    node. -/
theorem receiveCall_forged (hstate : isProtecting stream.control.state = true)
    (hforged : ForgedMedia stream packet) :
    ∃ key, (receiveCall z id (rp, stream) (.srtp packet)).1 =
      ({ rp with incHead := (addNode id key rp.incHead).2 }, noteMedia stream packet true) := by
  rcases hforged with ⟨hlen, htype, ctx, hctx, htagLen, htag⟩
  refine ⟨(mediaInfo stream packet true).ssrc, ?_⟩
  simp only [receiveCall, receive, processSrtp_media z id rp stream hstate hlen htype,
    protocolDecrypt, hctx, if_true]
  rw [srtpUnprotect_forged htagLen htag]

/-- Making a node of the stream's own is not noticed. -/
theorem sameNodes_addNode {nodes : List ReplayNode} {key : Nat} (h : Distinct nodes) :
    SameNodes id (addNode id key nodes).2 nodes := by
  refine ⟨distinct_addNode h, h, fun half k => halfAt_addNode half k, ?_⟩
  intro k
  rw [ownerAt_addNode]
  by_cases hk : key = k
  · rw [if_pos hk]
    cases ownerAt nodes k with
    | none => exact Or.inr ⟨rfl, rfl⟩
    | some owner => exact Or.inl rfl
  · rw [if_neg hk]
    exact Or.inl rfl

/-- A harmless index leaves a state that cannot be told apart. -/
theorem undisturbed_forged (hdistinct : Distinct rp.incHead)
    (hstate : isProtecting stream.control.state = true) (hforged : ForgedMedia stream packet)
    (hharmless : Harmless stream.mediaCtx.highInMediaSeq (mediaInfo stream packet true).seq) :
    Undisturbed id (receiveCall z id (rp, stream) (.srtp packet)).1 (rp, stream) := by
  have hafter : ∃ key, (receiveCall z id (rp, stream) (.srtp packet)).1 =
      ({ rp with incHead := (addNode id key rp.incHead).2 }, noteMedia stream packet true) :=
    receiveCall_forged hstate hforged
  rcases hafter with ⟨key, hafter⟩
  rw [hafter]
  refine ⟨sameNodes_addNode hdistinct, rfl, ?_⟩
  simp only [noteMedia, mediaInfo, rtpInfo, convertSeq_media] at hharmless ⊢
  exact ⟨rfl, harmless_iff.mp hharmless⟩

/-- A packet with this SSRC, this sequence number and the tag of this index. -/
def tellingPacket (keys : SrtpStreamCtx) (ssrc : Octets) (seq index : Nat) : Octets :=
  let header := [0x80, 0] ++ bigEndian 2 seq ++ [0, 0, 0, 0] ++ ssrc
  header ++ keys.rtpAuth (header ++ rolloverOctets index)

section Telling

variable {keys : SrtpStreamCtx} {ssrc : Octets} {seq index : Nat}

theorem length_tellingPacket (hssrc : ssrc.length = 4) :
    (tellingPacket keys ssrc seq index).length = 12 + keys.rtpTagLen := by
  simp only [tellingPacket, List.length_append, keys.length_rtpAuth, Lib.length_bigEndian, hssrc,
    List.length_cons, List.length_nil]

/-- The word behind the sequence number is 0, which is not the magic. -/
theorem tellingPacket_media : getType (tellingPacket keys ssrc seq index) = .none := by
  have hword : slice (tellingPacket keys ssrc seq index) 4 4 = [0, 0, 0, 0] := by
    have hmiddle := Lib.slice_middle ([0x80, 0] ++ bigEndian 2 seq) [0, 0, 0, 0]
      (ssrc ++ keys.rtpAuth (([0x80, 0] ++ bigEndian 2 seq ++ [0, 0, 0, 0] ++ ssrc) ++
        rolloverOctets index))
    rw [List.length_append, Lib.length_bigEndian] at hmiddle
    simp only [tellingPacket, List.append_assoc] at hmiddle ⊢
    exact hmiddle
  have hmagic : ofBigEndian [0, 0, 0, 0] ≠ zrtpPacketsMagic := by decide
  rw [getType, hword, if_pos hmagic]

theorem tellingPacket_seq (hseq : seq < 2 ^ 16) :
    ofBigEndian (slice (tellingPacket keys ssrc seq index) 2 2) = seq := by
  have hword : slice (tellingPacket keys ssrc seq index) 2 2 = bigEndian 2 seq := by
    have hmiddle := Lib.slice_middle [0x80, 0] (bigEndian 2 seq) ([0, 0, 0, 0] ++ ssrc ++
      keys.rtpAuth (([0x80, 0] ++ bigEndian 2 seq ++ [0, 0, 0, 0] ++ ssrc) ++ rolloverOctets index))
    rw [Lib.length_bigEndian] at hmiddle
    simp only [tellingPacket, List.append_assoc] at hmiddle ⊢
    exact hmiddle
  rw [hword, Lib.ofBigEndian_bigEndian]
  exact Nat.mod_eq_of_lt hseq

theorem tellingPacket_ssrc (hssrc : ssrc.length = 4) :
    rtpSsrc (tellingPacket keys ssrc seq index) = ssrc := by
  have hmiddle := Lib.slice_middle ([0x80, 0] ++ bigEndian 2 seq ++ [0, 0, 0, 0]) ssrc
    (keys.rtpAuth (([0x80, 0] ++ bigEndian 2 seq ++ [0, 0, 0, 0] ++ ssrc) ++ rolloverOctets index))
  rw [List.length_append, List.length_append, Lib.length_bigEndian, hssrc] at hmiddle
  exact hmiddle

theorem tellingPacket_tag (hssrc : ssrc.length = 4) :
    rtpTagMatches keys (tellingPacket keys ssrc seq index) index = true := by
  have hheader : ([0x80, 0] ++ bigEndian 2 seq ++ [0, 0, 0, 0] ++ ssrc).length = 12 := by
    simp only [List.length_append, Lib.length_bigEndian, hssrc, List.length_cons, List.length_nil]
  simp only [rtpTagMatches, length_tellingPacket hssrc, Nat.add_sub_cancel]
  simp only [tellingPacket]
  rw [List.take_left' hheader, List.drop_left' hheader]
  exact beq_self_eq_true _

end Telling

/-- A clear window takes every index in the lower half of the numbers. -/
theorem check_init {seq : Nat} (hseq : seq < 2 ^ 31) : ReplayProtection.init.check seq = .ok := by
  have hnear : ReplayProtection.init.Near seq := by
    simp only [ReplayProtection.Near, ReplayProtection.init]
    omega
  rw [ReplayProtection.check, ReplayProtection.delta_of_near hnear]
  split
  · rfl
  split
  · simp only [ReplayProtection.init, windowWidth] at *
    omega
  · rw [ReplayProtection.getLsbD_init, if_neg Bool.false_ne_true]

/-- What the cipher is set to tells the index that a packet was given. -/
theorem srtpUnprotect_iv {ctx : SrtpCtx} {nodes : List ReplayNode} {info : RtpInfo}
    (h : (srtpUnprotect ctx id nodes info).2.status = .ok) :
    (srtpUnprotect ctx id nodes info).2.iv = some (packetIv (rtpSsrc info.packet) info.seq) := by
  simp only [srtpUnprotect] at h ⊢
  split at h
  · exact absurd h (by simp only [Outcome.untouched, reduceCtorEq, not_false_eq_true])
  rename_i hshort
  rw [if_neg hshort]
  split at h
  · exact absurd h (by simp only [Outcome.untouched, reduceCtorEq, not_false_eq_true])
  rename_i hcheck
  rw [if_neg hcheck]
  split at h
  · exact absurd h (by simp only [Outcome.untouched, reduceCtorEq, not_false_eq_true])
  rename_i htag
  rw [if_neg htag]

/-- A packet with a right tag and an index that its window takes is accepted. -/
theorem srtpUnprotect_ok {ctx : SrtpCtx} {nodes : List ReplayNode} {info : RtpInfo}
    (hlen : octetsInRtpHeader ≤ info.packet.length)
    (hcheck : (halfAt .rtp nodes info.ssrc).check info.seq = .ok)
    (htag : rtpTagMatches ctx.incomingSrtp info.packet info.seq = true) :
    (srtpUnprotect ctx id nodes info).2.status = .ok := by
  have hfound : (addNode id info.ssrc nodes).1.rtpRp = halfAt .rtp nodes info.ssrc :=
    half_addNode .rtp
  have hright : ¬ (ctx.incomingSrtp.rtpTagLen > 0 ∧
      rtpTagMatches ctx.incomingSrtp info.packet info.seq = false) := by
    rw [htag]
    exact fun h => absurd h.2 (by simp only [Bool.true_eq_false, not_false_eq_true])
  simp only [srtpUnprotect, hfound]
  rw [if_neg (by omega), if_neg (not_not_intro hcheck), if_neg hright]

/-- The index of a media packet is an estimate from the highest. -/
theorem mediaInfo_seq (stream : Stream) (packet : Octets) :
    (mediaInfo stream packet true).seq =
      estimateIndex (ofBigEndian (slice packet 2 2)) stream.mediaCtx.highInMediaSeq := by
  rw [mediaInfo, rtpInfo, convertSeq_media]

/-- From the lower half of the numbers an estimate does not leave it. -/
theorem estimateIndex_lt_half {seq high : Nat} (hseq : seq < 2 ^ 16) (hhigh : high + 2 ^ 15 < 2 ^ 31) :
    estimateIndex seq high < 2 ^ 31 := by
  by_cases hearly : high ≤ 32768
  · rw [estimateIndex_early hseq hearly]
    omega
  · have hle := estimateIndex_le_reach hseq (show 32768 ≤ high by omega)
    rw [reach] at hle
    split at hle
    · omega
    · omega

/-- Media that a stream receives while it protects is unprotected. -/
theorem receiveCall_media {ctx : SrtpCtx} (hstate : isProtecting stream.control.state = true)
    (hctx : stream.control.srtp = some ctx) (hlen : rtpHdrSize < packet.length)
    (htype : getType packet = .none) :
    (receiveCall z id (rp, stream) (.srtp packet)).2 =
      (srtpUnprotect ctx id rp.incHead (mediaInfo stream packet true)).2 := by
  simp only [receiveCall, receive, processSrtp_media z id rp stream hstate hlen htype,
    protocolDecrypt, hctx, if_true]

/-- A genuine packet of an SSRC that has no node is accepted under the index
    that its tag is for, and under another index it is not, or it is decrypted
    otherwise. -/
theorem tellingPacket_tells {ctx : SrtpCtx} {nodes nodes' : List ReplayNode} {ssrc : Octets}
    {stream' : Stream} {seq : Nat} (hssrc : ssrc.length = 4) (hseq : seq < 2 ^ 16)
    (hfresh : getNode nodes (ofBigEndian ssrc.reverse) = none)
    (hsmall : estimateIndex seq stream.mediaCtx.highInMediaSeq < 2 ^ 31)
    (hne : estimateIndex seq stream.mediaCtx.highInMediaSeq ≠
      estimateIndex seq stream'.mediaCtx.highInMediaSeq) :
    let p := tellingPacket ctx.incomingSrtp ssrc seq
      (estimateIndex seq stream.mediaCtx.highInMediaSeq)
    (srtpUnprotect ctx id nodes' (mediaInfo stream' p true)).2 ≠
      (srtpUnprotect ctx id nodes (mediaInfo stream p true)).2 := by
  intro p hsame
  have hindex : ∀ s : Stream, (mediaInfo s p true).seq = estimateIndex seq s.mediaCtx.highInMediaSeq := by
    intro s
    rw [mediaInfo_seq, tellingPacket_seq hseq]
  have hpacket : (mediaInfo stream p true).packet = p := rfl
  have hkey : (mediaInfo stream p true).ssrc = ofBigEndian ssrc.reverse := by
    rw [← tellingPacket_ssrc hssrc]
    rfl
  have hok : (srtpUnprotect ctx id nodes (mediaInfo stream p true)).2.status = .ok := by
    apply srtpUnprotect_ok
    · rw [hpacket, length_tellingPacket hssrc]
      exact Nat.le_add_right _ _
    · rw [hkey, halfAt_of_none hfresh, hindex]
      exact check_init hsmall
    · rw [hpacket, hindex]
      exact tellingPacket_tag hssrc
  have hok' : (srtpUnprotect ctx id nodes' (mediaInfo stream' p true)).2.status = .ok := by
    rw [hsame]
    exact hok
  have hiv := srtpUnprotect_iv hok'
  rw [hsame, srtpUnprotect_iv hok, Option.some.injEq] at hiv
  have hequal := (packetIv_inj rfl (mediaInfo_seq_lt stream p true) (mediaInfo_seq_lt stream' p true)
    hiv).2
  rw [hindex, hindex] at hequal
  exact hne hequal

/-- Any other index is noticed by a genuine packet of an SSRC that has no node
    yet. -/
theorem noticed_of_harmful {ssrc : Octets} (hstate : isProtecting stream.control.state = true)
    (hforged : ForgedMedia stream packet) (hssrc : ssrc.length = 4)
    (hfresh : getNode rp.incHead (ofBigEndian ssrc.reverse) = none)
    (hhigh : stream.mediaCtx.highInMediaSeq + 2 ^ 15 < 2 ^ 31)
    (hharmful : ¬ Harmless stream.mediaCtx.highInMediaSeq (mediaInfo stream packet true).seq) :
    ¬ Unnoticed z id (rp, stream) packet := by
  have hafter : ∃ key, (receiveCall z id (rp, stream) (.srtp packet)).1 =
      ({ rp with incHead := (addNode id key rp.incHead).2 }, noteMedia stream packet true) :=
    receiveCall_forged hstate hforged
  rcases hafter with ⟨key, hafter⟩
  rcases hforged with ⟨_, _, ctx, hctx, htagLen, _⟩
  -- The highest index is now that of the forged packet.
  have hnext : (noteMedia stream packet true).mediaCtx.highInMediaSeq =
      (mediaInfo stream packet true).seq := by
    rw [mediaInfo_seq] at hharmful ⊢
    simp only [noteMedia, convertSeq_media, nextHigh]
    simp only [Harmless] at hharmful
    rw [if_pos (by omega)]
  have hbelow : (mediaInfo stream packet true).seq < 2 ^ 31 := by
    rw [mediaInfo_seq]
    exact estimateIndex_lt_half (headerSeq_lt packet) hhigh
  simp only [Harmless, not_or, not_le] at hharmful
  rcases hharmful with ⟨habove, hlate, hmiddle⟩
  rcases exists_estimateIndex_ne habove hlate hmiddle (by omega) with ⟨seq, hseq, hne⟩
  rw [← hnext] at hne
  have hsmall := estimateIndex_lt_half hseq hhigh
  have hlen : rtpHdrSize < (tellingPacket ctx.incomingSrtp ssrc seq
      (estimateIndex seq stream.mediaCtx.highInMediaSeq)).length := by
    rw [length_tellingPacket hssrc, rtpHdrSize]
    omega
  have hgenuine : ∀ call ∈ [Received.srtp (tellingPacket ctx.incomingSrtp ssrc seq
      (estimateIndex seq stream.mediaCtx.highInMediaSeq))], Genuine stream call := by
    intro call hcall
    rw [List.mem_singleton.mp hcall]
    intro _
    refine ⟨ctx, _, hctx, estimateIndex_lt hseq _, ?_, tellingPacket_tag hssrc⟩
    rw [tellingPacket_seq hseq]
    rcases estimateIndex_eq hseq stream.mediaCtx.highInMediaSeq with ⟨v, hv⟩
    omega
  have hfate : ∀ (rp' : ReplayCtx) (stream' : Stream) (p : Octets),
      isProtecting stream'.control.state = true → stream'.control.srtp = some ctx →
      rtpHdrSize < p.length → getType p = .none →
      outcomesOf z id (rp', stream') [.srtp p] =
        [(srtpUnprotect ctx id rp'.incHead (mediaInfo stream' p true)).2] := by
    intro rp' stream' p hstate' hctx' hlen' htype'
    rw [← receiveCall_media (z := z) hstate' hctx' hlen' htype']
    rfl
  intro hunnoticed
  have hlater := hunnoticed _ hgenuine
  rw [hafter, hfate _ (noteMedia stream packet true) _ hstate hctx hlen tellingPacket_media,
    hfate _ stream _ hstate hctx hlen tellingPacket_media, List.singleton_inj] at hlater
  exact tellingPacket_tells hssrc hseq hfresh hsmall hne hlater

end Forged

/-- A forged media packet goes unnoticed if its index is harmless. As long as
    some SSRC has no node yet and the indices are in the lower half of the
    numbers, it does so only then. -/
theorem forged_unnoticed (z : Global) (id : Nat) (rp : ReplayCtx) (stream : Stream)
    (packet : Octets) (hdistinct : Distinct rp.incHead) (hsecure : stream.control.state = .secure)
    (hforged : ForgedMedia stream packet) :
    (Harmless stream.mediaCtx.highInMediaSeq (mediaInfo stream packet true).seq →
      Unnoticed z id (rp, stream) packet) ∧
    ((∃ ssrc : Octets, ssrc.length = 4 ∧ getNode rp.incHead (ofBigEndian ssrc.reverse) = none) →
      stream.mediaCtx.highInMediaSeq + 2 ^ 15 < 2 ^ 31 → Unnoticed z id (rp, stream) packet →
      Harmless stream.mediaCtx.highInMediaSeq (mediaInfo stream packet true).seq) := by
  have hstate : isProtecting stream.control.state = true := by
    rw [hsecure]
    rfl
  constructor
  · intro hharmless later _
    exact outcomesOf_undisturbed (undisturbed_forged hdistinct hstate hforged hharmless) later
  · rintro ⟨ssrc, hssrc, hfresh⟩ hhigh hunnoticed
    by_contra hharmful
    exact noticed_of_harmful hstate hforged hssrc hfresh hhigh hharmful hunnoticed

/-- Media of this SSRC with a tag of zeros. -/
def sampleForged (ssrc : UInt8) (seq : Nat) : Octets :=
  sampleMedia ssrc seq [1, 2, 3] ++ List.replicate 10 0

/-- A stream that has received packet 100. -/
def sampleReceived : ReplayCtx × Stream :=
  (receiveCall sampleGlobal 0 (.init, sampleSecure false) (.srtp (sampleSealed 7 100))).1

/-- A forged packet in the first half of the first range goes unnoticed. -/
theorem forged_unnoticed_early :
    Unnoticed sampleGlobal 0 sampleReceived (sampleForged 7 30000) :=
  (forged_unnoticed sampleGlobal 0 sampleReceived.1 sampleReceived.2 (sampleForged 7 30000)
    (by decide +kernel) (by decide +kernel)
    ⟨by decide +kernel, by decide +kernel, ⟨sampleSrtpStream, sampleSrtpStream⟩, rfl,
      by decide +kernel, by decide +kernel⟩).1 (by decide +kernel)

/-- Past it, the packet makes the stream take packet 99, which is late, for
    one of the next range. -/
theorem forged_noticed :
    ForgedMedia sampleReceived.2 (sampleForged 7 32868) ∧
      ¬ Unnoticed sampleGlobal 0 sampleReceived (sampleForged 7 32868) := by
  refine ⟨⟨by decide +kernel, by decide +kernel, ⟨sampleSrtpStream, sampleSrtpStream⟩, rfl,
    by decide +kernel, by decide +kernel⟩, ?_⟩
  intro hunnoticed
  have hlate := hunnoticed [.srtp (sampleSealed 7 99)] ?_
  · exact absurd hlate (by decide +kernel)
  · intro call hcall
    rw [List.mem_singleton.mp hcall]
    intro _
    exact ⟨⟨sampleSrtpStream, sampleSrtpStream⟩, 99, rfl, by decide +kernel, by decide +kernel,
      by decide +kernel⟩

end Engine

end Zrtp

end CryptoOpal

import CryptoOpal.Zrtp.Engine

/-!
# What a Received Packet Does to the Nodes

A packet that a stream receives does one of two things to the nodes. A
protected packet looks one node up by its SSRC, which makes the node if it is
not there, and may move one half of it. Everything else leaves the nodes as
they are, or takes away those of the stream when its handler destroys the
context.

What the stream does with the packet depends on the nodes only through the
half that is looked up. This is what the comparison of two runs needs.

## Main definitions

* `Received`: A call of `zrtp_process_srtp` or `zrtp_process_srtcp`.
* `lookup`: The half and the key of the node that a packet looks up.
* `Looked`: What looking a node up and moving its half does to a list.

## Theorems

* `srtpUnprotect_alike`, `srtpUnprotectRtcp_alike`: Two lists with one half in
  the place.
* `receive_quiet`: A packet that looks up no node.
* `receive_lookup`: A packet that does.
-/

namespace CryptoOpal

namespace Zrtp

open Lib (Octets ofBigEndian)

/-- Looking a node up, for one of its halves, and leaving this in the half. -/
structure Looked (id : Nat) (half : Half) (key : Nat) (moved : ReplayProtection)
    (nodes nodes' : List ReplayNode) : Prop where
  halves : ∀ half' k,
    halfAt half' nodes' k = if key = k ∧ half = half' then moved else halfAt half' nodes k
  owners : ∀ k,
    ownerAt nodes' k = if key = k then some ((ownerAt nodes k).getD id) else ownerAt nodes k
  distinct : Distinct nodes → Distinct nodes'

section Nodes

variable {id key : Nat} {half : Half} {nodes nodes' : List ReplayNode}

/-- The node that is found or allocated keeps its owner. -/
theorem srtpCtx_addNode :
    (addNode id key nodes).1.srtpCtx = (ownerAt nodes key).getD id := by
  rw [addNode_fst, ownerAt]
  cases getNode nodes key with
  | none => rfl
  | some found => rfl

/-- Asking for a node may give it an owner. -/
theorem ownerAt_addNode (k : Nat) :
    ownerAt (addNode id key nodes).2 k =
      if key = k then some ((ownerAt nodes k).getD id) else ownerAt nodes k := by
  rw [ownerAt, getNode_addNode]
  by_cases hk : key = k
  · rw [if_pos hk, if_pos hk, Option.map_some, srtpCtx_addNode, hk]
  · rw [if_neg hk, if_neg hk, ownerAt]

theorem srtpCtx_setHalf (node : ReplayNode) (rp : ReplayProtection) (half : Half) :
    (node.setHalf rp half).srtpCtx = node.srtpCtx := by
  cases half with
  | rtp => rfl
  | rtcp => rfl

/-- Asking for a node moves no half. -/
theorem looked_addNode : Looked id half key (halfAt half nodes key) nodes (addNode id key nodes).2 where
  halves half' k := by
    rw [halfAt_addNode]
    by_cases hsame : key = k ∧ half = half'
    · rw [if_pos hsame, hsame.1, hsame.2]
    · rw [if_neg hsame]
  owners := ownerAt_addNode
  distinct := distinct_addNode

/-- Two lists with one half in the place keep it. -/
theorem looked_addNode_alike (id : Nat) (h : halfAt half nodes key = halfAt half nodes' key) :
    ∃ moved, Looked id half key moved nodes (addNode id key nodes).2 ∧
      Looked id half key moved nodes' (addNode id key nodes').2 := by
  refine ⟨halfAt half nodes key, looked_addNode, ?_⟩
  rw [h]
  exact looked_addNode

/-- Writing the half back moves it. -/
theorem looked_setHalf (moved : ReplayProtection) :
    Looked id half key moved nodes
      (updateNode ((addNode id key nodes).1.setHalf moved half) (addNode id key nodes).2) where
  halves half' k := halfAt_setHalf half half' moved k
  owners k := by
    have hssrc : ((addNode id key nodes).1.setHalf moved half).ssrc = key := by
      rw [setHalf_ssrc, addNode_ssrc]
    rw [ownerAt, getNode_updateNode_addNode k hssrc]
    by_cases hk : key = k
    · rw [if_pos hk, if_pos hk, Option.map_some, srtpCtx_setHalf, srtpCtx_addNode, hk]
    · rw [if_neg hk, if_neg hk, ownerAt]
  distinct hdistinct := distinct_updateNode (distinct_addNode hdistinct)

/-- When a context goes, so do the nodes it owns. -/
theorem ownerAt_removeNodesOf (hdistinct : Distinct nodes) (k : Nat) :
    ownerAt (removeNodesOf id nodes) k =
      if ownerAt nodes k = some id then none else ownerAt nodes k := by
  rw [ownerAt, getNode_removeNodesOf hdistinct, ownerAt]
  cases getNode nodes k with
  | none => rw [Option.filter_none, Option.map_none, ite_self]
  | some found =>
      simp only [Option.filter_some, Option.map_some, Option.some.injEq]
      by_cases howner : found.srtpCtx = id
      · have hgone : ¬ (found.srtpCtx != id) = true := by
          rw [bne_iff_ne]
          exact not_not_intro howner
        rw [if_pos howner, if_neg hgone, Option.map_none]
      · rw [if_neg howner, if_pos (bne_iff_ne.mpr howner), Option.map_some]

/-- A context that is gone has no nodes left to lose. -/
theorem removeNodesOf_idem : removeNodesOf id (removeNodesOf id nodes) = removeNodesOf id nodes := by
  rw [removeNodesOf, removeNodesOf, List.filter_filter]
  simp only [Bool.and_self]

variable (ctx : SrtpCtx) (info : RtpInfo)

/-- What `zrtp_srtp_unprotect` does depends on the nodes through one half. -/
theorem srtpUnprotect_alike (h : halfAt .rtp nodes info.ssrc = halfAt .rtp nodes' info.ssrc) :
    let done := srtpUnprotect ctx id nodes info
    let done' := srtpUnprotect ctx id nodes' info
    done.2 = done'.2 ∧ ∃ moved, Looked id .rtp info.ssrc moved nodes done.1 ∧
      Looked id .rtp info.ssrc moved nodes' done'.1 := by
  have hfound : (addNode id info.ssrc nodes).1.rtpRp = halfAt .rtp nodes info.ssrc :=
    half_addNode .rtp
  have hfound' : (addNode id info.ssrc nodes').1.rtpRp = halfAt .rtp nodes info.ssrc := by
    rw [h]
    exact half_addNode .rtp
  have hrefused := looked_addNode_alike id h
  simp only [srtpUnprotect, hfound, hfound']
  by_cases hshort : info.packet.length < octetsInRtpHeader
  · simp only [if_pos hshort]
    exact ⟨trivial, hrefused⟩
  simp only [if_neg hshort]
  by_cases hcheck : (halfAt .rtp nodes info.ssrc).check info.seq ≠ .ok
  · simp only [if_pos hcheck]
    exact ⟨trivial, hrefused⟩
  simp only [if_neg hcheck]
  by_cases htag : ctx.incomingSrtp.rtpTagLen > 0 ∧
      rtpTagMatches ctx.incomingSrtp info.packet info.seq = false
  · simp only [if_pos htag]
    exact ⟨trivial, hrefused⟩
  simp only [if_neg htag]
  exact ⟨trivial, _, looked_setHalf _, looked_setHalf _⟩

/-- And so does `zrtp_srtp_unprotect_rtcp`. -/
theorem srtpUnprotectRtcp_alike (h : halfAt .rtcp nodes info.ssrc = halfAt .rtcp nodes' info.ssrc) :
    let done := srtpUnprotectRtcp ctx id nodes info
    let done' := srtpUnprotectRtcp ctx id nodes' info
    done.2 = done'.2 ∧ ∃ moved, Looked id .rtcp info.ssrc moved nodes done.1 ∧
      Looked id .rtcp info.ssrc moved nodes' done'.1 := by
  have hfound : (addNode id info.ssrc nodes).1.rtcpRp = halfAt .rtcp nodes info.ssrc :=
    half_addNode .rtcp
  have hfound' : (addNode id info.ssrc nodes').1.rtcpRp = halfAt .rtcp nodes info.ssrc := by
    rw [h]
    exact half_addNode .rtcp
  have hrefused := looked_addNode_alike id h
  simp only [srtpUnprotectRtcp, hfound, hfound']
  by_cases hshort : info.packet.length < octetsInRtcpHeader
  · simp only [if_pos hshort]
    exact ⟨trivial, hrefused⟩
  simp only [if_neg hshort]
  -- The trailer and the tag are those of the packet, in both lists.
  generalize info.packet.take (info.packet.length - ctx.incomingSrtp.rtcpTagLen) = covered
  generalize ofBigEndian (covered.drop (covered.length - rtcpTrailerSize)) = trailer
  by_cases hcheck : (halfAt .rtcp nodes info.ssrc).check (trailer % 2 ^ 31) ≠ .ok
  · simp only [if_pos hcheck]
    exact ⟨trivial, hrefused⟩
  simp only [if_neg hcheck]
  by_cases htag : ctx.incomingSrtp.rtcpTagLen = 0 ∨
      ctx.incomingSrtp.rtcpAuth covered ≠ info.packet.drop covered.length
  · simp only [if_pos htag]
    exact ⟨trivial, hrefused⟩
  simp only [if_neg htag]
  by_cases hencrypted : trailer / 2 ^ 31 % 2 = 1
  · simp only [if_pos hencrypted]
    exact ⟨trivial, _, looked_setHalf _, looked_setHalf _⟩
  · simp only [if_neg hencrypted]
    exact ⟨trivial, _, looked_setHalf _, looked_setHalf _⟩

end Nodes

namespace Engine

/-- A call of one of the two functions for packets that come in. -/
inductive Received where
  | srtp (packet : Octets)
  | srtcp (packet : Octets)
  deriving DecidableEq

/-- The function that is called. -/
def receive (z : Global) (id : Nat) (rp : ReplayCtx) (stream : Stream) : Received → Processed
  | .srtp packet => processSrtp z id rp stream packet
  | .srtcp packet => processSrtcp id rp stream packet

/-- The half and the key of the node that a packet looks up, if it gets so
    far: the stream protects and has keys, and the packet is media or RTCP and
    has a header. -/
def lookup (stream : Stream) : Received → Option (Half × Nat)
  | .srtp packet =>
    if (isProtecting stream.control.state ∧ stream.control.srtp.isSome) ∧
        rtpHdrSize < packet.length ∧ getType packet = .none then
      some (.rtp, (mediaInfo stream packet true).ssrc)
    else none
  | .srtcp packet =>
    if (isProtecting stream.control.state ∧ stream.control.srtp.isSome) ∧
        rtcpHdrSize ≤ packet.length then
      some (.rtcp, rtcpNodeKey packet)
    else none

section Calls

variable {z : Global} {id : Nat} {stream : Stream}

/-- The context is destroyed once, whichever handler does it. -/
theorem afterHandler_afterHandler (destroyed destroyed' : Bool) (rp : ReplayCtx) :
    afterHandler id destroyed' (afterHandler id destroyed rp) =
      afterHandler id (destroyed || destroyed') rp := by
  cases destroyed with
  | false => rfl
  | true =>
      cases destroyed' with
      | false => rfl
      | true =>
          simp only [afterHandler, Bool.or_true, if_true, srtpDestroy, removeNodesOf_idem]

/-- A handler takes away the nodes of its own stream. -/
theorem ownerAt_afterHandler {rp : ReplayCtx} {id : Nat} {destroyed : Bool} (h : Distinct rp.incHead)
    (key : Nat) :
    ownerAt (afterHandler id destroyed rp).incHead key =
      if destroyed = true ∧ ownerAt rp.incHead key = some id then none
      else ownerAt rp.incHead key := by
  cases destroyed with
  | false => rfl
  | true =>
      simp only [afterHandler, if_true, srtpDestroy, true_and]
      exact ownerAt_removeNodesOf h key

theorem halfAt_afterHandler {rp : ReplayCtx} {id : Nat} {destroyed : Bool} (h : Distinct rp.incHead)
    (half : Half) (key : Nat) :
    halfAt half (afterHandler id destroyed rp).incHead key =
      if destroyed = true ∧ ownerAt rp.incHead key = some id then .init
      else halfAt half rp.incHead key := by
  cases destroyed with
  | false => rfl
  | true =>
      simp only [afterHandler, if_true, srtpDestroy, true_and]
      exact halfAt_removeNodesOf h half key

theorem distinct_afterHandler {rp : ReplayCtx} {id : Nat} {destroyed : Bool}
    (h : Distinct rp.incHead) : Distinct (afterHandler id destroyed rp).incHead := by
  cases destroyed with
  | false => exact h
  | true => exact distinct_removeNodesOf h

/-- What a call does when it looks up no node: the same to every list. -/
def Quiet (id : Nat) (call : ReplayCtx → Processed) : Prop :=
  ∃ destroyed stream' outcome, ∀ rp, call rp = ⟨afterHandler id destroyed rp, stream', outcome⟩

/-- What a call does when it looks up a node. -/
def LooksUp (id : Nat) (half : Half) (key : Nat) (call : ReplayCtx → Processed) : Prop :=
  ∃ (unprotect : List ReplayNode → List ReplayNode × Outcome) (stream' : Stream),
    (∀ rp, call rp =
      ⟨{ rp with incHead := (unprotect rp.incHead).1 }, stream', (unprotect rp.incHead).2⟩) ∧
    ∀ nodes nodes', halfAt half nodes key = halfAt half nodes' key →
      (unprotect nodes).2 = (unprotect nodes').2 ∧
        ∃ moved, Looked id half key moved nodes (unprotect nodes).1 ∧
          Looked id half key moved nodes' (unprotect nodes').1

/-- A call that returns at once. -/
theorem quiet_rfl (stream' : Stream) (outcome : Outcome) :
    Quiet id fun rp => ⟨rp, stream', outcome⟩ :=
  ⟨false, stream', outcome, fun _ => rfl⟩

/-- A parsed packet that is not for `srtpUnprotect`. -/
theorem quiet_processParsed {info : RtpInfo}
    (h : ¬ (info.type = .none ∧ isProtecting stream.control.state = true)) (destroyed : Bool) :
    Quiet id fun rp => processParsed z id (afterHandler id destroyed rp) stream info := by
  simp only [processParsed]
  by_cases hping : info.type = .zfoneping
  · simp only [if_pos hping]
    exact ⟨destroyed, _, _, fun rp => rfl⟩
  simp only [if_neg hping]
  by_cases hstarted : stream.control.state.number < StreamState.start.number
  · simp only [if_pos hstarted]
    exact ⟨destroyed, _, _, fun rp => rfl⟩
  simp only [if_neg hstarted]
  by_cases hneeds : needsProtocol stream.control.state = true ∧ stream.control.protocol.isNone = true
  · simp only [if_pos hneeds]
    exact ⟨destroyed, _, _, fun rp => rfl⟩
  simp only [if_neg hneeds]
  have hmedia : ¬ (info.type = .none ∧ isProtecting (handleError stream.control info).state = true) := by
    rintro ⟨htype, hstate⟩
    have hother : info.type ≠ .error := by
      rw [htype]
      simp only [ne_eq, reduceCtorEq, not_false_eq_true]
    rw [handleError_of_ne hother] at hstate
    exact h ⟨htype, hstate⟩
  simp only [if_neg hmedia, afterHandler_afterHandler]
  exact ⟨_, _, _, fun rp => rfl⟩

/-- A stream without keys decrypts nothing. -/
theorem quiet_protocolDecrypt {c : Control} (hsrtp : c.srtp = none) (info : RtpInfo) (isRtp : Bool)
    (stream' : Stream) :
    Quiet id fun rp => ⟨(protocolDecrypt id rp c info isRtp).1, stream',
      (protocolDecrypt id rp c info isRtp).2⟩ := by
  simp only [protocolDecrypt, hsrtp]
  exact quiet_rfl _ _

/-- RTCP that a stream receives while it protects goes to `srtpUnprotectRtcp`. -/
theorem processSrtcp_protecting (rp : ReplayCtx) {packet : Octets}
    (hstate : isProtecting stream.control.state = true) :
    processSrtcp id rp stream packet =
      if packet.length < rtcpHdrSize then ⟨rp, stream, .untouched .fail packet⟩
      else
        let done := protocolDecrypt id rp stream.control (rtcpInfo packet) false
        ⟨done.1, stream, done.2⟩ := by
  rw [processSrtcp]
  cases hcases : stream.control.state with
  | secure => rfl
  | sasRelaying => rfl
  | _ =>
      rw [hcases] at hstate
      exact absurd hstate Bool.false_ne_true

/-- A packet is what its type says, parsed or not. -/
theorem preparse_type (sha256 : Hash) (packet : Octets) :
    (preparse sha256 stream packet true).info.type = getType packet := by
  simp only [preparse]
  split
  · rfl
  split
  · rfl
  · rfl

/-- `zrtp_process_srtp` without a look at the nodes. -/
theorem srtp_quiet {packet : Octets} (h : lookup stream (.srtp packet) = none) :
    Quiet id fun rp => processSrtp z id rp stream packet := by
  by_cases hmedia : isProtecting stream.control.state = true ∧ rtpHdrSize < packet.length ∧
      getType packet = .none
  · rcases hmedia with ⟨hstate, hlen, htype⟩
    simp only [processSrtp_media z id _ stream hstate hlen htype]
    cases hsrtp : stream.control.srtp with
    | none => exact quiet_protocolDecrypt hsrtp _ _ _
    | some ctx =>
        simp only [lookup, hstate, hsrtp, Option.isSome_some, hlen, htype, and_self, if_true,
          reduceCtorEq] at h
  · simp only [processSrtp]
    by_cases hlen : packet.length ≤ rtpHdrSize
    · simp only [if_pos hlen]
      exact quiet_rfl _ _
    simp only [if_neg hlen]
    by_cases hparsed : (preparse z.sha256 stream packet true).status ≠ .ok
    · simp only [if_pos hparsed]
      exact ⟨_, _, _, fun rp => rfl⟩
    simp only [if_neg hparsed]
    apply quiet_processParsed
    rintro ⟨htype, hstate⟩
    rw [preparse_type] at htype
    rw [preparse_media z.sha256 stream true (by omega) htype] at hstate
    exact hmedia ⟨hstate, by omega, htype⟩

/-- `zrtp_process_srtcp` without a look at the nodes. -/
theorem srtcp_quiet {packet : Octets} (h : lookup stream (.srtcp packet) = none) :
    Quiet id fun rp => processSrtcp id rp stream packet := by
  by_cases hstate : isProtecting stream.control.state = true
  · simp only [processSrtcp_protecting _ hstate]
    by_cases hshort : packet.length < rtcpHdrSize
    · simp only [if_pos hshort]
      exact quiet_rfl _ _
    simp only [if_neg hshort]
    cases hsrtp : stream.control.srtp with
    | none => exact quiet_protocolDecrypt hsrtp _ _ _
    | some ctx =>
        have hlen : rtcpHdrSize ≤ packet.length := by omega
        simp only [lookup, hstate, hsrtp, Option.isSome_some, hlen, and_self, if_true,
          reduceCtorEq] at h
  · simp only [processSrtcp]
    cases hcases : stream.control.state with
    | secure => exact absurd (by rw [hcases]; rfl) hstate
    | sasRelaying => exact absurd (by rw [hcases]; rfl) hstate
    | _ => exact quiet_rfl _ _

/-- A received packet that looks up no node. -/
theorem receive_quiet {call : Received} (h : lookup stream call = none) :
    Quiet id fun rp => receive z id rp stream call := by
  cases call with
  | srtp packet => exact srtp_quiet h
  | srtcp packet => exact srtcp_quiet h

/-- A received packet that looks up a node. -/
theorem receive_lookup {call : Received} {half : Half} {key : Nat}
    (h : lookup stream call = some (half, key)) :
    LooksUp id half key fun rp => receive z id rp stream call := by
  cases call with
  | srtp packet =>
    simp only [lookup] at h
    split at h
    · rename_i hready
      rcases hready with ⟨⟨hstate, hsrtp⟩, hlen, htype⟩
      rcases Option.isSome_iff_exists.mp hsrtp with ⟨ctx, hctx⟩
      rw [Option.some.injEq, Prod.mk.injEq] at h
      rw [← h.1, ← h.2]
      refine ⟨fun nodes => srtpUnprotect ctx id nodes (mediaInfo stream packet true),
        noteMedia stream packet true, ?_, fun nodes nodes' => srtpUnprotect_alike ctx _⟩
      intro rp
      simp only [receive, processSrtp_media z id rp stream hstate hlen htype, protocolDecrypt, hctx,
        if_true]
    · exact absurd h (by simp only [reduceCtorEq, not_false_eq_true])
  | srtcp packet =>
    simp only [lookup] at h
    split at h
    · rename_i hready
      rcases hready with ⟨⟨hstate, hsrtp⟩, hlen⟩
      rcases Option.isSome_iff_exists.mp hsrtp with ⟨ctx, hctx⟩
      rw [Option.some.injEq, Prod.mk.injEq] at h
      rw [← h.1, ← h.2]
      refine ⟨fun nodes => srtpUnprotectRtcp ctx id nodes (rtcpInfo packet), stream,
        ?_, fun nodes nodes' => srtpUnprotectRtcp_alike ctx (rtcpInfo packet)⟩
      intro rp
      simp only [receive, processSrtcp_protecting rp hstate, if_neg (Nat.not_lt.mpr hlen),
        protocolDecrypt, hctx, Bool.false_eq_true, if_false]
    · exact absurd h (by simp only [reduceCtorEq, not_false_eq_true])

end Calls

end Engine

end Zrtp

end CryptoOpal

import CryptoOpal.Lib.Transducer
import CryptoOpal.Zrtp.Engine
import Mathlib.Logic.Function.Basic

/-!
# The IVs of libzrtp's SRTP Sender

Two packets encrypted under one key and one IV have one keystream, and their
exclusive or is that of the plaintexts. The IV is the SSRC and the index. What
keeps the index of RTP from coming back is the window of the packet's node,
and what keeps that of RTCP from coming back is the counter in the node. So
IVs stay different as long as the nodes last and the numbers in them do not
wrap.

Neither is certain. The nodes are found by SSRC, and for RTCP by the first
octet of it, in a list that all streams share. The node that a stream sends
through may be one that another stream made, and goes with that stream. The
next packet then gets a new node. The window compares indices by their signed
distance in 32 bits, and the RTCP counter goes on counting after the key has
expired.

The state has a record, kept by no code, of which stream has sent through the
node of which SSRC value. The condition on a step is stated with it.

## Main definitions

* `Senders`: The streams, the nodes they share, and the record.
* `SenderCall`, `senderStep`: Creation, destruction and the two senders.
* `Use`: A packet that was protected: the key and the IV.
* `Safe`: A step neither takes a node from under another stream nor wraps.

## Theorems

* `inv_senderStep`: What a safe step preserves.
* `keystream_unique`: In a run of safe steps no key sees one IV twice.
-/

namespace CryptoOpal

namespace Zrtp

namespace Engine

open Lib (Octets slice ofBigEndian Remembers Along events stepAt)

/-- A packet that was protected with `ok`: the stream and the half of its
    session keys, and the IV. -/
structure Use where
  id : Nat
  half : Half
  iv : Octets
  deriving DecidableEq

/-- All streams of one SRTP global context. A stream is known by the number of
    its creation, and its keys with it. -/
structure Senders where
  rp : ReplayCtx
  streams : Nat → Option Stream
  next : Nat
  sent : List (Nat × Nat)

/-- `zrtp_srtp_init`. -/
def Senders.init : Senders := ⟨.init, fun _ => none, 0, []⟩

/-- What an application does. A created stream is in any state. -/
inductive SenderCall where
  | create (stream : Stream)
  | destroy (id : Nat)
  | rtp (id : Nat) (packet : Octets)
  | rtcp (id : Nat) (packet : Octets)

/-- The use of a key that a call makes. -/
def useOf (id : Nat) (half : Half) (outcome : Outcome) : Option Use :=
  if outcome.status = .ok then outcome.iv.map fun iv => ⟨id, half, iv⟩ else none

/-- The state after a call of a stream that exists. -/
def Senders.after (σ : Senders) (id : Nat) (half : Half) (key : Nat) (done : Processed) :
    Senders × Option Use :=
  let use := useOf id half done.outcome
  ({ σ with
      rp := done.rp
      streams := Function.update σ.streams id (some done.stream)
      sent := if use.isSome then (id, key) :: σ.sent else σ.sent }, use)

/-- One call. `zrtp_stream_stop` destroys the SRTP context. -/
def senderStep (z : Global) (σ : Senders) : SenderCall → Senders × Option Use
  | .create stream =>
    ({ σ with streams := Function.update σ.streams σ.next (some stream), next := σ.next + 1 }, none)
  | .destroy id =>
    ({ σ with rp := srtpDestroy id σ.rp, streams := Function.update σ.streams id none }, none)
  | .rtp id packet =>
    match σ.streams id with
    | none => (σ, none)
    | some stream =>
      σ.after id .rtp (mediaInfo stream packet false).ssrc (processRtp z id σ.rp stream packet)
  | .rtcp id packet =>
    match σ.streams id with
    | none => (σ, none)
    | some stream =>
      σ.after id .rtcp (rtcpNodeKey packet) (processRtcp id σ.rp stream packet)

/-- A destroyed stream owns no node that another stream has sent through. The
    index of an RTP packet that the window takes is less than half the range
    away from its top. The RTCP counter does not wrap. -/
def Safe (σ : Senders) : SenderCall → Prop
  | .create _ => True
  | .destroy d =>
    ∀ e ∈ σ.sent, e.1 ≠ d → (σ.streams e.1).isSome = true → ownerAt σ.rp.outHead e.2 ≠ some d
  | .rtp id packet =>
    match σ.streams id with
    | none => True
    | some stream =>
      let info := mediaInfo stream packet false
      let found := halfAt .rtp σ.rp.outHead info.ssrc
      isProtecting stream.control.state = true → info.type = .none →
        rtpHdrSize ≤ packet.length → found.check info.seq = .ok → found.Near info.seq
  | .rtcp id packet =>
    match σ.streams id with
    | none => True
    | some stream =>
      isProtecting stream.control.state = true → rtcpHdrSize ≤ packet.length →
        (halfAt .rtcp σ.rp.outHead (rtcpNodeKey packet)).seq + 1 < 2 ^ 32

instance (σ : Senders) : (call : SenderCall) → Decidable (Safe σ call)
  | .create _ => inferInstanceAs (Decidable True)
  | .destroy d => inferInstanceAs (Decidable (∀ e ∈ σ.sent, e.1 ≠ d →
      (σ.streams e.1).isSome = true → ownerAt σ.rp.outHead e.2 ≠ some d))
  | .rtp id packet =>
    match h : σ.streams id with
    | none => isTrue (by simp only [Safe, h])
    | some stream =>
      decidable_of_iff
        (isProtecting stream.control.state = true → (mediaInfo stream packet false).type = .none →
          rtpHdrSize ≤ packet.length →
          (halfAt .rtp σ.rp.outHead (mediaInfo stream packet false).ssrc).check
            (mediaInfo stream packet false).seq = .ok →
          (halfAt .rtp σ.rp.outHead (mediaInfo stream packet false).ssrc).Near
            (mediaInfo stream packet false).seq) (by simp only [Safe, h])
  | .rtcp id packet =>
    match h : σ.streams id with
    | none => isTrue (by simp only [Safe, h])
    | some stream =>
      decidable_of_iff
        (isProtecting stream.control.state = true → rtcpHdrSize ≤ packet.length →
          (halfAt .rtcp σ.rp.outHead (rtcpNodeKey packet)).seq + 1 < 2 ^ 32)
        (by simp only [Safe, h])

/-- The SSRC value of the node, from the SSRC as it stands in the packet. -/
def keyOf (half : Half) (ssrc : Octets) : Nat :=
  match half with
  | .rtp => ofBigEndian ssrc.reverse
  | .rtcp =>
    let first := (ssrc.getD 0 0).toNat
    if first < 128 then first else 2 ^ 32 - 256 + first

/-- The indices that a stream has sent under, for one half and SSRC. -/
def sentUnder (H : List Use) (id : Nat) (half : Half) (ssrc : Octets) : Set Nat :=
  {seq | seq < 2 ^ 32 ∧ ⟨id, half, packetIv ssrc seq⟩ ∈ H}

/-- A half of a node rules these indices out for later packets: the window
    remembers them, or the counter has passed them. -/
def RulesOut (rp : ReplayProtection) (acc : Set Nat) : Half → Prop
  | .rtp => Remembers windowWidth rp.seq rp.window.getLsbD acc
  | .rtcp => ∀ seq ∈ acc, seq ≤ rp.seq

theorem RulesOut.mono {rp : ReplayProtection} {acc acc' : Set Nat} {half : Half}
    (h : RulesOut rp acc half) (hsub : acc' ⊆ acc) : RulesOut rp acc' half := by
  cases half with
  | rtp => exact Remembers.mono h hsub
  | rtcp => exact fun seq hseq => h seq (hsub hseq)

theorem rulesOut_empty (rp : ReplayProtection) (half : Half) : RulesOut rp ∅ half := by
  cases half with
  | rtp => exact Remembers.empty
  | rtcp => exact fun seq hseq => hseq.elim

/-- What the past uses of keys say about the state. -/
structure Inv (H : List Use) (σ : Senders) : Prop where
  distinct : Distinct σ.rp.outHead
  known : ∀ e ∈ H, e.id < σ.next
  named : ∀ id, (σ.streams id).isSome = true → id < σ.next
  noted : ∀ id half ssrc, ssrc.length = 4 → (sentUnder H id half ssrc).Nonempty →
    (id, keyOf half ssrc) ∈ σ.sent
  held : ∀ id half ssrc, ssrc.length = 4 → (σ.streams id).isSome = true →
    RulesOut (halfAt half σ.rp.outHead (keyOf half ssrc)) (sentUnder H id half ssrc) half

theorem inv_init : Inv [] .init := by
  have hnone : ∀ id half ssrc, sentUnder [] id half ssrc = ∅ := by
    intro id half ssrc
    rw [Set.eq_empty_iff_forall_notMem]
    exact fun seq hseq => List.not_mem_nil hseq.2
  refine ⟨List.nodup_nil, fun e he => absurd he List.not_mem_nil,
    fun _ hlive => absurd hlive Bool.false_ne_true, ?_, ?_⟩
  · intro id half ssrc _ hne
    rw [hnone] at hne
    exact absurd hne Set.not_nonempty_empty
  · intro id half ssrc _ _
    rw [hnone]
    exact rulesOut_empty _ half

/-- A new use adds its index for its own stream, half and SSRC only. -/
theorem mem_sentUnder_append {H : List Use} {id id' : Nat} {half half' : Half}
    {ssrc ssrc' : Octets} {seq seq' : Nat} (hlen : ssrc.length = 4) (hlen' : ssrc'.length = 4)
    (hseq : seq < 2 ^ 32)
    (h : seq' ∈ sentUnder (H ++ [⟨id, half, packetIv ssrc seq⟩]) id' half' ssrc') :
    seq' ∈ sentUnder H id' half' ssrc' ∨
      (id' = id ∧ half' = half ∧ ssrc' = ssrc ∧ seq' = seq) := by
  rcases h with ⟨hseq', hmem⟩
  rcases List.mem_append.mp hmem with hold | hnew
  · exact Or.inl ⟨hseq', hold⟩
  · rw [List.mem_singleton, Use.mk.injEq] at hnew
    rcases packetIv_inj (by rw [hlen, hlen']) hseq' hseq hnew.2.2 with ⟨hssrc, hindex⟩
    exact Or.inr ⟨hnew.1, hnew.2.1, hssrc, hindex⟩

section Steps

variable {H : List Use} {σ : Senders} {id : Nat} {ssrc : Octets} {stream : Stream}
  {rp : ReplayCtx} {z : Global}

/-- The node of an RTCP packet goes by the SSRC in its header. -/
theorem rtcpNodeKey_eq (packet : Octets) : rtcpNodeKey packet = keyOf .rtcp (rtcpSsrc packet) := by
  have hfirst : (rtcpSsrc packet).getD 0 0 = packet.getD 4 0 := by
    rw [rtcpSsrc, slice, List.getD_eq_getElem?_getD, List.getD_eq_getElem?_getD,
      List.getElem?_take_of_lt (by decide), List.getElem?_drop]
  rw [rtcpNodeKey, keyOf, hfirst]

/-- The streams after a call of one of them are those that were there. -/
theorem isSome_update (hlive : (σ.streams id).isSome = true) {i : Nat}
    (h : (Function.update σ.streams id (some stream) i).isSome = true) :
    (σ.streams i).isSome = true := by
  by_cases hid : i = id
  · rw [hid]
    exact hlive
  · rwa [Function.update_of_ne hid] at h

/-- A step that uses no key, and after which every node rules out what it did. -/
theorem Inv.quiet (h : Inv H σ) (hlive : (σ.streams id).isSome = true)
    (hdistinct : Distinct rp.outHead)
    (hfind : ∀ half k acc, RulesOut (halfAt half σ.rp.outHead k) acc half →
      RulesOut (halfAt half rp.outHead k) acc half) :
    Inv H { σ with rp := rp, streams := Function.update σ.streams id (some stream) } :=
  ⟨hdistinct, h.known, fun i hi => h.named i (isSome_update hlive hi), h.noted,
    fun i half ssrc hlen hi => hfind half _ _ (h.held i half ssrc hlen (isSome_update hlive hi))⟩

/-- A step that uses a key, and after which the node also rules out the index
    it was used with. -/
theorem Inv.used {half : Half} {seq : Nat} (h : Inv H σ) (hlive : (σ.streams id).isSome = true)
    (hdistinct : Distinct rp.outHead) (hlen : ssrc.length = 4) (hseq : seq < 2 ^ 32)
    (hfind : ∀ half' k acc, RulesOut (halfAt half' σ.rp.outHead k) acc half' →
      RulesOut (halfAt half' rp.outHead k) acc half')
    (hmark : ∀ acc, RulesOut (halfAt half σ.rp.outHead (keyOf half ssrc)) acc half →
      RulesOut (halfAt half rp.outHead (keyOf half ssrc)) (insert seq acc) half) :
    Inv (H ++ [⟨id, half, packetIv ssrc seq⟩]) { σ with
      rp := rp
      streams := Function.update σ.streams id (some stream)
      sent := (id, keyOf half ssrc) :: σ.sent } := by
  refine ⟨hdistinct, ?_, fun i hi => h.named i (isSome_update hlive hi), ?_, ?_⟩
  · intro e he
    rcases List.mem_append.mp he with hold | hnew
    · exact h.known e hold
    · rw [List.mem_singleton.mp hnew]
      exact h.named id hlive
  · rintro i half' ssrc' hlen' ⟨seq', hseq'⟩
    rcases mem_sentUnder_append hlen hlen' hseq hseq' with hold | ⟨rfl, rfl, rfl, _⟩
    · exact List.mem_cons_of_mem _ (h.noted i half' ssrc' hlen' ⟨seq', hold⟩)
    · exact List.mem_cons_self
  · intro i half' ssrc' hlen' hi
    have hbefore := h.held i half' ssrc' hlen' (isSome_update hlive hi)
    by_cases hsame : half' = half ∧ ssrc' = ssrc
    · rcases hsame with ⟨rfl, rfl⟩
      refine (hmark _ hbefore).mono fun seq' hseq' => ?_
      rcases mem_sentUnder_append hlen hlen' hseq hseq' with hold | ⟨_, _, _, hindex⟩
      · exact Set.mem_insert_of_mem _ hold
      · rw [hindex]
        exact Set.mem_insert _ _
    · refine (hfind half' _ _ hbefore).mono fun seq' hseq' => ?_
      rcases mem_sentUnder_append hlen hlen' hseq hseq' with hold | ⟨_, hhalf, hssrc, _⟩
      · exact hold
      · exact absurd ⟨hhalf, hssrc⟩ hsame

/-- A new stream has used no key. -/
theorem Inv.create (h : Inv H σ) : Inv H (senderStep z σ (.create stream)).1 := by
  refine ⟨h.distinct, fun e he => Nat.lt_succ_of_lt (h.known e he), ?_, h.noted, ?_⟩
  · intro i hi
    by_cases hid : i = σ.next
    · rw [hid]
      exact Nat.lt_succ_self _
    · have hold : (σ.streams i).isSome = true := by
        simp only [senderStep] at hi
        rwa [Function.update_of_ne hid] at hi
      exact Nat.lt_succ_of_lt (h.named i hold)
  · intro i half ssrc hlen hi
    by_cases hid : i = σ.next
    · have hnone : sentUnder H i half ssrc = ∅ := by
        rw [Set.eq_empty_iff_forall_notMem]
        intro seq hseq
        exact absurd (h.known _ hseq.2) (by rw [hid]; exact Nat.lt_irrefl _)
      rw [hnone]
      exact rulesOut_empty _ half
    · have hold : (σ.streams i).isSome = true := by
        simp only [senderStep] at hi
        rwa [Function.update_of_ne hid] at hi
      exact h.held i half ssrc hlen hold

/-- The nodes that go with a stream are those no other stream needs. -/
theorem Inv.destroy {d : Nat} (h : Inv H σ) (hsafe : Safe σ (.destroy d)) :
    Inv H (senderStep z σ (.destroy d)).1 := by
  have hstill : ∀ i, ((senderStep z σ (.destroy d)).1.streams i).isSome = true →
      i ≠ d ∧ (σ.streams i).isSome = true := by
    intro i hi
    simp only [senderStep] at hi
    by_cases hid : i = d
    · rw [hid, Function.update_self] at hi
      exact absurd hi Bool.false_ne_true
    · rw [Function.update_of_ne hid] at hi
      exact ⟨hid, hi⟩
  refine ⟨distinct_removeNodesOf h.distinct, h.known, fun i hi => h.named i (hstill i hi).2,
    h.noted, ?_⟩
  intro i half ssrc hlen hi
  rcases hstill i hi with ⟨hid, hlive⟩
  simp only [senderStep, srtpDestroy, halfAt_removeNodesOf h.distinct]
  by_cases howner : ownerAt σ.rp.outHead (keyOf half ssrc) = some d
  · -- The stream would have been recorded if it had sent through this node.
    have hnone : sentUnder H i half ssrc = ∅ := by
      by_contra hne
      have hnoted := h.noted i half ssrc hlen (Set.nonempty_iff_ne_empty.mpr hne)
      exact hsafe _ hnoted hid hlive howner
    rw [hnone]
    exact rulesOut_empty _ half
  · rw [if_neg howner]
    exact h.held i half ssrc hlen hlive

/-- What a step does to the past uses: it adds one whose IV its key has not
    seen, or none. -/
def Kept (H : List Use) (done : Senders × Option Use) : Prop :=
  Inv (H ++ done.2.toList) done.1 ∧
    ∀ e ∈ done.2, ∀ e' ∈ H, e'.id = e.id → e'.half = e.half → e'.iv ≠ e.iv

theorem Inv.kept (h : Inv H σ) : Kept H (σ, none) :=
  ⟨by rwa [Option.toList_none, List.append_nil], fun e he => absurd he (Option.not_mem_none e)⟩

/-- A call that returns without an IV is no use. -/
theorem Inv.after_none {half : Half} {key : Nat} {done : Processed} (h : Inv H σ)
    (hlive : (σ.streams id).isSome = true) (hiv : done.outcome.iv = none)
    (hdistinct : Distinct done.rp.outHead)
    (hfind : ∀ half k acc, RulesOut (halfAt half σ.rp.outHead k) acc half →
      RulesOut (halfAt half done.rp.outHead k) acc half) :
    Kept H (σ.after id half key done) := by
  have huse : useOf id half done.outcome = none := by
    rw [useOf, hiv, Option.map_none, ite_self]
  simp only [Senders.after, huse]
  exact (h.quiet hlive hdistinct hfind).kept

/-- A call that protects is a use of an index the node had not ruled out. -/
theorem Inv.after_some {half : Half} {seq : Nat} {done : Processed} (h : Inv H σ)
    (hlive : (σ.streams id).isSome = true) (hok : done.outcome.status = .ok)
    (hiv : done.outcome.iv = some (packetIv ssrc seq)) (hdistinct : Distinct done.rp.outHead)
    (hlen : ssrc.length = 4) (hseq : seq < 2 ^ 32)
    (hfind : ∀ half' k acc, RulesOut (halfAt half' σ.rp.outHead k) acc half' →
      RulesOut (halfAt half' done.rp.outHead k) acc half')
    (hmark : ∀ acc, RulesOut (halfAt half σ.rp.outHead (keyOf half ssrc)) acc half →
      RulesOut (halfAt half done.rp.outHead (keyOf half ssrc)) (insert seq acc) half)
    (hfresh : ∀ acc, RulesOut (halfAt half σ.rp.outHead (keyOf half ssrc)) acc half →
      seq ∉ acc) :
    Kept H (σ.after id half (keyOf half ssrc) done) := by
  have huse : useOf id half done.outcome = some ⟨id, half, packetIv ssrc seq⟩ := by
    rw [useOf, if_pos hok, hiv, Option.map_some]
  simp only [Senders.after, huse, Option.isSome_some, if_true]
  refine ⟨h.used hlive hdistinct hlen hseq hfind hmark, ?_⟩
  intro e he e' he' hid hhalf hsame
  rw [Option.mem_some_iff] at he
  subst he
  -- The earlier use is of this stream, half and SSRC, under this index.
  have hold : e' = ⟨id, half, packetIv ssrc seq⟩ := by
    cases e'
    rw [Use.mk.injEq]
    exact ⟨hid, hhalf, hsame⟩
  rw [hold] at he'
  exact hfresh _ (h.held id half ssrc hlen hlive) ⟨hseq, he'⟩

/-- Marking one half of one node takes nothing away from the others. -/
theorem rulesOut_setHalf {nodes : List ReplayNode} {half half' : Half} {key k : Nat}
    {moved : ReplayProtection} {acc : Set Nat}
    (hmoved : ∀ acc, RulesOut (halfAt half nodes key) acc half → RulesOut moved acc half)
    (h : RulesOut (halfAt half' nodes k) acc half') :
    RulesOut (halfAt half' (updateNode ((addNode id key nodes).1.setHalf moved half)
      (addNode id key nodes).2) k) acc half' := by
  rw [halfAt_setHalf]
  by_cases hsame : key = k ∧ half = half'
  · rw [if_pos hsame]
    rcases hsame with ⟨rfl, rfl⟩
    exact hmoved acc h
  · rwa [if_neg hsame]

/-- Sending RTP. -/
theorem Inv.rtp {packet : Octets} (h : Inv H σ) (hsafe : Safe σ (.rtp id packet)) :
    Kept H (senderStep z σ (.rtp id packet)) := by
  simp only [senderStep]
  cases hstream : σ.streams id with
  | none => exact h.kept
  | some stream =>
    have hlive : (σ.streams id).isSome = true := by rw [hstream, Option.isSome_some]
    rcases processRtp_cases z id σ.rp stream packet with ⟨hrp, hiv⟩ | ⟨ctx, hstate, htype, hrp, hout⟩
    · refine h.after_none hlive hiv ?_ ?_
      · rw [hrp]
        exact h.distinct
      · intro half k acc hacc
        rwa [hrp]
    · rcases srtpProtect_cases ctx id σ.rp.outHead (mediaInfo stream packet false) with
        ⟨_, hiv, hnodes⟩ | ⟨hok, hlen, hcheck, hiv, hnodes⟩
      · -- The packet is refused, but it may have got its SSRC a node.
        rw [hnodes] at hrp
        rw [← hout] at hiv
        refine h.after_none hlive hiv ?_ ?_
        · rw [hrp]
          exact distinct_addNode h.distinct
        · intro half k acc hacc
          rwa [hrp, halfAt_addNode]
      · rw [hnodes] at hrp
        rw [← hout] at hok hiv
        simp only [Safe, hstream] at hsafe
        have hnear := hsafe hstate htype hlen hcheck
        have hssrc : (rtpSsrc packet).length = 4 := by
          have hpacket : 12 ≤ packet.length := hlen
          rw [rtpSsrc, Lib.length_slice]
          omega
        have hmark : ∀ acc, RulesOut (halfAt .rtp σ.rp.outHead (mediaInfo stream packet false).ssrc)
            acc .rtp → RulesOut ((halfAt .rtp σ.rp.outHead (mediaInfo stream packet false).ssrc).add
              (mediaInfo stream packet false).seq)
            (insert (mediaInfo stream packet false).seq acc) .rtp :=
          fun acc hacc => ReplayProtection.remembers_add hacc hnear
        refine h.after_some hlive hok hiv ?_ hssrc (mediaInfo_seq_lt stream packet false) ?_ ?_ ?_
        · rw [hrp]
          exact distinct_updateNode (distinct_addNode h.distinct)
        · intro half k acc hacc
          rw [hrp]
          exact rulesOut_setHalf (fun acc' hacc' => (hmark acc' hacc').mono (Set.subset_insert _ _))
            hacc
        · intro acc hacc
          rw [hrp]
          simp only [keyOf]
          rw [halfAt_setHalf, if_pos ⟨rfl, rfl⟩]
          exact hmark acc hacc
        · intro acc hacc
          exact ReplayProtection.fresh_of_check hacc hnear hcheck

/-- Sending RTCP. -/
theorem Inv.rtcp {packet : Octets} (h : Inv H σ) (hsafe : Safe σ (.rtcp id packet)) :
    Kept H (senderStep z σ (.rtcp id packet)) := by
  simp only [senderStep]
  cases hstream : σ.streams id with
  | none => exact h.kept
  | some stream =>
    have hlive : (σ.streams id).isSome = true := by rw [hstream, Option.isSome_some]
    rcases processRtcp_cases id σ.rp stream packet with ⟨hrp, hiv⟩ | ⟨ctx, hstate, hlen, hrp, hout⟩
    · refine h.after_none hlive hiv ?_ ?_
      · rw [hrp]
        exact h.distinct
      · intro half k acc hacc
        rwa [hrp]
    simp only [Safe, hstream] at hsafe
    have hcounter := hsafe hstate hlen
    -- The counter moves up by one, past every index it gave out.
    have hmoved : (halfAt .rtcp σ.rp.outHead (rtcpNodeKey packet)).increment.2.seq =
        (halfAt .rtcp σ.rp.outHead (rtcpNodeKey packet)).seq + 1 :=
      Nat.mod_eq_of_lt hcounter
    have hmark : ∀ acc, RulesOut (halfAt .rtcp σ.rp.outHead (rtcpNodeKey packet)) acc .rtcp →
        RulesOut (halfAt .rtcp σ.rp.outHead (rtcpNodeKey packet)).increment.2
          (insert (halfAt .rtcp σ.rp.outHead (rtcpNodeKey packet)).increment.2.seq acc) .rtcp := by
      intro acc hacc seq hseq
      rcases Set.mem_insert_iff.mp hseq with hnew | hold
      · exact Nat.le_of_eq hnew
      · rw [hmoved]
        exact Nat.le_succ_of_le (hacc seq hold)
    have hkept : ∀ half k acc, RulesOut (halfAt half σ.rp.outHead k) acc half →
        RulesOut (halfAt half (updateNode
          ((addNode id (rtcpNodeKey packet) σ.rp.outHead).1.setHalf
            (halfAt .rtcp σ.rp.outHead (rtcpNodeKey packet)).increment.2 .rtcp)
          (addNode id (rtcpNodeKey packet) σ.rp.outHead).2) k) acc half := by
      intro half k acc hacc
      exact rulesOut_setHalf (fun acc' hacc' => (hmark acc' hacc').mono (Set.subset_insert _ _)) hacc
    have hdistinct : Distinct (addNode id (rtcpNodeKey packet) σ.rp.outHead).2 :=
      distinct_addNode h.distinct
    rcases srtpProtectRtcp_cases ctx id σ.rp.outHead (rtcpInfo packet) with
      ⟨_, hiv, hnodes⟩ | ⟨hnodes, hdone⟩
    · rw [hnodes] at hrp
      rw [← hout] at hiv
      refine h.after_none hlive hiv ?_ ?_
      · rw [hrp]
        exact hdistinct
      · intro half k acc hacc
        rw [hrp]
        simp only [rtcpInfo]
        rwa [halfAt_addNode]
    rw [hnodes] at hrp
    rcases hdone with ⟨_, hiv⟩ | ⟨hok, _, hiv⟩
    · rw [← hout] at hiv
      refine h.after_none hlive hiv ?_ ?_
      · rw [hrp]
        exact distinct_updateNode hdistinct
      · intro half k acc hacc
        rw [hrp]
        exact hkept half k acc hacc
    · rw [← hout] at hok hiv
      rw [rtcpNodeKey_eq]
      have hssrc : (rtcpSsrc packet).length = 4 := by
        have hpacket : 8 ≤ packet.length := hlen
        rw [rtcpSsrc, Lib.length_slice]
        omega
      refine h.after_some hlive hok hiv ?_ hssrc (Nat.mod_lt _ (by omega)) ?_ ?_ ?_
      · rw [hrp]
        exact distinct_updateNode hdistinct
      · intro half k acc hacc
        rw [hrp]
        exact hkept half k acc hacc
      · intro acc hacc
        rw [← rtcpNodeKey_eq] at hacc ⊢
        rw [hrp]
        simp only [rtcpInfo]
        rw [halfAt_setHalf, if_pos ⟨rfl, rfl⟩]
        exact hmark acc hacc
      · intro acc hacc hmem
        rw [← rtcpNodeKey_eq] at hacc
        have hle := hacc _ hmem
        simp only [rtcpInfo] at hle
        omega

/-- What a safe step preserves. -/
theorem inv_senderStep (h : Inv H σ) (call : SenderCall) (hsafe : Safe σ call) :
    Kept H (senderStep z σ call) := by
  cases call with
  | create stream => exact Inv.kept (h.create (z := z))
  | destroy id => exact Inv.kept (h.destroy (z := z) hsafe)
  | rtp id packet => exact h.rtp hsafe
  | rtcp id packet => exact h.rtcp hsafe

end Steps

/-- The keystreams of the sender are unique. In a run whose steps are all
    safe, no two packets that were protected under one key have one IV. -/
theorem keystream_unique (z : Global) (calls : List SenderCall)
    (hsafe : Along (senderStep z) Safe .init calls) :
    (events (senderStep z) Lib.Step.output .init calls).Pairwise
      fun e e' => e.id = e'.id → e.half = e'.half → e.iv ≠ e'.iv := by
  have hstep : ∀ H σ call, Inv H σ → Safe σ call →
      Inv (H ++ (stepAt (senderStep z) σ call).output.toList) (senderStep z σ call).1 :=
    fun H σ call h hcall => (inv_senderStep h call hcall).1
  have hnew : ∀ H σ call e, Inv H σ → Safe σ call → (stepAt (senderStep z) σ call).output = some e →
      ∀ e' ∈ H, e'.id = e.id → e'.half = e.half → e'.iv ≠ e.iv :=
    fun H σ call e h hcall he => (inv_senderStep h call hcall).2 e he
  exact Lib.events_pairwise Inv hstep hnew [] .init calls inv_init hsafe List.Pairwise.nil

/-- A receiver report whose SSRC begins and ends with these octets. -/
def sampleReport (first last : UInt8) : Octets := [0x80, 201, 0, 1, first, 0, 0, last, 9, 9]

/-- Two streams whose SSRCs begin with one octet share a node. The one that
    goes is not the one that made it. -/
theorem keystream_unique_shared :
    (events (senderStep sampleGlobal) Lib.Step.output .init
      [.create (sampleSecure false), .create (sampleSecure false),
        .rtp 0 (sampleMedia 7 1 [1, 2, 3]), .rtp 1 (sampleMedia 8 1 [1, 2, 3]),
        .rtcp 0 (sampleReport 7 1), .rtcp 1 (sampleReport 7 2), .destroy 1,
        .rtcp 0 (sampleReport 7 1)]).Pairwise
      fun e e' => e.id = e'.id → e.half = e'.half → e.iv ≠ e'.iv :=
  keystream_unique sampleGlobal _ (by decide +kernel)

/-- Here it is. The stream that stays gets a new node, and the counter in it
    comes back to an index it has used. -/
theorem keystream_repeats :
    ¬ ∀ (z : Global) (calls : List SenderCall),
      (events (senderStep z) Lib.Step.output .init calls).Pairwise
        fun e e' => e.id = e'.id → e.half = e'.half → e.iv ≠ e'.iv := by
  intro h
  have hrun := h sampleGlobal
    [.create (sampleSecure false), .create (sampleSecure false), .rtcp 0 (sampleReport 7 1),
      .rtcp 1 (sampleReport 7 2), .destroy 0, .rtcp 1 (sampleReport 7 2),
      .rtcp 1 (sampleReport 7 2)]
  exact absurd hrun (by decide +kernel)

end Engine

end Zrtp

end CryptoOpal

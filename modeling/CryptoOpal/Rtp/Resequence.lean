import CryptoOpal.Lib.Transducer
import CryptoOpal.Rtp.Receiver

/-!
# Packets Are Delivered in Sequence

With resequencing, the packets of one source are delivered in the order of
their sequence numbers, each number at most once, whatever gets lost, comes
late, comes twice or waits too long.

The expected number is what keeps order. Every packet that is delivered, on
arrival, from the saved packets or in place of one that was given up, has at
least this number, and the expected number then moves past it. So every
number delivered so far is below the expected one (`Session.Ordered`).

The expected number after 65535 is 0. A source that gets that far has not
wrapped around, but the receiver has, and everything seems to be ahead of it.
The result is therefore about runs in which no packet has this number.

## Main definitions

* `Session.Fresh`: A session that has not received anything.
* `delivered`: The sequence number of a delivered packet.
* `Session.Ordered`: The invariant.
* `Session.Regular`: The source's packets come without a restart.
* `Call.BelowLast`: The condition.

## Theorems

* `ordered_step`: A call keeps the invariant.
* `delivered_increasing`: The delivered numbers increase.
-/

namespace CryptoOpal

namespace Rtp

namespace Session

/-- A session that resequences and has not received anything. -/
structure Fresh (s : Session) : Prop where
  resequence : s.resequenceOutOfOrderPackets = true
  noChange : s.allowSequenceChange = false
  noSource : s.syncSourceIn = 0
  noneReceived : s.packetsReceived = 0
  noneSaved : s.outOfOrderPackets = []

/-- The session has delivered packets with the numbers `H`: before the first
    packet there are none, and from then on the expected number is above them
    all. -/
structure Ordered (ssrc : UInt32) (H : List UInt16) (s : Session) : Prop where
  resequence : s.resequenceOutOfOrderPackets = true
  noChange : s.allowSequenceChange = false
  source : s.syncSourceIn = 0 ∨ s.syncSourceIn = ssrc
  saved : ∀ q ∈ s.outOfOrderPackets, q.sequenceNumber ≠ 65535
  before : s.packetsReceived = 0 → H = [] ∧ s.outOfOrderPackets = []
  received : s.packetsReceived.toNat ≤ s.expectedSequenceNumber.toNat
  below : ∀ e ∈ H, e < s.expectedSequenceNumber
  increasing : H.Pairwise (· < ·)

end Session

/-- The sequence number of the packet that a call delivers. -/
def delivered (x : Lib.Step Session Call (Option Packet)) : Option UInt16 :=
  x.output.map Packet.sequenceNumber

/-- After a step that may have delivered a packet, the session is in order. -/
def Keeps (ssrc : UInt32) (H : List UInt16) (r : Session × Option Packet) : Prop :=
  r.1.Ordered ssrc (H ++ (r.2.map Packet.sequenceNumber).toList)

/-- A packet comes from a source. -/
def Call.From (ssrc : UInt32) : Call → Prop
  | .readBufferedData => True
  | .packet p _ => p.syncSource = ssrc

instance (ssrc : UInt32) (call : Call) : Decidable (call.From ssrc) :=
  match call with
  | .readBufferedData => inferInstanceAs (Decidable True)
  | .packet p _ => inferInstanceAs (Decidable (p.syncSource = ssrc))

/-- A packet has a number that another one can come after. -/
def Call.BelowLast : Call → Prop
  | .readBufferedData => True
  | .packet p _ => p.sequenceNumber ≠ 65535

instance (call : Call) : Decidable call.BelowLast :=
  match call with
  | .readBufferedData => inferInstanceAs (Decidable True)
  | .packet p _ => inferInstanceAs (Decidable (p.sequenceNumber ≠ 65535))

/-- A call brings a packet of the source, if any, and the receiver does not take
    it for a restart. -/
def Session.Regular (ssrc : UInt32) (s : Session) (call : Call) : Prop :=
  call.From ssrc ∧ (s.step call).1.consecutiveOutOfOrderPackets ≤ 10

instance (ssrc : UInt32) (s : Session) (call : Call) : Decidable (s.Regular ssrc call) :=
  inferInstanceAs (Decidable (_ ∧ _))

theorem succ_toNat {n : UInt16} (h : n ≠ 65535) : (n + 1).toNat = n.toNat + 1 := by
  have hne : n.toNat ≠ 65535 := fun he => h (UInt16.toNat_inj.mp he)
  have hlt := n.toNat_lt
  rw [UInt16.toNat_add, UInt16.toNat_one]
  omega

/-- What is left after the late packets starts with one that is not late. -/
theorem skipLate_eq_cons {expected : UInt16} {l rest : List Packet} {q : Packet}
    (h : skipLate expected l = q :: rest) :
    expected ≤ q.sequenceNumber ∧ ∀ r ∈ q :: rest, r ∈ l := by
  have hhead := List.head?_dropWhile_not (fun q : Packet => decide (q.sequenceNumber < expected))
    l.reverse
  rw [skipLate] at h
  rw [h] at hhead
  simp only [List.head?_cons, decide_eq_false_iff_not] at hhead
  refine ⟨UInt16.not_lt.mp hhead, fun r hr => ?_⟩
  rw [← h] at hr
  exact List.mem_reverse.mp ((List.dropWhile_sublist _).subset hr)

section Steps

variable {ssrc : UInt32} {H : List UInt16} {s : Session} {p : Packet} {tick : Int}

/-- Delivering a packet from the expected number on moves the expected number
    past it. -/
theorem ordered_deliver (hs : s.resequenceOutOfOrderPackets = true)
    (hchange : s.allowSequenceChange = false)
    (hsource : s.syncSourceIn = 0 ∨ s.syncSourceIn = ssrc)
    (hsaved : ∀ q ∈ s.outOfOrderPackets, q.sequenceNumber ≠ 65535)
    (hp : p.sequenceNumber ≠ 65535)
    (hreceived : s.packetsReceived.toNat ≤ p.sequenceNumber.toNat)
    (hbelow : ∀ e ∈ H, e < p.sequenceNumber) (hincreasing : H.Pairwise (· < ·))
    (hexpected : s.expectedSequenceNumber = p.sequenceNumber + 1) :
    (s.deliver p).1.Ordered ssrc (H ++ [p.sequenceNumber]) := by
  have hsucc := succ_toNat hp
  have hlt := p.sequenceNumber.toNat_lt
  have hcount : (s.packetsReceived + 1).toNat = s.packetsReceived.toNat + 1 := by
    rw [UInt32.toNat_add, UInt32.toNat_one]
    omega
  refine ⟨hs, hchange, hsource, hsaved, ?_, ?_, ?_, ?_⟩
  · intro hzero
    have : (s.packetsReceived + 1).toNat = 0 := by
      rw [show s.packetsReceived + 1 = 0 from hzero, UInt32.toNat_zero]
    omega
  · change (s.packetsReceived + 1).toNat ≤ s.expectedSequenceNumber.toNat
    rw [hexpected]
    omega
  · intro e he
    change e < s.expectedSequenceNumber
    rw [UInt16.lt_iff_toNat_lt, hexpected, hsucc]
    rcases List.mem_append.mp he with he | he
    · have := UInt16.lt_iff_toNat_lt.mp (hbelow e he)
      omega
    · rw [List.mem_singleton.mp he]
      omega
  · refine List.pairwise_append.mpr ⟨hincreasing, List.pairwise_singleton _ _, ?_⟩
    intro e he e' he'
    rw [List.mem_singleton.mp he']
    exact hbelow e he

theorem keeps_none (h : s.Ordered ssrc H) : Keeps ssrc H (s, none) := by
  simpa only [Keeps, Option.map_none, Option.toList_none, List.append_nil] using h

theorem keeps_receiveFirst (h : s.Ordered ssrc H) (hzero : s.packetsReceived = 0)
    (hp : p.sequenceNumber ≠ 65535) : Keeps ssrc H (s.receiveFirst p) := by
  unfold Session.receiveFirst
  split
  · exact keeps_none h
  · refine ordered_deliver h.resequence h.noChange h.source h.saved hp ?_ ?_ h.increasing rfl
    · change s.packetsReceived.toNat ≤ _
      rw [hzero]
      exact Nat.zero_le _
    · intro e he
      rw [(h.before hzero).1] at he
      exact absurd he List.not_mem_nil

theorem keeps_receiveExpected (h : s.Ordered ssrc H) (hp : p.sequenceNumber ≠ 65535)
    (heq : p.sequenceNumber = s.expectedSequenceNumber) :
    Keeps ssrc H (s.receiveExpected p tick) := by
  have hreceived := h.received
  have hbelow := h.below
  rw [← heq] at hreceived hbelow
  simp only [Session.receiveExpected]
  split
  · exact ordered_deliver h.resequence h.noChange h.source h.saved hp hreceived hbelow
      h.increasing (congrArg (· + 1) heq.symm)
  · exact ordered_deliver h.resequence h.noChange h.source h.saved hp hreceived hbelow
      h.increasing (congrArg (· + 1) heq.symm)

/-- A late packet is ignored, unless it is taken for a restart. -/
theorem keeps_receiveLate (h : s.Ordered ssrc H)
    (hcount : (s.receiveLate p).1.consecutiveOutOfOrderPackets ≤ 10) :
    Keeps ssrc H (s.receiveLate p) := by
  simp only [Session.receiveLate] at hcount ⊢
  by_cases hrestart : s.consecutiveOutOfOrderPackets + 1 > 10
  · rw [if_pos hrestart] at hcount
    exact absurd hrestart (UInt32.not_lt.mpr hcount)
  · rw [if_neg hrestart, if_pos h.resequence]
    exact keeps_none ⟨h.resequence, h.noChange, h.source, h.saved, h.before, h.received, h.below, h.increasing⟩

theorem keeps_receiveEarly (h : s.Ordered ssrc H) (hp : p.sequenceNumber ≠ 65535)
    (hne : s.packetsReceived ≠ 0) : Keeps ssrc H (s.receiveEarly p tick) := by
  have hsaved : ∀ q ∈ saveOutOfOrderPacket p s.outOfOrderPackets, q.sequenceNumber ≠ 65535 := by
    intro q hq
    rcases mem_saveOutOfOrderPacket hq with rfl | hq
    · exact hp
    · exact h.saved q hq
  simp only [Session.receiveEarly]
  split
  · exact keeps_none ⟨h.resequence, h.noChange, h.source, hsaved, fun h0 => absurd h0 hne,
      h.received, h.below, h.increasing⟩
  · exact keeps_none ⟨h.resequence, h.noChange, h.source, hsaved, fun h0 => absurd h0 hne,
      h.received, h.below, h.increasing⟩

/-- The packet that is switched in is not from before the expected number. -/
theorem keeps_receiveGivenUp (h : s.Ordered ssrc H) (hp : p.sequenceNumber ≠ 65535)
    (hne : s.packetsReceived ≠ 0) (hwaiting : s.outOfOrderPackets ≠ []) :
    Keeps ssrc H (s.receiveGivenUp p tick) := by
  rw [Session.receiveGivenUp, if_pos hwaiting]
  cases hskip : skipLate s.expectedSequenceNumber
      (saveOutOfOrderPacket p s.outOfOrderPackets) with
  | nil =>
      exact keeps_none ⟨h.resequence, h.noChange, h.source,
        fun q hq => absurd hq List.not_mem_nil, fun h0 => absurd h0 hne, h.received, h.below, h.increasing⟩
  | cons q rest =>
      rcases skipLate_eq_cons hskip with ⟨hle, hmem⟩
      have hnumber : ∀ r ∈ q :: rest, r.sequenceNumber ≠ 65535 := by
        intro r hr
        rcases mem_saveOutOfOrderPacket (hmem r hr) with rfl | hr
        · exact hp
        · exact h.saved r hr
      refine ordered_deliver h.resequence h.noChange h.source
        (fun r hr => hnumber r (List.mem_cons_of_mem q (List.mem_reverse.mp hr)))
        (hnumber q List.mem_cons_self) ?_ ?_ h.increasing rfl
      · exact Nat.le_trans h.received (UInt16.le_iff_toNat_le.mp hle)
      · intro e he
        exact UInt16.lt_of_lt_of_le (h.below e he) hle

theorem keeps_receiveNext (h : s.Ordered ssrc H) (hp : p.sequenceNumber ≠ 65535)
    (hne : s.packetsReceived ≠ 0)
    (hcount : (s.receiveNext p tick).1.consecutiveOutOfOrderPackets ≤ 10) :
    Keeps ssrc H (s.receiveNext p tick) := by
  unfold Session.receiveNext at hcount ⊢
  by_cases heq : p.sequenceNumber = s.expectedSequenceNumber
  · rw [if_pos heq]
    exact keeps_receiveExpected h hp heq
  rw [if_neg heq, if_neg (by rw [h.noChange]; exact Bool.false_ne_true)] at hcount ⊢
  by_cases hlate : p.sequenceNumber < s.expectedSequenceNumber
  · rw [if_pos hlate] at hcount ⊢
    exact keeps_receiveLate h hcount
  rw [if_neg hlate]
  by_cases hsaves : s.Saves tick
  · rw [if_pos hsaves]
    exact keeps_receiveEarly h hp hne
  · rw [if_neg hsaves]
    exact keeps_receiveGivenUp h hp hne fun hnil => hsaves ⟨h.resequence, Or.inl hnil⟩

/-- A packet of the source does not change which source that is. -/
theorem checkSyncSource_eq (hsource : s.syncSourceIn = p.syncSource) :
    s.checkSyncSource p = (s, true) := by
  rw [Session.checkSyncSource, if_neg (not_not.mpr hsource.symm)]

theorem ordered_learnPayloadType (h : s.Ordered ssrc H) (p : Packet) :
    (s.learnPayloadType p).Ordered ssrc H := by
  unfold Session.learnPayloadType
  split
  · exact ⟨h.resequence, h.noChange, h.source, h.saved, h.before, h.received, h.below, h.increasing⟩
  · exact h

theorem ordered_learnSyncSource (h : s.Ordered ssrc H) (hp : p.syncSource = ssrc) :
    (s.learnSyncSource p).Ordered ssrc H ∧ (s.learnSyncSource p).syncSourceIn = p.syncSource := by
  unfold Session.learnSyncSource
  by_cases hzero : s.syncSourceIn = 0
  · rw [if_pos hzero]
    exact ⟨⟨h.resequence, h.noChange, Or.inr hp, h.saved, h.before, h.received, h.below, h.increasing⟩, rfl⟩
  · rw [if_neg hzero, hp]
    exact ⟨h, h.source.resolve_left hzero⟩

theorem keeps_onReceiveData (h : s.Ordered ssrc H) (hsource : p.syncSource = ssrc)
    (hp : p.sequenceNumber ≠ 65535)
    (hcount : (s.onReceiveData p tick).1.consecutiveOutOfOrderPackets ≤ 10) :
    Keeps ssrc H (s.onReceiveData p tick) := by
  have hlearn := ordered_learnPayloadType h p
  rcases ordered_learnSyncSource hlearn hsource with ⟨hnow, hsync⟩
  unfold Session.onReceiveData at hcount ⊢
  by_cases hversion : p.version ≠ protocolVersion
  · rw [if_pos hversion]
    exact keeps_none h
  rw [if_neg hversion] at hcount ⊢
  by_cases htype : (s.learnPayloadType p).lastReceivedPayloadType ≠ p.payloadType ∧
      (s.learnPayloadType p).ignorePayloadTypeChanges = false
  · simp only [if_pos htype]
    exact keeps_none hlearn
  simp only [if_neg htype] at hcount ⊢
  by_cases hmax : p.payloadType > maxPayloadType
  · rw [if_pos hmax]
    exact keeps_none hlearn
  rw [if_neg hmax] at hcount ⊢
  by_cases hzero : ((s.learnPayloadType p).learnSyncSource p).packetsReceived = 0
  · rw [if_pos hzero]
    exact keeps_receiveFirst hnow hzero hp
  · rw [if_neg hzero, checkSyncSource_eq hsync] at hcount ⊢
    exact keeps_receiveNext hnow hp hzero hcount

/-- A saved packet goes out when it is the expected one. -/
theorem keeps_readSaved (h : s.Ordered ssrc H) : Keeps ssrc H s.readSaved := by
  unfold Session.readSaved
  cases hback : s.outOfOrderPackets.getLast? with
  | none => exact keeps_none h
  | some q =>
      have hmem := List.mem_of_getLast? hback
      by_cases heq : q.sequenceNumber = s.expectedSequenceNumber
      · have hsucc := succ_toNat (h.saved q hmem)
        have hnext : s.expectedSequenceNumber.toNat < (q.sequenceNumber + 1).toNat := by
          rw [← heq]
          omega
        simp only [heq, ne_eq, not_true_eq_false, if_false]
        refine ⟨h.resequence, h.noChange, h.source,
          fun r hr => h.saved r (List.dropLast_subset _ hr), ?_, ?_, ?_, ?_⟩
        · intro hzero
          rw [(h.before hzero).2] at hmem
          exact absurd hmem List.not_mem_nil
        · exact Nat.le_of_lt (Nat.lt_of_le_of_lt h.received (heq ▸ hnext))
        · intro e he
          rw [UInt16.lt_iff_toNat_lt]
          simp only [Option.map_some, Option.toList_some, List.mem_append, List.mem_singleton] at he
          rcases he with he | rfl
          · exact Nat.lt_trans (UInt16.lt_iff_toNat_lt.mp (h.below e he)) (heq ▸ hnext)
          · exact heq ▸ hnext
        · refine List.pairwise_append.mpr ⟨h.increasing, List.pairwise_singleton _ _, ?_⟩
          intro e he e' he'
          rw [List.mem_singleton.mp he', heq]
          exact h.below e he
      · simp only [ne_eq, heq, not_false_eq_true, if_true]
        exact keeps_none h

theorem ordered_step {call : Call} (h : s.Ordered ssrc H) (hregular : s.Regular ssrc call)
    (hlast : call.BelowLast) : Keeps ssrc H (s.step call) := by
  cases call with
  | readBufferedData => exact keeps_readSaved h
  | packet p tick => exact keeps_onReceiveData h hregular.1 hlast hregular.2

end Steps

/-- With resequencing, and no packet numbered 65535, the sequence numbers that
    a source's packets are delivered with increase strictly, as long as late
    packets do not add up to a restart. -/
theorem delivered_increasing (ssrc : UInt32) (s : Session) (hs : s.Fresh) (calls : List Call)
    (hregular : Lib.Along Session.step
      (fun s call => s.Regular ssrc call ∧ call.BelowLast) s calls) :
    (Lib.events Session.step delivered s calls).Pairwise (· < ·) := by
  have hinit : s.Ordered ssrc [] := by
    refine ⟨hs.resequence, hs.noChange, Or.inl hs.noSource, ?_, fun _ => ⟨rfl, hs.noneSaved⟩, ?_,
      fun e he => absurd he List.not_mem_nil, List.Pairwise.nil⟩
    · rw [hs.noneSaved]
      exact fun q hq => absurd hq List.not_mem_nil
    · rw [hs.noneReceived]
      exact Nat.zero_le _
  have hstep : ∀ (H : List UInt16) (s : Session) (call : Call), s.Ordered ssrc H →
      s.Regular ssrc call ∧ call.BelowLast → Keeps ssrc H (s.step call) :=
    fun H s call h hcall => ordered_step h hcall.1 hcall.2
  exact (Lib.history_invariant (fun H (s : Session) => s.Ordered ssrc H) hstep [] s calls hinit
    hregular).increasing

section Samples

/-- Packet 11 is overtaken and comes twice, and packet 14 is given up. -/
theorem delivered_increasing_overtaken :
    (Lib.events Session.step delivered Session.new
      [.packet (samplePacket 10) 0, .packet (samplePacket 12) 20, .packet (samplePacket 11) 40,
        .packet (samplePacket 11) 60, .readBufferedData, .packet (samplePacket 13) 80,
        .packet (samplePacket 16) 100, .packet (samplePacket 15) 300]).Pairwise (· < ·) :=
  delivered_increasing 1 Session.new ⟨rfl, rfl, rfl, rfl, rfl⟩ _ (by decide +kernel)

/-- After packet 65535, a packet that came before is delivered again: first it
    is saved as one from far ahead, and then it waits for too long. -/
theorem delivered_again :
    Session.new.Fresh ∧
      Lib.Along Session.step (Session.Regular 1) Session.new
        [.packet (samplePacket 65534) 0, .packet (samplePacket 65535) 20,
          .packet (samplePacket 65534) 40, .packet (samplePacket 65534) 200] ∧
      ¬ (Lib.events Session.step delivered Session.new
        [.packet (samplePacket 65534) 0, .packet (samplePacket 65535) 20,
          .packet (samplePacket 65534) 40, .packet (samplePacket 65534) 200]).Pairwise (· < ·) :=
  ⟨⟨rfl, rfl, rfl, rfl, rfl⟩, by decide +kernel, by decide +kernel⟩

end Samples

end Rtp

end CryptoOpal

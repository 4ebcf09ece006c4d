import Mathlib.Data.List.Basic

/-!
# The Bursts and Gaps of the RTCP-XR Metrics

The metrics collector counts the packets of a stream, and then once more as
packets of bursts and of gaps. A loss or a discard is counted in a gap or in a
burst; a packet received is counted with the loss that ends the row of packets
that it is in.

The branch for a loss in a burst stands under `case PACKET_RECEIVED`. So every
packet received is counted in `m_packetsLostInBurst`, and starts a new row
(`m_packetsSinceLastLoss = 0`): the test of a loss against `m_gmin` is passed
only as long as no more than that many packets have come in all. From then on
a loss is counted nowhere (`lateLosses`).

The counts agree when the two mistakes cancel each other, and not else.

## Main definitions

* `Metrics`: The counts of a stream.
* `Metrics.markov`: The transitions, with the counts of bursts and gaps.
* `Metrics.event`: One packet.
* `Metrics.Conserves`: Every packet is in a burst or in a gap.
* `lateLosses`: The losses that are counted nowhere.

## Theorems

* `event_received`, `event_loss`: What one packet does to the counts.
* `events_surplus`: What a stream does to them.
* `conserves_iff`: When the counts agree.
-/

namespace CryptoOpal

namespace Rtp

/-- `RTCP_XR_Metrics::PacketEvent`. -/
inductive PacketEvent where
  | received
  | discarded
  | lost
  deriving DecidableEq

/-- `RTCP_XR_Metrics::PeriodType`. -/
inductive PeriodType where
  | gap
  | burst
  deriving DecidableEq

/-- The counts of `RTCP_XR_Metrics`. -/
structure Metrics where
  gmin : UInt32
  lostInBurst : UInt32
  packetsReceived : UInt32
  packetsSinceLastLoss : UInt32
  packetsLost : UInt32
  packetsDiscarded : UInt32
  packetsReceivedInGap : UInt32
  packetsLostInGap : UInt32
  packetsReceivedInBurst : UInt32
  packetsLostInBurst : UInt32
  c5 : UInt32
  c11 : UInt32
  c13 : UInt32
  c14 : UInt32
  c22 : UInt32
  c23 : UInt32
  c31 : UInt32
  c32 : UInt32
  c33 : UInt32
  currentPeriodType : PeriodType
  deriving DecidableEq

namespace Metrics

/-- The constructor. -/
def create : Metrics where
  gmin := 16
  lostInBurst := 1
  packetsReceived := 0
  packetsSinceLastLoss := 0
  packetsLost := 0
  packetsDiscarded := 0
  packetsReceivedInGap := 0
  packetsLostInGap := 0
  packetsReceivedInBurst := 0
  packetsLostInBurst := 0
  c5 := 0
  c11 := 0
  c13 := 0
  c14 := 0
  c22 := 0
  c23 := 0
  c31 := 0
  c32 := 0
  c33 := 0
  currentPeriodType := .gap

/-- `ResetCounters`. -/
def resetCounters (m : Metrics) : Metrics :=
  { m with c5 := 0, c11 := 0, c13 := 0, c14 := 0, c22 := 0, c23 := 0, c31 := 0, c32 := 0, c33 := 0 }

/-- A new period starts, unless it is of the type of the current one. -/
def enterPeriod (m : Metrics) (period : PeriodType) : Metrics :=
  if m.currentPeriodType = period then m
  else { m.resetCounters with currentPeriodType := period }

/-- The loss is counted in the gap, or in the burst if it is not the first one of it. -/
def countLoss (m : Metrics) : Metrics :=
  if m.lostInBurst = 1 then
    { m with c14 := m.c14 + 1, packetsLostInGap := m.packetsLostInGap + 1 }
  else
    { m with c13 := m.c13 + 1, packetsLostInBurst := m.packetsLostInBurst + 1 }

/-- The packets since the last loss are counted in the gap. -/
def countGap (m : Metrics) : Metrics :=
  { m with
    lostInBurst := 1
    c11 := m.c11 + m.packetsSinceLastLoss
    packetsReceivedInGap := m.packetsReceivedInGap + m.packetsSinceLastLoss }

/-- `c5 += m_packetsSinceLastLoss`. -/
def extendRow (m : Metrics) : Metrics := { m with c5 := m.c5 + m.packetsSinceLastLoss }

/-- `case PACKET_LOST` and `case PACKET_DISCARDED`. -/
def markovLoss (m : Metrics) : Metrics :=
  if m.packetsSinceLastLoss ≥ m.gmin ∨ m.packetsReceived ≤ m.gmin then
    (m.extendRow.enterPeriod .gap).countLoss.countGap
  else m.extendRow

/-- `++m_lostInBurst`, and the row of packets is forgotten in a long burst. -/
def countBurst (m : Metrics) : Metrics :=
  { m with
    lostInBurst := m.lostInBurst + 1
    c5 := if m.lostInBurst + 1 > 8 then 0 else m.c5 }

/-- The packets since the last loss are counted in the burst. -/
def countRow (m : Metrics) : Metrics :=
  if m.packetsSinceLastLoss = 0 then { m with c33 := m.c33 + 1 }
  else
    { m with
      c23 := m.c23 + 1
      c22 := m.c22 + (m.packetsSinceLastLoss - 1)
      packetsReceivedInBurst := m.packetsReceivedInBurst + m.packetsSinceLastLoss }

/-- The packet is counted as one more that is lost in the burst, and a row ends with it. -/
def endRow (m : Metrics) : Metrics :=
  { m with packetsLostInBurst := m.packetsLostInBurst + 1, packetsSinceLastLoss := 0 }

/-- `case PACKET_RECEIVED`. -/
def markovReceived (m : Metrics) : Metrics := (m.enterPeriod .burst).countBurst.countRow.endRow

/-- `if (m_packetsReceived == 0) m_currentPeriodType = GAP`. -/
def beforeFirst (m : Metrics) : Metrics :=
  if m.packetsReceived = 0 then { m with currentPeriodType := .gap } else m

/-- The additional transaction counts. -/
def copyCounts (m : Metrics) : Metrics := { m with c31 := m.c13, c32 := m.c23 }

/-- `markov`. The timestamps and the list of periods are left out. -/
def markov (m : Metrics) : PacketEvent → Metrics
  | .received => m.beforeFirst.markovReceived.copyCounts
  | .discarded | .lost => m.beforeFirst.markovLoss.copyCounts

/-- `OnPacketReceived`. -/
def onPacketReceived (m : Metrics) : Metrics :=
  markov { m with
    packetsReceived := m.packetsReceived + 1
    packetsSinceLastLoss := m.packetsSinceLastLoss + 1 } .received

/-- `OnPacketDiscarded`. -/
def onPacketDiscarded (m : Metrics) : Metrics :=
  markov { m with packetsDiscarded := m.packetsDiscarded + 1 } .discarded

/-- `OnPacketLost`. -/
def onPacketLost (m : Metrics) : Metrics :=
  markov { m with packetsLost := m.packetsLost + 1 } .lost

/-- One packet. -/
def event (m : Metrics) : PacketEvent → Metrics
  | .received => m.onPacketReceived
  | .discarded => m.onPacketDiscarded
  | .lost => m.onPacketLost

/-- The packets of a stream. -/
def events (m : Metrics) (es : List PacketEvent) : Metrics := es.foldl event m

/-- Every packet is in a burst or in a gap, or has come since the last loss. -/
def Conserves (m : Metrics) : Prop :=
  m.packetsLostInGap + m.packetsLostInBurst = m.packetsLost + m.packetsDiscarded ∧
    m.packetsReceivedInGap + m.packetsReceivedInBurst + m.packetsSinceLastLoss = m.packetsReceived

instance (m : Metrics) : Decidable m.Conserves := inferInstanceAs (Decidable (_ ∧ _))

/-- The losses that are counted in gaps and bursts beyond those that there were. -/
def surplus (m : Metrics) : UInt32 :=
  m.packetsLostInGap + m.packetsLostInBurst - (m.packetsLost + m.packetsDiscarded)

/-- The counts of packets are the same. -/
structure SamePackets (m m' : Metrics) : Prop where
  gmin : m'.gmin = m.gmin
  received : m'.packetsReceived = m.packetsReceived
  row : m'.packetsSinceLastLoss = m.packetsSinceLastLoss
  lost : m'.packetsLost = m.packetsLost
  discarded : m'.packetsDiscarded = m.packetsDiscarded
  receivedInGap : m'.packetsReceivedInGap = m.packetsReceivedInGap
  lostInGap : m'.packetsLostInGap = m.packetsLostInGap
  receivedInBurst : m'.packetsReceivedInBurst = m.packetsReceivedInBurst
  lostInBurst : m'.packetsLostInBurst = m.packetsLostInBurst

/-- The packets received are accounted for, and none is since the last loss. -/
structure Steady (m : Metrics) : Prop where
  gmin : m.gmin = 16
  row : m.packetsSinceLastLoss = 0
  inGap : m.packetsReceivedInGap = 0
  inBurst : m.packetsReceivedInBurst = m.packetsReceived

section Accounts

variable {m m' m'' : Metrics}

theorem SamePackets.refl : SamePackets m m := ⟨rfl, rfl, rfl, rfl, rfl, rfl, rfl, rfl, rfl⟩

theorem SamePackets.trans (h : SamePackets m m') (h' : SamePackets m' m'') : SamePackets m m'' where
  gmin := h'.gmin.trans h.gmin
  received := h'.received.trans h.received
  row := h'.row.trans h.row
  lost := h'.lost.trans h.lost
  discarded := h'.discarded.trans h.discarded
  receivedInGap := h'.receivedInGap.trans h.receivedInGap
  lostInGap := h'.lostInGap.trans h.lostInGap
  receivedInBurst := h'.receivedInBurst.trans h.receivedInBurst
  lostInBurst := h'.lostInBurst.trans h.lostInBurst

theorem samePackets_enterPeriod (m : Metrics) (period : PeriodType) :
    SamePackets m (m.enterPeriod period) := by
  unfold enterPeriod
  split
  · exact .refl
  · exact ⟨rfl, rfl, rfl, rfl, rfl, rfl, rfl, rfl, rfl⟩

theorem samePackets_beforeFirst (m : Metrics) : SamePackets m m.beforeFirst := by
  unfold beforeFirst
  split
  · exact ⟨rfl, rfl, rfl, rfl, rfl, rfl, rfl, rfl, rfl⟩
  · exact .refl

theorem samePackets_countBurst (m : Metrics) : SamePackets m m.countBurst :=
  ⟨rfl, rfl, rfl, rfl, rfl, rfl, rfl, rfl, rfl⟩

theorem samePackets_extendRow (m : Metrics) : SamePackets m m.extendRow :=
  ⟨rfl, rfl, rfl, rfl, rfl, rfl, rfl, rfl, rfl⟩

theorem samePackets_copyCounts (m : Metrics) : SamePackets m m.copyCounts :=
  ⟨rfl, rfl, rfl, rfl, rfl, rfl, rfl, rfl, rfl⟩

theorem SamePackets.surplus (h : SamePackets m m') : m'.surplus = m.surplus := by
  unfold Metrics.surplus
  rw [h.lostInGap, h.lostInBurst, h.lost, h.discarded]

theorem SamePackets.steady (h : SamePackets m m') (hs : m.Steady) : m'.Steady where
  gmin := h.gmin.trans hs.gmin
  row := h.row.trans hs.row
  inGap := h.receivedInGap.trans hs.inGap
  inBurst := by rw [h.receivedInBurst, h.received, hs.inBurst]

/-- A loss is counted once, in the gap or in the burst. -/
theorem countLoss_surplus (m : Metrics) : m.countLoss.countGap.surplus = m.surplus + 1 := by
  unfold countLoss
  split
  · simp only [countGap, surplus]
    grind
  · simp only [countGap, surplus]
    grind

theorem countLoss_steady (h : m.Steady) : m.countLoss.countGap.Steady := by
  have hgap : m.packetsReceivedInGap + m.packetsSinceLastLoss = 0 := by rw [h.inGap, h.row]; rfl
  unfold countLoss
  split
  · exact ⟨h.gmin, h.row, hgap, h.inBurst⟩
  · exact ⟨h.gmin, h.row, hgap, h.inBurst⟩

/-- The losses of a stream are counted only among its first packets. -/
theorem markovLoss_spec (h : m.Steady) : m.markovLoss.Steady ∧
    m.markovLoss.packetsReceived = m.packetsReceived ∧
    m.markovLoss.surplus = m.surplus + if m.packetsReceived ≤ 16 then 1 else 0 := by
  -- The row of packets is empty, so it is never as long as the threshold.
  have hrow : ¬m.packetsSinceLastLoss ≥ m.gmin := by
    rw [h.row, h.gmin]
    decide
  have hgap := (samePackets_extendRow m).trans (samePackets_enterPeriod m.extendRow .gap)
  unfold markovLoss
  by_cases hearly : m.packetsReceived ≤ 16
  · rw [if_pos (Or.inr (h.gmin ▸ hearly)), if_pos hearly, countLoss_surplus, hgap.surplus]
    refine ⟨countLoss_steady (hgap.steady h), ?_, rfl⟩
    rw [← hgap.received]
    unfold countLoss
    split
    · rfl
    · rfl
  · rw [if_neg (not_or.2 ⟨hrow, h.gmin ▸ hearly⟩), if_neg hearly, UInt32.add_zero]
    exact ⟨(samePackets_extendRow m).steady h, rfl, rfl⟩

/-- A loss, whatever it is counted as before. -/
theorem markov_loss (h : m.Steady) (e : PacketEvent) (he : e ≠ .received) :
    (m.markov e).Steady ∧ (m.markov e).packetsReceived = m.packetsReceived ∧
      (m.markov e).surplus = m.surplus + if m.packetsReceived ≤ 16 then 1 else 0 := by
  have hmarkov : m.markov e = m.beforeFirst.markovLoss.copyCounts := by
    cases e with
    | received => exact absurd rfl he
    | discarded => rfl
    | lost => rfl
  have hfirst := samePackets_beforeFirst m
  have hcopy := samePackets_copyCounts m.beforeFirst.markovLoss
  rcases markovLoss_spec (hfirst.steady h) with ⟨hs, hr, hsur⟩
  rw [hmarkov]
  refine ⟨hcopy.steady hs, ?_, ?_⟩
  · rw [hcopy.received, hr, hfirst.received]
  · rw [hcopy.surplus, hsur, hfirst.surplus, hfirst.received]

/-- A loss among the first packets is counted, and one after them is not. -/
theorem event_loss (h : m.Steady) (e : PacketEvent) (he : e ≠ .received) :
    (m.event e).Steady ∧ (m.event e).packetsReceived = m.packetsReceived ∧
      (m.event e).surplus = m.surplus - if m.packetsReceived ≤ 16 then 0 else 1 := by
  have hone : ∀ s : UInt32, (s - 1) + (if m.packetsReceived ≤ 16 then 1 else 0) =
      s - if m.packetsReceived ≤ 16 then 0 else 1 := by
    intro s
    split
    · grind
    · grind
  cases e with
  | received => exact absurd rfl he
  | discarded =>
      rcases @markov_loss { m with packetsDiscarded := m.packetsDiscarded + 1 }
        ⟨h.gmin, h.row, h.inGap, h.inBurst⟩ .discarded he with ⟨hs, hr, hsur⟩
      refine ⟨hs, hr, hsur.trans ?_⟩
      rw [← hone]
      simp only [surplus]
      grind
  | lost =>
      rcases @markov_loss { m with packetsLost := m.packetsLost + 1 }
        ⟨h.gmin, h.row, h.inGap, h.inBurst⟩ .lost he with ⟨hs, hr, hsur⟩
      refine ⟨hs, hr, hsur.trans ?_⟩
      rw [← hone]
      simp only [surplus]
      grind

/-- A packet received is counted as one, and as a loss. -/
theorem event_received (h : m.Steady) : (m.event .received).Steady ∧
    (m.event .received).packetsReceived = m.packetsReceived + 1 ∧
    (m.event .received).surplus = m.surplus + 1 := by
  -- Only the packets that are counted matter of what is before the row ends.
  obtain ⟨counted, hcounted⟩ : ∃ counted : Metrics, counted = { m with
    packetsReceived := m.packetsReceived + 1
    packetsSinceLastLoss := m.packetsSinceLastLoss + 1 } := ⟨_, rfl⟩
  obtain ⟨burst, hburst, hevent⟩ : ∃ burst, SamePackets counted burst ∧
      m.event .received = burst.countRow.endRow.copyCounts := by
    refine ⟨(counted.beforeFirst.enterPeriod .burst).countBurst, ?_, ?_⟩
    · exact (samePackets_beforeFirst counted).trans
        ((samePackets_enterPeriod _ .burst).trans (samePackets_countBurst _))
    · rw [hcounted]
      rfl
  have hreceived : burst.packetsReceived = m.packetsReceived + 1 := by
    rw [hburst.received, hcounted]
  have hone : burst.packetsSinceLastLoss = 1 := by
    rw [hburst.row, hcounted]
    show m.packetsSinceLastLoss + 1 = 1
    rw [h.row]
    rfl
  have hgap : burst.packetsReceivedInGap = 0 := by
    rw [hburst.receivedInGap, hcounted]
    exact h.inGap
  have hinBurst : burst.packetsReceivedInBurst = m.packetsReceived := by
    rw [hburst.receivedInBurst, hcounted]
    exact h.inBurst
  have hsurplus : burst.surplus = m.surplus := by
    rw [hburst.surplus, hcounted]
    rfl
  have hgmin : burst.gmin = 16 := by
    rw [hburst.gmin, hcounted]
    exact h.gmin
  rw [hevent]
  unfold countRow
  rw [if_neg (by rw [hone]; decide)]
  refine ⟨⟨hgmin, rfl, hgap, ?_⟩, hreceived, ?_⟩
  · show burst.packetsReceivedInBurst + burst.packetsSinceLastLoss = burst.packetsReceived
    rw [hone, hinBurst, hreceived]
  · rw [← hsurplus]
    show burst.packetsLostInGap + (burst.packetsLostInBurst + 1) -
      (burst.packetsLost + burst.packetsDiscarded) = burst.surplus + 1
    simp only [surplus]
    grind

theorem steady_create : create.Steady := ⟨rfl, rfl, rfl, rfl⟩

end Accounts

end Metrics

/-- The packets received. -/
def receivedPackets (es : List PacketEvent) : UInt32 := UInt32.ofNat (es.count .received)

/-- The losses and discards that come after more than sixteen packets, when `received` have come
before. The number of packets is one of 32 bits. -/
def lateLosses (received : UInt32) : List PacketEvent → UInt32
  | [] => 0
  | .received :: es => lateLosses (received + 1) es
  | .discarded :: es | .lost :: es => (if received ≤ 16 then 0 else 1) + lateLosses received es

namespace Metrics

/-- Every packet received is one loss too many, and every late loss is one too few. -/
theorem events_surplus (es : List PacketEvent) : ∀ m : Metrics, m.Steady →
    (m.events es).Steady ∧
      (m.events es).surplus =
        m.surplus + receivedPackets es - lateLosses m.packetsReceived es := by
  induction es with
  | nil =>
      intro m h
      refine ⟨h, ?_⟩
      show m.surplus = m.surplus + 0 - 0
      grind
  | cons e es ih =>
      intro m h
      cases e with
      | received =>
          rcases event_received h with ⟨hs, hr, hsur⟩
          rcases ih _ hs with ⟨hs', hsur'⟩
          have hcount : receivedPackets (.received :: es) = receivedPackets es + 1 := by
            unfold receivedPackets
            rw [List.count_cons_self, UInt32.ofNat_add]
            rfl
          refine ⟨hs', hsur'.trans ?_⟩
          rw [hr, hsur, hcount]
          simp only [lateLosses]
          grind
      | discarded =>
          rcases event_loss h .discarded (by decide) with ⟨hs, hr, hsur⟩
          rcases ih _ hs with ⟨hs', hsur'⟩
          refine ⟨hs', hsur'.trans ?_⟩
          rw [hr, hsur]
          simp only [lateLosses, receivedPackets, List.count_cons, beq_iff_eq, reduceCtorEq]
          grind
      | lost =>
          rcases event_loss h .lost (by decide) with ⟨hs, hr, hsur⟩
          rcases ih _ hs with ⟨hs', hsur'⟩
          refine ⟨hs', hsur'.trans ?_⟩
          rw [hr, hsur]
          simp only [lateLosses, receivedPackets, List.count_cons, beq_iff_eq, reduceCtorEq]
          grind

/-- The counts agree exactly when there are as many late losses as packets received. -/
theorem conserves_iff (es : List PacketEvent) :
    (create.events es).Conserves ↔ lateLosses 0 es = receivedPackets es := by
  rcases events_surplus es create steady_create with ⟨hs, hsur⟩
  have hcreate : create.surplus = 0 := rfl
  have hreceived : (create.events es).packetsReceivedInGap +
      (create.events es).packetsReceivedInBurst + (create.events es).packetsSinceLastLoss =
      (create.events es).packetsReceived := by
    rw [hs.inGap, hs.inBurst, hs.row]
    grind
  rw [hcreate] at hsur
  simp only [surplus] at hsur
  have hzero : create.packetsReceived = 0 := rfl
  rw [hzero] at hsur
  constructor
  · intro h
    have h1 := h.1
    grind
  · intro h
    refine ⟨?_, hreceived⟩
    grind

/-- A single packet is counted as lost in a burst. -/
theorem received_not_conserved : ¬(create.events [.received]).Conserves := by
  decide

end Metrics

end Rtp

end CryptoOpal

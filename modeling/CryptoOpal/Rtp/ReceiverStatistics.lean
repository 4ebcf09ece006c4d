import CryptoOpal.Lib.Transducer
import CryptoOpal.Rtp.Receiver

/-!
# The Statistics of a Receiver Report

`AddReceiverReport` tells a sender how many of its packets were lost since the
report before, and which number was the last. The extended number has 32 bits:
the 16 bits of the packets, and how often they went around. What is expected
is the difference of two of these, and what is lost is that less the packets
that have come.

The session counts in 16 bits, and has the number after the last one. It puts
the one of the report before into the report, and keeps the new one for the
next. So the last number is right when the highest number is the one that was
expected at the report before. Then the fraction is the low octet of a
multiple of 256, which is right when nothing is lost.

The jitter and the times of the sender's reports are left out.

## Main definitions

* `ReportBlock`: What is filled in.
* `ReportingSession`, `ReportingSession.addReceiverReport`: `AddReceiverReport`.
* `Heard`: What the packets of a source amount to.
* `Right`: The figures of a report are those.
* `ReportFits`: The condition on a report.

## Theorems

* `right_iff`: One report.
* `reports_right`: Every run.
-/

namespace CryptoOpal

namespace Rtp

open Lib (Octets run Along)

/-- `RTP_ControlFrame::ReceiverReport`. -/
structure ReportBlock where
  ssrc : UInt32
  fraction : UInt8
  lost : Octets
  lastSeq : UInt32
  deriving DecidableEq

/-- `SetLostPackets`. -/
def lostOctets (packets : UInt32) : Octets :=
  [(packets >>> 16).toUInt8, (packets >>> 8).toUInt8, packets.toUInt8]

/-- A session, and `lastRRSequenceNumber`. -/
structure ReportingSession where
  session : Session
  lastRRSequenceNumber : UInt16
  deriving DecidableEq

namespace ReportingSession

/-- The fraction that `AddReceiverReport` fills in. -/
def fraction (s : ReportingSession) : UInt8 :=
  if s.session.expectedSequenceNumber > s.lastRRSequenceNumber then
    ((s.session.packetsLostSinceLastRR <<< 8) /
      (s.session.expectedSequenceNumber - s.lastRRSequenceNumber).toUInt32).toUInt8
  else 0

/-- The session from which the next packets are counted. -/
def resetLost (s : Session) : Session := { s with packetsLostSinceLastRR := 0 }

/-- `AddReceiverReport`. -/
def addReceiverReport (s : ReportingSession) (packetsTooLate : UInt32) :
    ReportingSession × ReportBlock :=
  (⟨resetLost s.session, s.session.expectedSequenceNumber⟩,
    { ssrc := s.session.syncSourceIn
      fraction := s.fraction
      lost := lostOctets (s.session.packetsLost + packetsTooLate)
      -- This is before the number is set for the next report.
      lastSeq := s.lastRRSequenceNumber.toUInt32 })

end ReportingSession

/-- What has been received of a source. Numbers are extended ones, and -1 if there is none. -/
structure Heard where
  /-- The highest number. -/
  highest : Int
  /-- The highest number at the report before, or the one before the first. -/
  prior : Int
  /-- The packets since then. -/
  received : Int
  /-- The highest number in the report before, of any source. -/
  reported : Int
  deriving DecidableEq

namespace Heard

/-- Nothing yet. -/
def nothing : Heard := ⟨-1, -1, 0, -1⟩

/-- The extended number with these 16 bits that is next to the highest one. -/
def extended (g : Heard) (sequenceNumber : UInt16) : Int :=
  g.highest + Int.bmod (sequenceNumber.toNat - g.highest) 65536

/-- The first packet of a source. -/
def hearFirst (g : Heard) (sequenceNumber : UInt16) : Heard :=
  { g with highest := sequenceNumber.toNat, prior := sequenceNumber.toNat - 1, received := 1 }

/-- Another packet of the source. -/
def hearNext (g : Heard) (sequenceNumber : UInt16) : Heard :=
  { g with highest := max g.highest (g.extended sequenceNumber), received := g.received + 1 }

/-- The packets that are expected since the report before. -/
def expected (g : Heard) : Int := g.highest - g.prior

/-- The packets that were lost since then. -/
def lost (g : Heard) : Int := g.expected - g.received

/-- The fraction lost since the report before. -/
def fraction (g : Heard) : Int :=
  if 0 < g.expected ∧ 0 < g.lost then 256 * g.lost / g.expected else 0

/-- After a report. -/
def report (g : Heard) : Heard :=
  { g with prior := g.highest, received := 0, reported := g.highest }

end Heard

namespace Session

/-- The session takes packets of this type. -/
def TakesType (s : Session) (p : Packet) : Prop :=
  p.version = protocolVersion ∧ p.payloadType ≤ maxPayloadType ∧
    ((s.learnPayloadType p).lastReceivedPayloadType = p.payloadType ∨
      s.ignorePayloadTypeChanges = true)

instance (s : Session) (p : Packet) : Decidable (s.TakesType p) :=
  inferInstanceAs (Decidable (_ ∧ _))

/-- The packet is the first one of the session, or of another source that the session changes
to. -/
def HearsFirst (s : Session) (p : Packet) : Prop :=
  if s.packetsReceived = 0 then
    ¬ (p.payloadType = payloadTypeT38 ∧ p.sequenceNumber ≥ 0x8000 ∧ p.payload.length = 0)
  else p.syncSource ≠ (s.learnSyncSource p).syncSourceIn ∧
    (s.allowAnySyncSource = true ∨ s.allowOneSyncSourceChange = true)

instance (s : Session) (p : Packet) : Decidable (s.HearsFirst p) := by
  unfold HearsFirst
  infer_instance

/-- The packet is another one of the source. -/
def HearsNext (s : Session) (p : Packet) : Prop :=
  s.packetsReceived ≠ 0 ∧ p.syncSource = (s.learnSyncSource p).syncSourceIn

instance (s : Session) (p : Packet) : Decidable (s.HearsNext p) :=
  inferInstanceAs (Decidable (_ ∧ _))

/-- What has been received, with a packet from the network. -/
def hear (s : Session) (p : Packet) (g : Heard) : Heard :=
  -- Packets that the session refuses are not heard, packets that it saves are.
  if s.TakesType p then
    if s.HearsFirst p then g.hearFirst p.sequenceNumber
    else if s.HearsNext p then g.hearNext p.sequenceNumber
    else g
  else g

end Session

/-- What happens to a session that makes reports. -/
inductive ReportCall where
  | call (call : Call)
  | addReceiverReport (packetsTooLate : UInt32)
  deriving DecidableEq

namespace ReportingSession

/-- What has been received, after a call. -/
def heard (s : ReportingSession) (g : Heard) : Call → Heard
  | .readBufferedData => g
  | .packet p _ => s.session.hear p g

/-- A call, with what has been received: the report, if it is one. -/
def reportStep (st : ReportingSession × Heard) :
    ReportCall → (ReportingSession × Heard) × Option ReportBlock
  | .call call =>
    ((⟨(st.1.session.step call).1, st.1.lastRRSequenceNumber⟩, st.1.heard st.2 call), none)
  | .addReceiverReport packetsTooLate =>
    (((st.1.addReceiverReport packetsTooLate).1, st.2.report),
      some (st.1.addReceiverReport packetsTooLate).2)

/-- The figures of a report are right. Before the first packet, there is no last number. -/
def Right (g : Heard) (block : ReportBlock) : Prop :=
  (block.fraction.toNat : Int) = g.fraction ∧
    (0 ≤ g.highest → (block.lastSeq.toNat : Int) = g.highest)

instance (g : Heard) (block : ReportBlock) : Decidable (Right g block) :=
  inferInstanceAs (Decidable (_ ∧ _))

/-- The session expects the number after the highest one. -/
def InStep (st : ReportingSession × Heard) : Prop :=
  (st.1.session.expectedSequenceNumber.toNat : Int) = (st.2.highest + 1) % 65536

instance (st : ReportingSession × Heard) : Decidable (InStep st) :=
  inferInstanceAs (Decidable (_ = _))

/-- The highest number has gone up by one since the report before and has 16 bits, and there is
nothing lost to speak of. -/
def OneMore (g : Heard) : Prop :=
  0 ≤ g.highest → g.highest = (g.reported + 1) % 65536 ∧ g.fraction = 0

instance (g : Heard) : Decidable (OneMore g) := inferInstanceAs (Decidable (_ → _))

/-- The condition on a report. -/
def ReportFits (st : ReportingSession × Heard) : ReportCall → Prop
  | .call _ => True
  | .addReceiverReport _ => InStep st ∧ OneMore st.2

instance (st : ReportingSession × Heard) (call : ReportCall) : Decidable (ReportFits st call) := by
  cases call <;> unfold ReportFits <;> infer_instance

/-- What is kept for the next report is the number that was expected at the one before. Numbers are
negative until the first packet. -/
structure Kept (st : ReportingSession × Heard) : Prop where
  last : (st.1.lastRRSequenceNumber.toNat : Int) = (st.2.reported + 1) % 65536
  unheard : st.2.highest < 0 → st.2.highest = -1 ∧ st.2.reported = -1 ∧ st.2.prior = -1

section Reports

variable {s : ReportingSession} {g : Heard}

/-- The low octet of a multiple of 256. -/
theorem shiftLeft_toUInt8 (x : UInt32) : (x <<< 8).toUInt8 = 0 := by
  refine UInt8.toNat_inj.1 ?_
  rw [UInt32.toNat_toUInt8, UInt32.toNat_shiftLeft]
  change x.toNat <<< 8 % 4294967296 % 256 = 0
  rw [Nat.shiftLeft_eq]
  omega

/-- The fraction is none when no more than one number has gone by. -/
theorem fraction_eq_zero (h : s.session.expectedSequenceNumber.toNat ≤
    s.lastRRSequenceNumber.toNat + 1) : s.fraction = 0 := by
  unfold fraction
  split
  · rename_i hlt
    rw [gt_iff_lt, UInt16.lt_iff_toNat_lt] at hlt
    have hone : s.session.expectedSequenceNumber - s.lastRRSequenceNumber = 1 := by
      refine UInt16.toNat_inj.1 ?_
      rw [UInt16.toNat_sub_of_le _ _ (UInt16.le_iff_toNat_le.2 (Nat.le_of_lt hlt))]
      change _ = 1
      omega
    rw [hone]
    change ((s.session.packetsLostSinceLastRR <<< 8) / 1).toUInt8 = 0
    rw [UInt32.div_one]
    exact shiftLeft_toUInt8 _
  · rfl

/-- A report of a session that is in step. -/
theorem right_iff {packetsTooLate : UInt32} (hkept : Kept (s, g)) (hstep : InStep (s, g)) :
    Right g (s.addReceiverReport packetsTooLate).2 ↔ OneMore g := by
  have hlast : (s.lastRRSequenceNumber.toNat : Int) = (g.reported + 1) % 65536 := hkept.last
  have hexpected : (s.session.expectedSequenceNumber.toNat : Int) = (g.highest + 1) % 65536 :=
    hstep
  have hseq : (s.addReceiverReport packetsTooLate).2.lastSeq.toNat =
      s.lastRRSequenceNumber.toNat := UInt16.toNat_toUInt32 _
  change ((s.fraction.toNat : Int) = g.fraction ∧ (0 ≤ g.highest →
    ((s.addReceiverReport packetsTooLate).2.lastSeq.toNat : Int) = g.highest)) ↔ _
  rw [hseq]
  rcases Int.lt_or_le g.highest 0 with hnone | hsome
  · -- Nothing has come yet, and nothing is expected.
    rcases hkept.unheard hnone with ⟨hhighest, hreported, hprior⟩
    change g.highest = -1 at hhighest
    change g.prior = -1 at hprior
    have hzero : s.fraction = 0 := by
      refine fraction_eq_zero ?_
      rw [hhighest] at hexpected
      omega
    have hfraction : g.fraction = 0 := by
      rw [Heard.fraction, Heard.expected, hhighest, hprior]
      exact if_neg (fun hpos => absurd hpos.1 (by decide))
    rw [hzero, hfraction]
    exact iff_of_true ⟨rfl, fun hheard => absurd hheard (Int.not_le.2 hnone)⟩
      fun hheard => absurd hheard (Int.not_le.2 hnone)
  · -- Once the last number is right, the next one is expected.
    have hzero : (s.lastRRSequenceNumber.toNat : Int) = g.highest → s.fraction = 0 := by
      intro heq
      refine fraction_eq_zero ?_
      omega
    constructor
    · rintro ⟨hfraction, hhighest⟩ -
      rw [hzero (hhighest hsome)] at hfraction
      exact ⟨(hhighest hsome).symm.trans hlast, hfraction.symm⟩
    · intro hmore
      rcases hmore hsome with ⟨hhighest, hfraction⟩
      have heq : (s.lastRRSequenceNumber.toNat : Int) = g.highest := hlast.trans hhighest.symm
      rw [hzero heq, hfraction]
      exact ⟨rfl, fun _ => heq⟩

/-- A packet, heard or not, does not change what was reported. -/
theorem unheard_hear {session : Session} {p : Packet}
    (h : g.highest < 0 → g.highest = -1 ∧ g.reported = -1 ∧ g.prior = -1) :
    (session.hear p g).reported = g.reported ∧ ((session.hear p g).highest < 0 →
      (session.hear p g).highest = -1 ∧ (session.hear p g).reported = -1 ∧
        (session.hear p g).prior = -1) := by
  unfold Session.hear
  split
  · split
    · refine ⟨rfl, fun hneg => ?_⟩
      change (p.sequenceNumber.toNat : Int) < 0 at hneg
      omega
    · split
      · refine ⟨rfl, fun hneg => ?_⟩
        change max g.highest (g.extended p.sequenceNumber) < 0 at hneg
        have hold := h (by omega)
        refine ⟨?_, hold.2⟩
        change max g.highest (g.extended p.sequenceNumber) = -1
        omega
      · exact ⟨rfl, h⟩
  · exact ⟨rfl, h⟩

/-- A call. -/
theorem kept_reportStep {call : ReportCall} (h : Kept (s, g)) (hfits : ReportFits (s, g) call) :
    Kept (reportStep (s, g) call).1 := by
  cases call with
  | call call =>
      cases call with
      | readBufferedData => exact ⟨h.last, h.unheard⟩
      | packet p tick =>
          have hheard := @unheard_hear g s.session p h.unheard
          refine ⟨?_, hheard.2⟩
          change (s.lastRRSequenceNumber.toNat : Int) = ((s.session.hear p g).reported + 1) % 65536
          rw [hheard.1]
          exact h.last
  | addReceiverReport packetsTooLate =>
      -- The session is in step, so what it keeps is the number after the one reported.
      exact ⟨hfits.1, fun hneg => ⟨(h.unheard hneg).1, (h.unheard hneg).1, (h.unheard hneg).1⟩⟩

/-- The figures of all reports are right. -/
def ReportsRight (s : Session) (calls : List ReportCall) : Prop :=
  ∀ x ∈ run reportStep (⟨s, 0⟩, Heard.nothing) calls, ∀ block ∈ x.output, Right x.before.2 block

instance (s : Session) (calls : List ReportCall) : Decidable (ReportsRight s calls) :=
  inferInstanceAs (Decidable (∀ x ∈ run reportStep (⟨s, 0⟩, Heard.nothing) calls,
    ∀ block ∈ x.output, Right x.before.2 block))

/-- The figures are right in every run in which the session is in step at the reports, and one more
packet has come for each of them. -/
theorem reports_right {session : Session} {calls : List ReportCall}
    (h : Along reportStep ReportFits (⟨session, 0⟩, Heard.nothing) calls) :
    ReportsRight session calls := by
  have hstart : Kept (⟨session, 0⟩, Heard.nothing) := ⟨rfl, fun _ => ⟨rfl, rfl, rfl⟩⟩
  refine Lib.run_invariant Kept (fun st call hst hfits => kept_reportStep hst hfits)
    (fun st call hst hfits => ?_) _ _ hstart h
  cases call with
  | call call => exact fun block hblock => (nomatch hblock)
  | addReceiverReport packetsTooLate =>
      intro block hblock
      rcases Option.mem_some.1 hblock with rfl
      exact (right_iff hst hfits.1).2 hfits.2

/-- A report after each of these packets. -/
def reportEach (sequenceNumbers : List UInt16) : List ReportCall :=
  sequenceNumbers.flatMap fun sequenceNumber =>
    [.call (.packet (samplePacket sequenceNumber) 0), .addReceiverReport 0]

/-- The reports on packets from 0 on are right. -/
theorem first_packets_right : ReportsRight Session.new (reportEach [0, 1, 2]) :=
  reports_right (by decide +kernel)

/-- The report on the packets 10 and 11 has the last number 0. -/
theorem report_behind : ¬ ReportsRight Session.new
    [.call (.packet (samplePacket 10) 0), .call (.packet (samplePacket 11) 0),
      .addReceiverReport 0] := by
  decide +kernel

end Reports

end ReportingSession

end Rtp

end CryptoOpal

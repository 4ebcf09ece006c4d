import CryptoOpal.Lib.Octets

/-!
# Receiving RTP Packets in Sequence

`RTP_Session::OnReceiveData` and `RTP_Session::ReadBufferedData`: which of the
received packets go to the application, and when.

A packet with the expected sequence number is delivered at once. One from
further ahead is saved until the packets before it have come, or until the
first of the saved packets has waited too long; then the lowest of them is
delivered and the ones before it count as lost. One from behind is ignored,
unless there have been too many of them, which is taken for a restart of the
sender.

The list of saved packets is kept as in the source: the highest number is at
the front, and the next packet to deliver at the back.

The statistics of the session that nothing here reads are left out, and so
are the filters that an application can install on received packets.

## Main definitions

* `Packet`: What the receiver reads of a packet.
* `Session`: The part of `RTP_Session` that decides on a packet.
* `saveOutOfOrderPacket`: `SaveOutOfOrderPacket`.
* `Session.onReceiveData`: `OnReceiveData`.
* `Session.readSaved`: The part of `ReadBufferedData` that does not read.
* `Call`, `Session.step`: A call and what it does.
-/

namespace CryptoOpal

namespace Rtp

open Lib (Octets)

/-- An `RTP_DataFrame` as the receiver sees it. -/
structure Packet where
  version : Nat
  payloadType : Nat
  sequenceNumber : UInt16
  syncSource : UInt32
  payload : Octets
  deriving DecidableEq

/-- `RTP_DataFrame::ProtocolVersion`. -/
def protocolVersion : Nat := 2

/-- `RTP_DataFrame::T38`. -/
def payloadTypeT38 : Nat := 38

/-- `RTP_DataFrame::MaxPayloadType`. -/
def maxPayloadType : Nat := 127

/-- `RTP_DataFrame::IllegalPayloadType`. -/
def illegalPayloadType : Nat := 128

/-- `RTP_Session`. Times are in milliseconds. -/
structure Session where
  syncSourceIn : UInt32
  allowAnySyncSource : Bool
  allowOneSyncSourceChange : Bool
  allowSequenceChange : Bool
  ignorePayloadTypeChanges : Bool
  lastReceivedPayloadType : Nat
  expectedSequenceNumber : UInt16
  consecutiveOutOfOrderPackets : UInt32
  resequenceOutOfOrderPackets : Bool
  outOfOrderWaitTime : Int
  outOfOrderPacketTime : Int
  outOfOrderPackets : List Packet
  packetsReceived : UInt32
  packetsLost : UInt32
  packetsLostSinceLastRR : UInt32
  packetsOutOfOrder : UInt32
  deriving DecidableEq

/-- `SaveOutOfOrderPacket`: before the first packet with a lower number. -/
def saveOutOfOrderPacket (p : Packet) : List Packet → List Packet
  | [] => [p]
  | q :: l =>
    if p.sequenceNumber > q.sequenceNumber then p :: q :: l else q :: saveOutOfOrderPacket p l

/-- Nothing else is saved with a packet. -/
theorem mem_saveOutOfOrderPacket {p q : Packet} {l : List Packet}
    (h : q ∈ saveOutOfOrderPacket p l) : q = p ∨ q ∈ l := by
  induction l with
  | nil => exact Or.inl (List.mem_singleton.mp h)
  | cons r l ih =>
      rw [saveOutOfOrderPacket] at h
      split at h
      · exact List.mem_cons.mp h
      · rcases List.mem_cons.mp h with rfl | h
        · exact Or.inr List.mem_cons_self
        · exact (ih h).imp id (List.mem_cons_of_mem r)

/-- The saved packets from the back on, without the ones that come before the
    expected number. -/
def skipLate (expected : UInt16) (l : List Packet) : List Packet :=
  l.reverse.dropWhile fun q => q.sequenceNumber < expected

namespace Session

/-- The constructor, with the default of `OPAL_RTP_OUT_OF_ORDER_TIME`. -/
def new : Session :=
  { syncSourceIn := 0
    allowAnySyncSource := true
    allowOneSyncSourceChange := false
    allowSequenceChange := false
    ignorePayloadTypeChanges := true
    lastReceivedPayloadType := illegalPayloadType
    expectedSequenceNumber := 0
    consecutiveOutOfOrderPackets := 0
    resequenceOutOfOrderPackets := true
    outOfOrderWaitTime := 100
    outOfOrderPacketTime := 0
    outOfOrderPackets := []
    packetsReceived := 0
    packetsLost := 0
    packetsLostSinceLastRR := 0
    packetsOutOfOrder := 0 }

/-- The payload type that the session goes by. -/
def learnPayloadType (s : Session) (p : Packet) : Session :=
  if s.lastReceivedPayloadType = illegalPayloadType then
    { s with lastReceivedPayloadType := p.payloadType }
  else s

/-- Have not got SSRC yet, so grab it now. -/
def learnSyncSource (s : Session) (p : Packet) : Session :=
  if s.syncSourceIn = 0 then { s with syncSourceIn := p.syncSource } else s

/-- Another SSRC than the session's is ignored, or taken over for this once or
    for good. -/
def checkSyncSource (s : Session) (p : Packet) : Session × Bool :=
  if p.syncSource ≠ s.syncSourceIn then
    if s.allowAnySyncSource then
      ({ s with syncSourceIn := p.syncSource, allowSequenceChange := true }, true)
    else if s.allowOneSyncSourceChange then
      ({ s with
          syncSourceIn := p.syncSource
          allowSequenceChange := true
          allowOneSyncSourceChange := false }, true)
    else (s, false)
  else (s, true)

/-- The end of a call that processes a packet. -/
def deliver (s : Session) (p : Packet) : Session × Option Packet :=
  ({ s with packetsReceived := s.packetsReceived + 1 }, some p)

/-- The first packet. One that was left over from a switch to T.38 is ignored. -/
def receiveFirst (s : Session) (p : Packet) : Session × Option Packet :=
  if p.payloadType = payloadTypeT38 ∧ p.sequenceNumber ≥ 0x8000 ∧ p.payload.length = 0 then
    (s, none)
  else { s with expectedSequenceNumber := p.sequenceNumber + 1 }.deliver p

/-- The packet with the expected number. -/
def receiveExpected (s : Session) (p : Packet) (tick : Int) : Session × Option Packet :=
  let s :=
    { s with
      expectedSequenceNumber := s.expectedSequenceNumber + 1
      consecutiveOutOfOrderPackets := 0 }
  let s :=
    if s.outOfOrderPackets ≠ [] then
      { s with outOfOrderPacketTime := tick, packetsOutOfOrder := s.packetsOutOfOrder + 1 }
    else s
  s.deliver p

/-- Any packet, once the sequence may change. -/
def receiveChanged (s : Session) (p : Packet) : Session × Option Packet :=
  { s with
    expectedSequenceNumber := p.sequenceNumber + 1
    allowSequenceChange := false
    outOfOrderPackets := [] }.deliver p

/-- A packet from before the expected number. Sequence numbers may suddenly
    start incrementing from a different base. -/
def receiveLate (s : Session) (p : Packet) : Session × Option Packet :=
  let s := { s with consecutiveOutOfOrderPackets := s.consecutiveOutOfOrderPackets + 1 }
  if s.consecutiveOutOfOrderPackets > 10 then
    { s with expectedSequenceNumber := p.sequenceNumber + 1 }.deliver p
  else if s.resequenceOutOfOrderPackets then (s, none)
  else { s with packetsOutOfOrder := s.packetsOutOfOrder + 1 }.deliver p

/-- Maybe packet lost, maybe out of order, save for now. -/
def receiveEarly (s : Session) (p : Packet) (tick : Int) : Session × Option Packet :=
  let s := if s.outOfOrderPackets = [] then { s with outOfOrderPacketTime := tick } else s
  ({ s with outOfOrderPackets := saveOutOfOrderPacket p s.outOfOrderPackets }, none)

/-- Go on with a packet, and count the ones before it as lost. -/
def receiveAfterLoss (s : Session) (p : Packet) : Session × Option Packet :=
  let dropped := (p.sequenceNumber - s.expectedSequenceNumber).toUInt32
  { s with
    packetsLost := s.packetsLost + dropped
    packetsLostSinceLastRR := s.packetsLostSinceLastRR + dropped
    expectedSequenceNumber := p.sequenceNumber + 1
    consecutiveOutOfOrderPackets := 0 }.deliver p

/-- Give up on the expected packet. Save the current one and switch in the
    lowest numbered one. -/
def receiveGivenUp (s : Session) (p : Packet) (tick : Int) : Session × Option Packet :=
  if s.outOfOrderPackets ≠ [] then
    match skipLate s.expectedSequenceNumber (saveOutOfOrderPacket p s.outOfOrderPackets) with
    | [] => ({ s with outOfOrderPackets := [] }, none)
    | q :: rest =>
      { s with outOfOrderPackets := rest.reverse, outOfOrderPacketTime := tick }.receiveAfterLoss q
  else s.receiveAfterLoss p

/-- A packet is saved, since none is waiting or the first of them has not
    waited for too long. -/
def Saves (s : Session) (tick : Int) : Prop :=
  s.resequenceOutOfOrderPackets = true ∧
    (s.outOfOrderPackets = [] ∨ tick - s.outOfOrderPacketTime < s.outOfOrderWaitTime)

instance (s : Session) (tick : Int) : Decidable (s.Saves tick) :=
  inferInstanceAs (Decidable (_ ∧ _))

/-- A packet of the session's source, by its sequence number. -/
def receiveNext (s : Session) (p : Packet) (tick : Int) : Session × Option Packet :=
  if p.sequenceNumber = s.expectedSequenceNumber then s.receiveExpected p tick
  else if s.allowSequenceChange then s.receiveChanged p
  else if p.sequenceNumber < s.expectedSequenceNumber then s.receiveLate p
  else if s.Saves tick then s.receiveEarly p tick
  else s.receiveGivenUp p tick

/-- `OnReceiveData`, at a time: the packet that is delivered, if any. -/
def onReceiveData (s : Session) (p : Packet) (tick : Int) : Session × Option Packet :=
  if p.version ≠ protocolVersion then (s, none)
  else
    let s := s.learnPayloadType p
    if s.lastReceivedPayloadType ≠ p.payloadType ∧ s.ignorePayloadTypeChanges = false then
      (s, none)
    else if p.payloadType > maxPayloadType then (s, none)
    else
      let s := s.learnSyncSource p
      if s.packetsReceived = 0 then s.receiveFirst p
      else
        match s.checkSyncSource p with
        | (s, false) => (s, none)
        | (s, true) => s.receiveNext p tick

/-- What `ReadBufferedData` does before it goes on to read: the packet at the
    back, if it has the expected number. -/
def readSaved (s : Session) : Session × Option Packet :=
  match s.outOfOrderPackets.getLast? with
  | none => (s, none)
  | some q =>
    if q.sequenceNumber ≠ s.expectedSequenceNumber then (s, none)
    else
      ({ s with
          outOfOrderPackets := s.outOfOrderPackets.dropLast
          expectedSequenceNumber := q.sequenceNumber + 1 }, some q)

end Session

/-- What happens to a session: the application asks for a packet, or one comes
    in from the network. -/
inductive Call where
  | readBufferedData
  | packet (p : Packet) (tick : Int)
  deriving DecidableEq

/-- The session after a call, and the packet that the application gets. -/
def Session.step (s : Session) : Call → Session × Option Packet
  | .readBufferedData => s.readSaved
  | .packet p tick => s.onReceiveData p tick

/-- A PCMA packet of SSRC 1 with no payload. -/
def samplePacket (sequenceNumber : UInt16) : Packet :=
  { version := 2
    payloadType := 8
    sequenceNumber := sequenceNumber
    syncSource := 1
    payload := [] }

end Rtp

end CryptoOpal

import CryptoOpal.T38.Udptl

/-!
# Frames from UDPTL

A packet whose sequence number is beyond the expected one says that packets are
missing, and their payloads may be among its secondaries. Then it gives several
frames, the oldest first, one at each call: the receiver counts down from the
oldest secondary that is needed to the primary.

How a packet is decoded is not the subject here: it is a parameter. A datagram is
read into a buffer of 500 octets. A packet with forward error correction counts as
one without secondaries.

## Main definitions

* `Receiver`: What the receiver keeps.
* `Receiver.readDataPdu`: The next frame, if there is one.
* `reads`: The frames of so many calls.
-/

namespace CryptoOpal

namespace T38

open Lib (Octets)

/-- The receiving side of the `T38PseudoRTP_Handler`. -/
structure Receiver where
  consecutiveBadPackets : Nat
  awaitingGoodPacket : Bool
  receivedPacket : UdptlPacket
  expectedSequenceNumber : Nat
  secondaryPacket : Int
  deriving DecidableEq

/-- `SendReceiveStatus`, with the frame that is there to be processed. -/
inductive ReadResult where
  | processPacket (frame : Frame)
  | ignorePacket
  | abortTransport
  deriving DecidableEq

/-- An `unsigned`. -/
def unsigned32 (x : Int) : Nat := (x % 2 ^ 32).toNat

namespace Receiver

variable (s : Receiver)

/-- `OnStart`. -/
def onStart : Receiver where
  consecutiveBadPackets := 0
  awaitingGoodPacket := true
  receivedPacket := ⟨0, [], []⟩
  expectedSequenceNumber := 0
  secondaryPacket := -1

/-- `SetFrameFromIFP`. -/
def setFrameFromIfp (ifp : Octets) (sequenceNumber : Nat) : Receiver × Frame :=
  (if s.secondaryPacket ≤ 0 then
      { s with expectedSequenceNumber := unsigned32 (sequenceNumber + 1) }
    else
      s,
    ⟨UInt16.ofNat sequenceNumber, ifp⟩)

/-- A payload of the packet that is there: the primary, or a secondary counted
from 1. Then one less is to be given. -/
def giveFrame : Receiver × ReadResult :=
  let packet := s.receivedPacket
  let given := s.setFrameFromIfp
    (if s.secondaryPacket = 0 then packet.primaryIfpPacket
      else packet.secondaryIfpPackets.getD (s.secondaryPacket - 1).toNat [])
    (unsigned32 (packet.seqNumber.toNat - s.secondaryPacket))
  ({ given.1 with secondaryPacket := s.secondaryPacket - 1 }, .processPacket given.2)

/-- A packet that is not taken for one. -/
def badPacket : Receiver × ReadResult :=
  ({ s with consecutiveBadPackets := s.consecutiveBadPackets + 1 },
    if 1000 < s.consecutiveBadPackets + 1 then .abortTransport else .ignorePacket)

/-- A packet that was received, in `ReadDataPDU`. -/
def goodPacket : Receiver × ReadResult :=
  let s := { s with awaitingGoodPacket := false, consecutiveBadPackets := 0 }
  let packet := s.receivedPacket
  let missing := int32 (packet.seqNumber.toNat - s.expectedSequenceNumber)
  if 0 < missing ∧ 0 < packet.secondaryIfpPackets.length then
    { s with secondaryPacket := min missing packet.secondaryIfpPackets.length }.giveFrame
  else
    let given := s.setFrameFromIfp packet.primaryIfpPacket packet.seqNumber.toNat
    ({ given.1 with expectedSequenceNumber := packet.seqNumber.toNat + 1 }, .processPacket given.2)

/-- A datagram, in `ReadDataPDU`. What a packet that cannot be decoded leaves behind
is not looked at any more. -/
def readDatagram (decode : Octets → Option UdptlPacket) (data : Octets) : Receiver × ReadResult :=
  (decode (data.take 500)).elim s.badPacket fun packet =>
    if s.awaitingGoodPacket = true ∧ 32768 ≤ packet.seqNumber.toNat then
      { s with receivedPacket := packet }.badPacket
    else
      { s with receivedPacket := packet }.goodPacket

/-- `ReadDataPDU`, with the datagrams that are there to be read. -/
def readDataPdu (decode : Octets → Option UdptlPacket) (socket : List Octets) :
    (Receiver × List Octets) × ReadResult :=
  if 0 ≤ s.secondaryPacket then
    ((s.giveFrame.1, socket), s.giveFrame.2)
  else
    match socket with
    | [] => ((s, []), .ignorePacket)
    | data :: socket =>
      (((s.readDatagram decode data).1, socket), (s.readDatagram decode data).2)

end Receiver

/-- The frame that a call returns. -/
def ReadResult.frame? : ReadResult → Option Frame
  | .processPacket frame => some frame
  | .ignorePacket => none
  | .abortTransport => none

/-- The frames that so many calls return. -/
def reads (decode : Octets → Option UdptlPacket) : Nat → Receiver → List Octets → List Frame
  | 0, _, _ => []
  | n + 1, s, socket =>
    (s.readDataPdu decode socket).2.frame?.toList ++
      reads decode n (s.readDataPdu decode socket).1.1 (s.readDataPdu decode socket).1.2

end T38

end CryptoOpal

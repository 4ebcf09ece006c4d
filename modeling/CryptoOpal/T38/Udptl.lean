import CryptoOpal.Lib.Octets
import CryptoOpal.Lib.Transducer
import Mathlib.Data.List.DropRight

/-!
# Fax over UDPTL

A UDPTL packet carries the payload of one frame and repeats those of frames
before it. The sender keeps the packet it sent last. For a new frame the old
primary becomes the first secondary, and a list of counts says how often the
payloads in the packet are still to be repeated: each time a packet goes out all
counts go down, and those at the end that are used up are taken off. The packet
may also be sent again while there is nothing new.

How often a payload is repeated depends on its size, by a table. Whether a packet
that is sent again may already be without what is used up is an option.

## Main definitions

* `UdptlPacket`: A packet.
* `Sender`: What the sender keeps, and its options.
* `Sender.writeDataPdu`, `Sender.onWriteDataIdle`: A new frame, and nothing new.
* `Sending`: The sender, and the frames that were written.
-/

namespace CryptoOpal

namespace T38

open Lib (Octets)

/-- `MaximumArraySize`. -/
def maximumArraySize : Nat := 128

/-- `MaximumStringSize`. -/
def maximumStringSize : Nat := 16384

/-- `T38_UDPTLPacket`, with secondary packets for the error recovery. -/
structure UdptlPacket where
  seqNumber : UInt16
  primaryIfpPacket : Octets
  secondaryIfpPackets : List Octets
  deriving DecidableEq

/-- A frame of the media stream. -/
structure Frame where
  sequenceNumber : UInt16
  payload : Octets
  deriving DecidableEq

/-- An `int`. -/
def int32 (x : Int) : Int := x.bmod (2 ^ 32)

/-- `SetSize` of an array. It does nothing when there is no room. -/
def setArraySize (secondary : List Octets) (newSize : Nat) : List Octets :=
  if maximumArraySize < newSize then secondary
  else secondary.take newSize ++ List.replicate (newSize - secondary.length) []

/-- `SetValue` of an octet string. It does nothing when the value is too long. -/
def setValue (old data : Octets) : Octets :=
  if maximumStringSize < data.length then old else data

/-- The sending side of the `T38PseudoRTP_Handler`: the table by size in the order
of its keys, the option, the packet and the counts. -/
structure Sender where
  redundancy : List (Int × Int)
  optimiseOnRetransmit : Bool
  sentPacket : UdptlPacket
  sentPacketRedundancy : List Int
  deriving DecidableEq

namespace Sender

variable (s : Sender)

/-- `OnStart`. The sequence number is the last one, and not -1. -/
def onStart (redundancy : List (Int × Int)) (optimiseOnRetransmit : Bool) : Sender where
  redundancy := redundancy
  optimiseOnRetransmit := optimiseOnRetransmit
  sentPacket := ⟨0xffff, [], []⟩
  sentPacketRedundancy := []

/-- `DecrementSentPacketRedundancy`. All counts go down, and those at the end that
are used up are taken off. -/
def decrementSentPacketRedundancy (stripRedundancy : Bool) : Sender :=
  let counts := (s.sentPacketRedundancy.map fun count => int32 (count - 1)).rdropWhile
    fun count => decide (count ≤ 0)
  { s with
    sentPacketRedundancy := counts
    sentPacket :=
      if stripRedundancy then
        { s.sentPacket with
          secondaryIfpPackets := setArraySize s.sentPacket.secondaryIfpPackets (counts.length - 1) }
      else
        s.sentPacket }

/-- The old primary becomes the first secondary, in `WriteDataPDU`. -/
def shift (packet : UdptlPacket) : UdptlPacket :=
  if maximumArraySize < packet.secondaryIfpPackets.length + 1 then
    packet
  else
    { packet with
      primaryIfpPacket := []
      secondaryIfpPackets := packet.primaryIfpPacket :: packet.secondaryIfpPackets }

/-- How often a payload of this size is repeated, in `WriteDataPDU`. -/
def newRedundancy (plLen : Nat) : Int :=
  match s.redundancy.find? fun entry => decide ((plLen : Int) ≤ entry.1) with
  | some entry => max 0 entry.2
  | none => 0

/-- A new frame is put into the packet, in `WriteDataPDU`. -/
def put (frame : Frame) : Sender :=
  let shifted := if s.sentPacketRedundancy = [] then s.sentPacket else shift s.sentPacket
  let redundancy := s.newRedundancy frame.payload.length
  { s with
    sentPacketRedundancy :=
      if 0 < redundancy ∨ s.sentPacketRedundancy ≠ [] then
        int32 (redundancy + 1) :: s.sentPacketRedundancy
      else
        s.sentPacketRedundancy
    sentPacket :=
      { shifted with
        seqNumber := frame.sequenceNumber
        primaryIfpPacket := setValue shifted.primaryIfpPacket frame.payload } }

/-- `WriteDataPDU`: what the sender keeps, and the packet it sends. -/
def writeDataPdu (frame : Frame) : Sender × Option UdptlPacket :=
  if frame.payload = [] then
    (s, none)
  else
    ((s.put frame).decrementSentPacketRedundancy true, some (s.put frame).sentPacket)

/-- `OnWriteDataIdle`. -/
def onWriteDataIdle : Sender × Option UdptlPacket :=
  (s.decrementSentPacketRedundancy s.optimiseOnRetransmit, some s.sentPacket)

end Sender

/-- What makes the sender send. -/
inductive Action where
  | write (frame : Frame)
  | idle
  deriving DecidableEq

/-- The sender, and the frames that were written, the last one first. -/
structure Sending where
  sender : Sender
  frames : List Frame
  deriving DecidableEq

/-- One action, and the packet it sends. -/
def Sending.step (s : Sending) : Action → Sending × Option UdptlPacket
  | .write frame => (⟨(s.sender.writeDataPdu frame).1, frame :: s.frames⟩,
      (s.sender.writeDataPdu frame).2)
  | .idle => (⟨s.sender.onWriteDataIdle.1, s.frames⟩, s.sender.onWriteDataIdle.2)

end T38

end CryptoOpal

import CryptoOpal.Lib.Lossy

/-!
# Full Frames of IAX2

The full frames of a call are numbered, one by one, except for acks and vnaks. A
frame has eight bits of the number of its own and of the number that its sender
expects next. Each side counts on without a bound, and a frame with the expected
number is processed. One with a smaller number is acknowledged again and dropped,
and one with a greater number is dropped and answered with a vnak, which asks for
the frames that are missing.

A vnak has the number that its sender expects where other frames have their own. It
is looked at like any other frame.

The frames are sent over a network that may lose, repeat and delay them. What a
side processed and what it acknowledged is kept beside the state.

## Main definitions

* `SequenceNumbers`: `IAX2SequenceNumbers`.
* `SequenceNumbers.massageSequenceForSending`: The numbers of a frame that is sent.
* `SequenceNumbers.incomingMessageInOrder`: What becomes of a frame.
* `callProcessor`: The program of both sides.
-/

namespace CryptoOpal

namespace Iax2

/-- The full frames that are told apart. -/
inductive FrameKind where
  | ack
  | vnak
  | hangup
  | other
  deriving DecidableEq

/-- A full frame with the numbers in its header. A new frame, a pong and a lagrp
keep their time stamp. -/
structure FullFrame where
  kind : FrameKind
  keepsTimeStamp : Bool
  timeStamp : Nat
  inSeqNo : UInt8
  outSeqNo : UInt8
  deriving DecidableEq

/-- `IAX2SequenceNumbers`. -/
structure SequenceNumbers where
  inSeqNo : Nat
  outSeqNo : Nat
  lastSentTimeStamp : Nat
  deriving DecidableEq

/-- `IncomingOrder`. -/
inductive IncomingOrder where
  | inSequence
  | skippedFrame
  | repeatedFrame
  deriving DecidableEq

/-- `minSpacing`. -/
def minSpacing : Nat := 3

namespace SequenceNumbers

variable (s : SequenceNumbers)

/-- `ZeroAllValues`. -/
def zeroAllValues : SequenceNumbers := ⟨0, 0, 0⟩

/-- `MassageSequenceForSending`. -/
def massageSequenceForSending (src : FullFrame) : SequenceNumbers × FullFrame :=
  if src.kind = .ack then
    (s, { src with inSeqNo := UInt8.ofNat s.inSeqNo })
  else
    let timeStamp :=
      if src.timeStamp < s.lastSentTimeStamp + minSpacing ∧ src.keepsTimeStamp = false then
        s.lastSentTimeStamp + minSpacing
      else
        src.timeStamp
    if src.kind = .vnak then
      ({ s with lastSentTimeStamp := timeStamp },
        { src with
          timeStamp := timeStamp
          inSeqNo := UInt8.ofNat s.inSeqNo
          outSeqNo := UInt8.ofNat s.inSeqNo })
    else
      ({ s with lastSentTimeStamp := timeStamp, outSeqNo := s.outSeqNo + 1 },
        { src with
          timeStamp := timeStamp
          inSeqNo := UInt8.ofNat s.inSeqNo
          outSeqNo := UInt8.ofNat s.outSeqNo })

/-- `IncomingMessageInOrder`. -/
def incomingMessageInOrder (src : FullFrame) : SequenceNumbers × IncomingOrder :=
  if src.kind = .ack then
    (s, .inSequence)
  else if src.kind = .hangup then
    (s, .inSequence)
  else if s.inSeqNo &&& 0xff = src.outSeqNo.toNat then
    ({ s with inSeqNo := s.inSeqNo + 1 }, .inSequence)
  else if src.outSeqNo.toNat < s.inSeqNo &&& 0xff then
    (s, .repeatedFrame)
  else
    (s, .skippedFrame)

end SequenceNumbers

/-- A frame on the network, and how many frames that need delivery its sender had
sent before it. -/
structure Sent where
  frame : FullFrame
  number : Nat
  deriving DecidableEq

/-- A call processor, and the numbers of the frames that were given to
`ProcessFullFrame`, and of those that were acknowledged, the last one first. -/
structure CallProcessor where
  sequence : SequenceNumbers
  processed : List Nat
  acknowledged : List Nat
  deriving DecidableEq

namespace CallProcessor

variable (s : CallProcessor)

/-- `TransmitFrameToRemoteEndpoint`. -/
def transmit (src : FullFrame) : CallProcessor × List Sent :=
  let massaged := s.sequence.massageSequenceForSending src
  ({ s with sequence := massaged.1 }, [⟨massaged.2, s.sequence.outSeqNo⟩])

/-- `SendAckFrame`. -/
def sendAckFrame (inReplyTo : Sent) : CallProcessor × List Sent :=
  let acknowledging : CallProcessor :=
    { s with
      acknowledged :=
        if inReplyTo.frame.kind = .other then inReplyTo.number :: s.acknowledged
        else s.acknowledged }
  acknowledging.transmit ⟨.ack, false, inReplyTo.frame.timeStamp, 0, inReplyTo.frame.inSeqNo⟩

/-- `SendVnakFrame`. -/
def sendVnakFrame (inReplyTo : Sent) : CallProcessor × List Sent :=
  s.transmit ⟨.vnak, false, inReplyTo.frame.timeStamp, 0, 0⟩

/-- A frame that needs delivery is given to `ProcessFullFrame`, which may
acknowledge it. -/
def processFullFrame (acknowledges : Bool) (f : Sent) : CallProcessor × List Sent :=
  if f.frame.kind = .other then
    let processed := { s with processed := f.number :: s.processed }
    if acknowledges then processed.sendAckFrame f else (processed, [])
  else
    (s, [])

/-- `ProcessOneIncomingEthernetFrame` for a full frame, with
`IncomingMessageOutOfOrder`. -/
def processOneIncomingFrame (acknowledges : Bool) (f : Sent) : CallProcessor × List Sent :=
  let order := s.sequence.incomingMessageInOrder f.frame
  let next := { s with sequence := order.1 }
  match order.2 with
  | .inSequence => next.processFullFrame acknowledges f
  | .skippedFrame => next.sendVnakFrame f
  | .repeatedFrame => next.sendAckFrame f

end CallProcessor

/-- A frame that is to be sent: its time stamp, and whether it keeps it. -/
structure Request where
  timeStamp : Nat
  keepsTimeStamp : Bool
  deriving DecidableEq

/-- The program of both sides. Frames that need delivery are sent when somebody
asks for it. -/
def callProcessor : Lib.Party CallProcessor Request Bool Sent where
  call s a := s.transmit ⟨.other, a.keepsTimeStamp, a.timeStamp, 0, 0⟩
  receive s acknowledges f := s.processOneIncomingFrame acknowledges f

/-- A call. -/
abbrev Call := Lib.Network CallProcessor Sent

/-- Before the first frame. -/
def Call.start : Call where
  left := ⟨.zeroAllValues, [], []⟩
  right := ⟨.zeroAllValues, [], []⟩
  fromLeft := []
  fromRight := []

end Iax2

end CryptoOpal

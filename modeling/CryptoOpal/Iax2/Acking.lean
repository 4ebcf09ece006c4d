import CryptoOpal.Iax2.Sequence

/-!
# Frames That Wait for an Ack

A full frame that was sent stays in a list until a frame that answers it comes in. An ack
carries the time stamp of the frame it answers and, for its own number, the number that its
sender expected. The list has these as the sender counted them, without a bound, and the ack
has the eight bits of the header.

A frame is sent again by taking it from the list and putting it back at the end. It is
dropped from the list when it was sent too often. Frames of other calls are in the list too,
but have another call number and are passed over.

The exchange of call tokens, after which a caller starts to count again, is left out, and so
are frames of registrations, which call processors do not send. What a frame is about is kept
beside it.

## Main definitions

* `SubClass`: The full frames that are told apart.
* `Waiting`, `WaitingForAck`: What waits for an ack.
* `deleteMatchingSendFrame`, `matchingAckPacket`: What an ack is compared with.
* `ackingProcessor`: The program of both sides.
-/

namespace CryptoOpal

namespace Iax2

/-- The full frames that are told apart. -/
inductive SubClass where
  | ack
  | vnak
  | hangup
  | new
  | callToken
  | ping
  | pong
  | lagRq
  | lagRp
  | regReq
  | regRel
  | regAuth
  | regAck
  | regRej
  | other
  deriving DecidableEq

namespace SubClass

/-- The kind that the sequence numbers go by. -/
def kind : SubClass → FrameKind
  | .ack => .ack
  | .vnak => .vnak
  | .hangup => .hangup
  | _ => .other

/-- The frames whose time stamp is kept. -/
def keepsTimeStamp : SubClass → Bool
  | .new | .pong | .lagRp => true
  | _ => false

end SubClass

/-- A full frame in the list, with the sequence numbers that were given to
`ModifyFrameHeaderSequenceNumbers`, and how many its sender had sent before it. -/
structure Waiting where
  subClass : SubClass
  timeStamp : Nat
  inSeqNo : Nat
  outSeqNo : Nat
  id : Nat
  deriving DecidableEq

/-- A frame that an ack is about. -/
structure Answered where
  id : Nat
  inSeqNo : Nat
  deriving DecidableEq

/-- `IAX2WaitingForAck`, with the frame it was assigned. -/
structure WaitingForAck where
  timeStamp : Nat
  seqNo : Nat
  frame : Option Nat
  deriving DecidableEq

/-- A full frame on the network, the number that its sender expected, and the frame that it
was sent for, if it is an ack. -/
structure Message where
  subClass : SubClass
  frame : FullFrame
  id : Nat
  inSeqNo : Nat
  answers : Option Answered
  deriving DecidableEq

/-- `IsFirstReplyFrame`. -/
def Message.isFirstReplyFrame (reply : Message) : Bool :=
  reply.frame.inSeqNo.toNat = 1 ∧ reply.frame.outSeqNo.toNat = 0

/-- The tests of `DeleteMatchingSendFrame` on a frame of this call. -/
def Waiting.matchedBy (sent : Waiting) (reply : Message) : Bool :=
  if sent.subClass = .new ∧ reply.subClass = .callToken then true
  else if sent.subClass = .new ∧ reply.isFirstReplyFrame then true
  else if (sent.subClass = .regReq ∨ sent.subClass = .regRel) ∧
      (reply.subClass = .regAck ∨ reply.subClass = .regAuth ∨ reply.subClass = .regRej) then true
  else if sent.timeStamp ≠ reply.frame.timeStamp then false
  else if reply.subClass = .lagRp ∧ sent.subClass = .lagRq then true
  else if reply.subClass = .pong ∧ sent.subClass = .ping then true
  else
    -- the number is one of the header for the reply only
    decide (sent.inSeqNo = reply.frame.outSeqNo.toNat ∧ reply.subClass = .ack)

/-- `DeleteMatchingSendFrame`. -/
def deleteMatchingSendFrame (acking : List Waiting) (reply : Message) : List Waiting :=
  acking.eraseP fun sent => sent.matchedBy reply

namespace WaitingForAck

/-- `ZeroValues`. -/
def zeroValues : WaitingForAck := ⟨0, 0, none⟩

/-- `Assign`. -/
def assign (f : Waiting) : WaitingForAck := ⟨f.timeStamp, f.inSeqNo, some f.id⟩

/-- `MatchingAckPacket`. -/
def matchingAckPacket (task : WaitingForAck) (f : Message) : Bool :=
  f.frame.timeStamp = task.timeStamp ∧ f.frame.outSeqNo.toNat = task.seqNo

end WaitingForAck

/-- A call processor, with the frames of its call that wait for an ack. -/
structure AckingProcessor where
  sequence : SequenceNumbers
  acking : List Waiting
  nextTask : WaitingForAck
  nextId : Nat
  deriving DecidableEq

namespace AckingProcessor

variable (s : AckingProcessor)

/-- What `MassageSequenceForSending` makes of a frame. -/
def massaged (subClass : SubClass) (timeStamp : Nat) (outSeqNo : UInt8) :
    SequenceNumbers × FullFrame :=
  s.sequence.massageSequenceForSending
    ⟨subClass.kind, subClass.keepsTimeStamp, timeStamp, 0, outSeqNo⟩

/-- A frame as it goes to the list, if it needs an answer. -/
def waiting (subClass : SubClass) (timeStamp : Nat) : Waiting :=
  ⟨subClass, (s.massaged subClass timeStamp 0).2.timeStamp, s.sequence.inSeqNo,
    s.sequence.outSeqNo, s.nextId⟩

/-- `TransmitFrameToRemoteEndpoint` for a frame that needs an answer, and for a vnak, which
does not go to the list. -/
def transmit (subClass : SubClass) (timeStamp : Nat) : AckingProcessor × List Message :=
  ({ s with
      sequence := (s.massaged subClass timeStamp 0).1
      acking := if subClass = .vnak then s.acking else s.acking ++ [s.waiting subClass timeStamp]
      nextId := s.nextId + 1 },
    [⟨subClass, (s.massaged subClass timeStamp 0).2, s.nextId, s.sequence.inSeqNo, none⟩])

/-- `TransmitFrameToRemoteEndpoint` with what is to follow its ack. -/
def transmitWithTask (subClass : SubClass) (timeStamp : Nat) : AckingProcessor × List Message :=
  ({ (s.transmit subClass timeStamp).1 with
      nextTask := .assign (s.waiting subClass timeStamp) },
    (s.transmit subClass timeStamp).2)

/-- `SendAckFrame`, with `SetAckSequenceInfo`. -/
def sendAckFrame (inReplyTo : Message) : AckingProcessor × List Message :=
  ({ s with
      sequence := (s.massaged .ack inReplyTo.frame.timeStamp inReplyTo.frame.inSeqNo).1
      nextId := s.nextId + 1 },
    [⟨.ack, (s.massaged .ack inReplyTo.frame.timeStamp inReplyTo.frame.inSeqNo).2, s.nextId,
      s.sequence.inSeqNo, some ⟨inReplyTo.id, inReplyTo.inSeqNo⟩⟩])

/-- `ProcessFullFrame`: a ping and a lag request are answered with their time stamp, and what
other frames are answered with, if they are, is an ack. -/
def processFullFrame (acknowledges : Bool) (f : Message) : AckingProcessor × List Message :=
  match f.subClass with
  | .ack =>
    (if s.nextTask.matchingAckPacket f then { s with nextTask := .zeroValues } else s, [])
  | .vnak => (s, [])
  | .ping => s.transmit .pong f.frame.timeStamp
  | .lagRq => s.transmit .lagRp f.frame.timeStamp
  | _ => if acknowledges then s.sendAckFrame f else (s, [])

/-- `ProcessOneIncomingEthernetFrame` for a full frame. -/
def processOneIncomingFrame (acknowledges : Bool) (f : Message) :
    AckingProcessor × List Message :=
  let next := { s with sequence := (s.sequence.incomingMessageInOrder f.frame).1 }
  match (s.sequence.incomingMessageInOrder f.frame).2 with
  | .inSequence =>
    { next with acking := deleteMatchingSendFrame next.acking f }.processFullFrame acknowledges f
  | .skippedFrame => next.transmit .vnak f.frame.timeStamp
  | .repeatedFrame => next.sendAckFrame f

end AckingProcessor

/-- What a call processor does without a frame that comes in: it sends a frame that it makes
itself, with or without a task that is to follow its ack, it sends a frame of the list once
more, or it gives one up. -/
inductive Doing where
  | send (subClass : SubClass) (timeStamp : Nat)
  | sendWithTask (timeStamp : Nat)
  | resend (id : Nat)
  | giveUp (id : Nat)
  deriving DecidableEq

/-- The frames that a call processor makes by itself after the first. -/
def SubClass.isRequest : SubClass → Bool
  | .hangup | .ping | .lagRq | .other => true
  | _ => false

/-- A call processor is told to do something. -/
def AckingProcessor.call (s : AckingProcessor) : Doing → AckingProcessor × List Message
  | .send subClass timeStamp => if subClass.isRequest then s.transmit subClass timeStamp else (s, [])
  | .sendWithTask timeStamp => s.transmitWithTask .other timeStamp
  | .resend id =>
    ({ s with
      acking := s.acking.filter (fun sent => sent.id ≠ id) ++
        s.acking.filter (fun sent => sent.id = id) }, [])
  | .giveUp id => ({ s with acking := s.acking.filter fun sent => sent.id ≠ id }, [])

/-- The program of both sides. -/
def ackingProcessor : Lib.Party AckingProcessor Doing Bool Message where
  call := AckingProcessor.call
  receive s acknowledges f := s.processOneIncomingFrame acknowledges f

/-- Two call processors. -/
abbrev AckingCall := Lib.Network AckingProcessor Message

/-- A call processor that has sent nothing. -/
def AckingProcessor.initial : AckingProcessor := ⟨.zeroAllValues, [], .zeroValues, 0⟩

/-- The caller has sent its first frame. -/
def AckingCall.start (timeStamp : Nat) : AckingCall where
  left := (AckingProcessor.initial.transmit .new timeStamp).1
  right := .initial
  fromLeft := (AckingProcessor.initial.transmit .new timeStamp).2
  fromRight := []

end Iax2

end CryptoOpal

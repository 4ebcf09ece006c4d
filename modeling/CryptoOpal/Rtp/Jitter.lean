import CryptoOpal.Lib.Octets

/-!
# The Jitter Buffer

`OpalJitterBuffer`: the frames that have come from the network and are not
played yet, in the order of their timestamps.

A reader asks for the frame of a playout timestamp. The buffer turns it into
the timestamp of a frame by a difference that it takes from the first frame of
a talk burst, and by the current delay. The delay grows when frames come too
late, and shrinks when the buffer has been full, or empty, for a while. When
the clocks of sender and receiver drift apart, the difference is moved by one
frame.

The source keeps the required timestamp in a variable and calculates it anew
wherever the delay or the difference has changed, so it is always that of the
present state.

The messages for tracing and the analyser are left out.

## Main definitions

* `Frame`: What the buffer reads of a frame, and what it plays.
* `JitterBuffer`: `OpalJitterBuffer`.
* `JitterBuffer.writeData`: `WriteData`.
* `JitterBuffer.readData`: `ReadData`.
* `JitterCall`, `JitterBuffer.step`: A call and what it does.
-/

namespace CryptoOpal

namespace Rtp

open Lib (Octets)

/-- An `RTP_DataFrame` as the jitter buffer sees it. -/
structure Frame where
  /-- `GetSize`. -/
  size : Nat
  marker : Bool
  sequenceNumber : UInt16
  timestamp : UInt32
  syncSource : UInt32
  payload : Octets
  deriving DecidableEq

/-- `RTP_DataFrame::MinHeaderSize`. -/
def minHeaderSize : Nat := 12

/-- `UINT_MAX`: no timestamp yet. -/
def noTimestamp : UInt32 := 0xffffffff

/-- The states of `m_synchronisationState`. -/
inductive SynchronisationState where
  | start
  | fill
  | shrink
  | done
  deriving DecidableEq

/-- `OpalJitterBuffer`. -/
structure JitterBuffer where
  minJitterDelay : UInt32
  maxJitterDelay : UInt32
  jitterGrowTime : Int32
  jitterShrinkPeriod : UInt32
  jitterShrinkTime : Int32
  silenceShrinkPeriod : UInt32
  silenceShrinkTime : Int32
  jitterDriftPeriod : UInt32
  currentJitterDelay : Int32
  packetsTooLate : UInt32
  bufferOverruns : UInt32
  consecutiveMarkerBits : UInt32
  maxConsecutiveMarkerBits : UInt32
  consecutiveLatePackets : UInt32
  averageFrameTime : UInt32
  lastTimestamp : UInt32
  lastSyncSource : UInt32
  bufferFilledTime : UInt32
  bufferLowTime : UInt32
  bufferEmptiedTime : UInt32
  timestampDelta : Int32
  synchronisationState : SynchronisationState
  /-- The frames by timestamp, the lowest one first. -/
  frames : List Frame
  deriving DecidableEq

/-- What comes of a call. A reader gets silence, or a frame that is given here as
    it was written. `fault` is a look behind the last frame. -/
inductive JitterOutcome where
  | written (goOn : Bool)
  | silence
  | delivered (frame : Frame)
  | fault
  deriving DecidableEq

/-- Insertion into the map of frames. A frame with the same timestamp stays. -/
def insertFrame (frame : Frame) : List Frame → List Frame
  | [] => [frame]
  | q :: l =>
    if frame.timestamp < q.timestamp then frame :: q :: l
    else if frame.timestamp = q.timestamp then q :: l
    else q :: insertFrame frame l

namespace JitterBuffer

/-- `Reset`. -/
def reset (s : JitterBuffer) : JitterBuffer :=
  { s with
    averageFrameTime := 0
    lastTimestamp := noTimestamp
    bufferFilledTime := 0
    bufferLowTime := 0
    bufferEmptiedTime := 0
    timestampDelta := 0
    consecutiveLatePackets := 0
    synchronisationState := .start
    frames := [] }

/-- The constructor, with `SetDelay`. -/
def new (minJitter maxJitter units : UInt32) : JitterBuffer :=
  { minJitterDelay := minJitter
    maxJitterDelay := maxJitter
    jitterGrowTime := (10 * units).toInt32
    jitterShrinkPeriod := 2000 * units
    jitterShrinkTime := (0 - 5 * units).toInt32
    silenceShrinkPeriod := 5000 * units
    silenceShrinkTime := (0 - 20 * units).toInt32
    jitterDriftPeriod := 500 * units
    currentJitterDelay := minJitter.toInt32
    packetsTooLate := 0
    bufferOverruns := 0
    consecutiveMarkerBits := 0
    maxConsecutiveMarkerBits := 10
    consecutiveLatePackets := 0
    averageFrameTime := 0
    lastTimestamp := noTimestamp
    lastSyncSource := 0
    bufferFilledTime := 0
    bufferLowTime := 0
    bufferEmptiedTime := 0
    timestampDelta := 0
    synchronisationState := .start
    frames := [] }

/-- The least delay that an adjustment goes down to. -/
def leastDelay (s : JitterBuffer) : Int32 :=
  (max s.minJitterDelay (2 * s.averageFrameTime)).toInt32

/-- The delay that an adjustment goes up to. -/
def greatestDelay (s : JitterBuffer) : Int32 := (max s.minJitterDelay s.maxJitterDelay).toInt32

/-- `AdjustCurrentJitterDelay`. -/
def adjustCurrentJitterDelay (s : JitterBuffer) (delta : Int32) : JitterBuffer × Bool :=
  if delta < 0 ∧ s.currentJitterDelay ≤ s.leastDelay then (s, false)
  else if delta > 0 ∧ s.currentJitterDelay ≥ s.greatestDelay then (s, false)
  else
    ({ s with
        currentJitterDelay :=
          if s.currentJitterDelay + delta < s.leastDelay then s.leastDelay
          else if s.currentJitterDelay + delta > s.greatestDelay then s.greatestDelay
          else s.currentJitterDelay + delta },
      true)

/-- Deal with naughty systems that send continuous marker bits. -/
def checkMarker (s : JitterBuffer) (frame : Frame) : JitterBuffer :=
  if s.consecutiveMarkerBits < s.maxConsecutiveMarkerBits then
    if frame.marker then
      -- Explicit silence is an opportunity to reduce the delay.
      (({ s with consecutiveMarkerBits := s.consecutiveMarkerBits + 1 } : JitterBuffer).reset
        |>.adjustCurrentJitterDelay s.silenceShrinkTime).1
    else { s with consecutiveMarkerBits := 0 }
  else if s.consecutiveMarkerBits = s.maxConsecutiveMarkerBits then
    { s with consecutiveMarkerBits := s.consecutiveMarkerBits + 1 }
  else s

/-- The time between two frames: it shows a discontinuity, or is a new smallest
    one. -/
def checkFrameTime (s : JitterBuffer) (newFrameTime : Int32) : JitterBuffer :=
  if newFrameTime < -16000 ∨ newFrameTime > 4800000 then s.reset
  else if s.averageFrameTime = 0 ∨ s.averageFrameTime > newFrameTime.toUInt32 then
    (({ s with averageFrameTime := newFrameTime.toUInt32 } : JitterBuffer)
      |>.adjustCurrentJitterDelay 0).1
  else s

/-- Calculate the time between packets. -/
def checkTimestamp (s : JitterBuffer) (frame : Frame) : JitterBuffer :=
  if s.lastTimestamp = noTimestamp then s
  else s.checkFrameTime (frame.timestamp - s.lastTimestamp).toInt32

/-- A new source starts the buffer anew. -/
def checkSyncSource (s : JitterBuffer) (frame : Frame) : JitterBuffer :=
  if frame.syncSource ≠ s.lastSyncSource then { s.reset with lastSyncSource := frame.syncSource }
  else s

/-- `WriteData`, up to the insertion. -/
def beforeInsert (s : JitterBuffer) (frame : Frame) : JitterBuffer :=
  checkSyncSource
    { (s.checkMarker frame).checkTimestamp frame with lastTimestamp := frame.timestamp } frame

/-- `WriteData`. -/
def writeData (s : JitterBuffer) (frame : Frame) : JitterBuffer × JitterOutcome :=
  if frame.size < minHeaderSize then (s, .written true)
  else if s.frames.length > 100 then (s, .written false)
  else
    ({ s.beforeInsert frame with frames := insertFrame frame (s.beforeInsert frame).frames },
      .written true)

/-- `CalculateRequiredTimestamp`. -/
def calculateRequiredTimestamp (s : JitterBuffer) (playOut : UInt32) : UInt32 :=
  let timestamp := playOut + s.timestampDelta.toUInt32
  if timestamp > s.currentJitterDelay.toUInt32 then timestamp - s.currentJitterDelay.toUInt32
  else 0

/-- It is not time for a frame yet. -/
def NotReady (s : JitterBuffer) (playOut : UInt32) (frame : Frame) : Prop :=
  s.calculateRequiredTimestamp playOut < frame.timestamp

instance (s : JitterBuffer) (playOut : UInt32) (frame : Frame) :
    Decidable (s.NotReady playOut frame) := inferInstanceAs (Decidable (_ < _))

/-- The time for a frame is over. -/
def TooLate (s : JitterBuffer) (playOut : UInt32) (frame : Frame) : Prop :=
  s.calculateRequiredTimestamp playOut ≥ frame.timestamp + s.averageFrameTime

instance (s : JitterBuffer) (playOut : UInt32) (frame : Frame) :
    Decidable (s.TooLate playOut frame) := inferInstanceAs (Decidable (_ ≥ _))

/-- A reading of the empty buffer. -/
def readEmpty (s : JitterBuffer) (playOut : UInt32) : JitterBuffer :=
  if playOut - s.bufferEmptiedTime > s.silenceShrinkPeriod ∧
      (s.adjustCurrentJitterDelay s.silenceShrinkTime).2 = true then
    { (s.adjustCurrentJitterDelay s.silenceShrinkTime).1 with bufferEmptiedTime := playOut }
  else s

/-- The number of frames that the current delay stands for. -/
def framesInBuffer (s : JitterBuffer) : Nat :=
  max 2 (if s.averageFrameTime > 0 then
    (s.currentJitterDelay.toUInt32 / s.averageFrameTime).toNat else 2)

/-- The buffer is less than half full. The result is true if it has been so for a
    prolonged period. -/
def checkLow (s : JitterBuffer) (playOut : UInt32) : JitterBuffer × Bool :=
  if s.bufferLowTime = 0 ∨ s.frames.length > s.framesInBuffer / 2 then
    ({ s with bufferLowTime := playOut }, false)
  else if playOut - s.bufferLowTime > s.jitterDriftPeriod then
    ({ s with
        bufferLowTime := playOut
        timestampDelta := (s.timestampDelta.toUInt32 - s.averageFrameTime).toInt32 },
      true)
  else (s, false)

/-- The start of a reading of a buffer that is not empty. -/
def afterLow (s : JitterBuffer) (playOut : UInt32) : JitterBuffer × Bool :=
  ({ s with bufferEmptiedTime := playOut } : JitterBuffer).checkLow playOut

/-- Reduce the delay of a buffer that has been full. -/
def shrinkDelay (s : JitterBuffer) : JitterBuffer :=
  if (s.adjustCurrentJitterDelay s.jitterShrinkTime).2 then
    { (s.adjustCurrentJitterDelay s.jitterShrinkTime).1 with synchronisationState := .shrink }
  else (s.adjustCurrentJitterDelay s.jitterShrinkTime).1

/-- Full for a while, then it is time to reduce the size of the buffer. -/
def checkFilled (s : JitterBuffer) (playOut : UInt32) : JitterBuffer :=
  if s.bufferFilledTime = 0 ∨ s.frames.length < s.framesInBuffer then
    { s with bufferFilledTime := playOut }
  else if playOut - s.bufferFilledTime > s.jitterShrinkPeriod then
    ({ s with bufferFilledTime := playOut } : JitterBuffer).shrinkDelay
  else s

/-- The end of `ReadData`: the oldest frame, if it is time for it. -/
def deliver (s : JitterBuffer) (playOut : UInt32) : JitterBuffer × JitterOutcome :=
  match s.frames with
  | [] => (s, .fault)
  | oldest :: rest =>
    if s.NotReady playOut oldest then (s, .silence)
    else ({ s with frames := rest, consecutiveLatePackets := 0 }, .delivered oldest)

/-- The case `e_SynchronisationFill`. -/
def fill (s : JitterBuffer) (playOut : UInt32) (oldest : Frame) : JitterBuffer × JitterOutcome :=
  if s.NotReady playOut oldest then (s, .silence)
  else ({ s with synchronisationState := .done } : JitterBuffer).deliver playOut

/-- The case `e_SynchronisationStart`: first packet of talk burst. -/
def start (s : JitterBuffer) (playOut : UInt32) (oldest : Frame) : JitterBuffer × JitterOutcome :=
  ({ s with
      timestampDelta := (oldest.timestamp - playOut).toInt32
      synchronisationState := .fill } : JitterBuffer).fill playOut oldest

/-- A frame that came too late: need a bigger jitter buffer. -/
def countLate (s : JitterBuffer) : JitterBuffer :=
  let r := { s with
    consecutiveLatePackets := s.consecutiveLatePackets + 1
    packetsTooLate := s.packetsTooLate + 1 }
  (r.adjustCurrentJitterDelay s.jitterGrowTime).1

/-- The loop that gets rid of all the frames that are too late, over the frames
    that are left. The result is false if it leaves the function. -/
def dropLate (playOut : UInt32) : JitterBuffer → List Frame → JitterBuffer × Bool
  | s, [] => ({ s with frames := [] }, false)
  | s, oldest :: rest =>
    if s.TooLate playOut oldest then
      -- too many late
      if s.consecutiveLatePackets + 1 > 10 then (s.reset, false)
      else dropLate playOut s.countLate rest
    else ({ s with frames := oldest :: rest }, true)

/-- The case `e_SynchronisationShrink`. -/
def shrink (s : JitterBuffer) (playOut : UInt32) : JitterBuffer × JitterOutcome :=
  match s.frames with
  | [] => (s, .fault)
  | oldest :: rest =>
    if s.TooLate playOut oldest then
      ({ s with
          frames := rest
          bufferOverruns := s.bufferOverruns + 1
          synchronisationState := .done } : JitterBuffer).deliver playOut
    else ({ s with synchronisationState := .done } : JitterBuffer).deliver playOut

/-- The case `e_SynchronisationDone` after its loop: drop a frame every now and
    then if the buffer is overfull due to clock mismatch. -/
def checkOverrun (s : JitterBuffer) (playOut : UInt32) (framesInBuffer : Nat) :
    JitterBuffer × JitterOutcome :=
  if s.frames.length < framesInBuffer * 2 then s.deliver playOut
  else
    ({ s with
        timestampDelta := (s.timestampDelta.toUInt32 + s.averageFrameTime).toInt32 } :
      JitterBuffer).shrink playOut

/-- The part of `ReadData` that goes by the synchronisation state. -/
def synchronise (s : JitterBuffer) (playOut : UInt32) (framesInBuffer : Nat) (oldest : Frame) :
    JitterBuffer × JitterOutcome :=
  match s.synchronisationState with
  | .start => s.start playOut oldest
  | .fill => s.fill playOut oldest
  | .shrink => s.shrink playOut
  | .done =>
    match dropLate playOut s s.frames with
    | (s, false) => (s, .silence)
    | (s, true) => s.checkOverrun playOut framesInBuffer

/-- `ReadData`. -/
def readData (s : JitterBuffer) (playOut : UInt32) : JitterBuffer × JitterOutcome :=
  match s.frames with
  | [] => (s.readEmpty playOut, .silence)
  | oldest :: _ =>
    match s.afterLow playOut with
    | (s, true) => (s, .silence)
    | (s, false) => (s.checkFilled playOut).synchronise playOut s.framesInBuffer oldest

end JitterBuffer

/-- A call of the jitter buffer. -/
inductive JitterCall where
  | write (frame : Frame)
  | read (playOut : UInt32)
  deriving DecidableEq

/-- The buffer after a call, and what comes of it. -/
def JitterBuffer.step (s : JitterBuffer) : JitterCall → JitterBuffer × JitterOutcome
  | .write frame => s.writeData frame
  | .read playOut => s.readData playOut

end Rtp

end CryptoOpal

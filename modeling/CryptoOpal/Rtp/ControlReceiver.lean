import CryptoOpal.Lib.Reads
import CryptoOpal.Rtp.SourceDescription

/-!
# The Receiver of Control Frames

`OnReceiveControl` goes through the packets of a control frame and hands what
it finds in them to the session. It finds it with pointers into the payload,
by the counts and lengths that the payload itself gives. Here the frame lies
in a memory that goes on behind it, and every read is kept with the result.

Reports are read after a check that the payload has room for all of them. The
other types are not so lucky. A Goodbye packet has a 5-bit count of sources,
which the code multiplies by 4 before it counts to it in words. The reason of
the packet is compared with the payload as if there were one source. A packet
for an application is asked for four octets where eight are read. And the
items of a source description are followed until an end is found, or until
they are as long as the whole payload, of which they are only a part.

## Main definitions

* `ControlEvent`: What a packet is handed over as.
* `buildReceiverReportArray`, `buildExtendedReportArray`: The reports.
* `walkItems`, `walkSources`: A packet of source descriptions.
* `onGoodbye`, `onApplDefined`: Two other types.
* `onPacket`: The packet of any type.
* `ControlFrame.windows`: The packets that the loop comes to.
* `onReceiveControl`: `RTP_Session::OnReceiveControl`.
-/

namespace CryptoOpal

namespace Rtp

open Lib (Octets slice ofBigEndian setKey Traced fetch)
open Srtp (Stop)

/-- `RTP_Session::ReceiverReport`. -/
structure ReceiverReport where
  sourceIdentifier : Nat
  fractionLost : Nat
  totalLost : Nat
  lastSequenceNumber : Nat
  jitter : Nat
  lastTimestamp : Nat
  delay : Nat
  deriving DecidableEq

/-- `RTP_Session::SenderReport`. The time is in seconds and microseconds. -/
structure SenderReport where
  sourceIdentifier : Nat
  realTimestamp : Nat × Nat
  rtpTimestamp : Nat
  packetsSent : Nat
  octetsSent : Nat
  deriving DecidableEq

/-- `RTP_Session::ExtendedReport`. -/
structure ExtendedReport where
  sourceIdentifier : Nat
  lossRate : Nat
  discardRate : Nat
  burstDensity : Nat
  gapDensity : Nat
  roundTripDelay : Nat
  rFactor : Nat
  mosLQ : Nat
  mosCQ : Nat
  jbNominal : Nat
  jbMaximum : Nat
  jbAbsolute : Nat
  deriving DecidableEq

/-- What a packet is handed over as. The data of an application is given by
    its size, which is an `int`. -/
inductive ControlEvent where
  | senderReport (sender : SenderReport) (reports : List ReceiverReport)
  | receiverReport (src : Nat) (reports : List ReceiverReport)
  | sourceDescription (descriptions : List SourceDescription)
  | goodbye (sources : List Nat) (reason : Octets)
  | applDefined (type : Octets) (subtype src : Nat) (dataSize : Int)
  | extendedReport (src : Nat) (reports : List ExtendedReport)
  | intraFrameRequest
  | nothing
  deriving DecidableEq

/-- `SecondsFrom1900to1970`. -/
def secondsFrom1900to1970 : Nat := (70 * 365 + 17) * 24 * 60 * 60

/-- The size of `RTP_ControlFrame::ReceiverReport`. -/
def receiverReportSize : Nat := 24

/-- The size of `RTP_ControlFrame::SenderReport`. -/
def senderReportSize : Nat := 20

/-- The size of `RTP_ControlFrame::ExtendedReport`. -/
def extendedReportSize : Nat := 36

/-- The size of `RTP_ControlFrame::SourceDescription`, with one item. -/
def sourceDescriptionSize : Nat := 7

section Memory

variable (memory : Nat → UInt8)

/-- A number of `len` octets, the first one the most significant. -/
def number (off len : Nat) : Traced Nat := ofBigEndian <$> fetch memory off len

/-- One round of `BuildReceiverReportArray`. -/
def readReceiverReport (rr : Nat) : Traced ReceiverReport := do
  let ssrc ← number memory rr 4
  let fraction ← number memory (rr + 4) 1
  let lost ← number memory (rr + 5) 3
  let lastSeq ← number memory (rr + 8) 4
  let jitter ← number memory (rr + 12) 4
  let lsr ← number memory (rr + 16) 4
  let dlsr ← number memory (rr + 20) 4
  return ⟨ssrc, fraction, lost, lastSeq, jitter, lsr, dlsr <<< 16 / 1000⟩

/-- `BuildReceiverReportArray`, for this many reports. -/
def buildReceiverReportArray : Nat → Nat → Traced (List ReceiverReport)
  | _, 0 => return []
  | rr, count + 1 => do
    let report ← readReceiverReport memory rr
    let reports ← buildReceiverReportArray (rr + receiverReportSize) count
    return report :: reports

/-- One round of `RTCP_XR_Metrics::BuildExtendedReportArray`. -/
def readExtendedReport (rr : Nat) : Traced ExtendedReport := do
  let ssrc ← number memory (rr + 4) 4
  let lossRate ← number memory (rr + 8) 1
  let discardRate ← number memory (rr + 9) 1
  let burstDensity ← number memory (rr + 10) 1
  let gapDensity ← number memory (rr + 11) 1
  let roundTripDelay ← number memory (rr + 16) 2
  let rFactor ← number memory (rr + 24) 1
  let mosLQ ← number memory (rr + 26) 1
  let mosCQ ← number memory (rr + 27) 1
  let jbNominal ← number memory (rr + 30) 2
  let jbMaximum ← number memory (rr + 32) 2
  let jbAbsolute ← number memory (rr + 34) 2
  return ⟨ssrc, lossRate, discardRate, burstDensity, gapDensity, roundTripDelay, rFactor, mosLQ,
    mosCQ, jbNominal, jbMaximum, jbAbsolute⟩

/-- `RTCP_XR_Metrics::BuildExtendedReportArray`, for this many reports. -/
def buildExtendedReportArray : Nat → Nat → Traced (List ExtendedReport)
  | _, 0 => return []
  | rr, count + 1 => do
    let report ← readExtendedReport memory rr
    let reports ← buildExtendedReportArray (rr + extendedReportSize) count
    return report :: reports

/-- The case of a sender report. -/
def onSenderReport (payload size count : Nat) : Traced ControlEvent :=
  if size ≥ 4 + senderReportSize + count * receiverReportSize then do
    let src ← number memory payload 4
    let ntpSec ← number memory (payload + 4) 4
    let ntpFrac ← number memory (payload + 8) 4
    let rtpTs ← number memory (payload + 12) 4
    let psent ← number memory (payload + 16) 4
    let osent ← number memory (payload + 20) 4
    let reports ← buildReceiverReportArray memory (payload + (4 + senderReportSize)) count
    -- The seconds are a difference of two 32-bit numbers.
    let seconds := (ntpSec + (2 ^ 32 - secondsFrom1900to1970)) % 2 ^ 32
    return .senderReport ⟨src, (seconds, ntpFrac / 4294), rtpTs, psent, osent⟩ reports
  else return .nothing

/-- The case of a receiver report. -/
def onReceiverReport (payload size count : Nat) : Traced ControlEvent :=
  if size ≥ 4 + count * receiverReportSize then do
    let src ← number memory payload 4
    let reports ← buildReceiverReportArray memory (payload + 4) count
    return .receiverReport src reports
  else return .nothing

/-- The loop over the items of a source. The result is the dictionary, and the
    item that the loop stopped at, with `none` for `NULL`. Every round but the
    last adds to the size, so `size` rounds are enough. -/
def walkItems (size : Nat) : Nat → Nat → Nat → List Item → Traced (List Item × Option Nat)
  | 0, _, _, items => return (items, none)
  | rounds + 1, item, uiSizeCurrent, items => do
    let type ← fetch memory item 1
    if type.getD 0 0 = eEND then return (items, some item)
    else
      let length ← fetch memory (item + 1) 1
      let data ← fetch memory (item + 2) (length.getD 0 0).toNat
      let items := setKey Item.type ⟨type.getD 0 0, text data⟩ items
      let uiSizeCurrent := uiSizeCurrent + ((length.getD 0 0).toNat + 2)
      if size ≤ uiSizeCurrent then return (items, none)
      else walkItems size rounds (item + ((length.getD 0 0).toNat + 2)) uiSizeCurrent items

/-- The loop over the sources. -/
def walkSources (size : Nat) : Nat → Nat → Traced (List SourceDescription)
  | 0, _ => return []
  | count + 1, sdes => do
    let src ← number memory sdes 4
    let found ← walkItems memory size size (sdes + 4) 0 []
    let description : SourceDescription := ⟨UInt32.ofNat src, found.1⟩
    match found.2 with
    | none => return [description]
    | some item => do
      let type ← fetch memory item 1
      if type.getD 0 0 = eEND then return [description]
      else
        let length ← fetch memory (item + 1) 1
        let rest ← walkSources size count (item + ((length.getD 0 0).toNat + 2))
        return description :: rest

/-- The case of a source description. -/
def onSourceDescription (payload size count : Nat) : Traced ControlEvent :=
  if size ≥ count * sourceDescriptionSize then do
    let descriptions ← walkSources memory size count payload
    return .sourceDescription descriptions
  else return .nothing

/-- The words from `off` on. -/
def readWords : Nat → Nat → Traced (List Nat)
  | _, 0 => return []
  | off, count + 1 => do
    let word ← number memory off 4
    let words ← readWords (off + 4) count
    return word :: words

/-- The reason of a Goodbye packet, behind `count` octets. -/
def readReason (payload size count : Nat) : Traced Octets :=
  if size > count then do
    let length ← fetch memory (payload + count) 1
    if size ≥ (length.getD 0 0).toNat + 4 + 1 then
      text <$> fetch memory (payload + count + 1) (length.getD 0 0).toNat
    else return []
  else return []

/-- The case of a Goodbye packet. The number of octets of the sources is used
    for the number of sources. -/
def onGoodbye (payload size packetCount : Nat) : Traced ControlEvent :=
  if size ≥ 4 then do
    let count := packetCount * 4
    let str ← readReason memory payload size count
    let sources ← readWords memory payload count
    return .goodbye sources str
  else return .nothing

/-- The case of a packet for an application. Its data is not read here. -/
def onApplDefined (payload size count : Nat) : Traced ControlEvent :=
  if size ≥ 4 then do
    let str ← fetch memory (payload + 4) 4
    let src ← number memory payload 4
    return .applDefined (text str) count src ((size : Int) - 8)
  else return .nothing

/-- The case of an extended report. -/
def onExtendedReport (payload size count : Nat) : Traced ControlEvent :=
  if size ≥ 4 + count * extendedReportSize then do
    let src ← number memory payload 4
    let reports ← buildExtendedReportArray memory (payload + 4) count
    return .extendedReport src reports
  else return .nothing

/-- The switch over the types. The feedback type has the bits of the count. -/
def onPacket (type : UInt8) (payload size count : Nat) : Traced ControlEvent :=
  match type.toNat with
  | 192 => return .intraFrameRequest
  | 200 => onSenderReport memory payload size count
  | 201 => onReceiverReport memory payload size count
  | 202 => onSourceDescription memory payload size count
  | 203 => onGoodbye memory payload size count
  | 204 => onApplDefined memory payload size count
  | 206 => return if count = 1 ∨ count = 4 then .intraFrameRequest else .nothing
  | 207 => onExtendedReport memory payload size count
  | _ => return .nothing

end Memory

/-- A packet of a control frame: its type and count, where its payload starts,
    and how long that is. -/
structure ControlWindow where
  type : UInt8
  count : Nat
  payload : Nat
  size : Nat
  deriving DecidableEq

/-- `e_Goodbye`. -/
def eGoodbye : UInt8 := 203

namespace ControlFrame

/-- The packet that the loop is at, unless it is invalid. -/
def window (frame : ControlFrame) : Except Stop (Option ControlWindow) := do
  let ptr ← frame.getPayloadPtr
  let size ← frame.getPayloadSize
  match ptr with
  | none => .ok none
  | some payload =>
    if size = 0 ∨ frame.theArray.length < payload + size then .ok none
    else do
      let type ← frame.getPayloadType
      let count ← frame.getCount
      .ok (some ⟨type, count, payload, size⟩)

/-- The packets that the loop of `OnReceiveControl` comes to. It ends at an
    invalid packet, at the end of the frame, and at a Goodbye packet if that
    closes the transport. Every round moves on, so the octets of the frame are
    enough rounds. -/
def windows (closeOnBye : Bool) : Nat → ControlFrame → Except Stop (List ControlWindow)
  | 0, _ => .ok []
  | rounds + 1, frame => do
    let current ← frame.window
    match current with
    | none => .ok []
    | some w =>
      if w.type = eGoodbye ∧ closeOnBye = true then .ok [w]
      else do
        let next ← frame.readNextPacket
        if next.1 = true then (windows closeOnBye rounds next.2).map (w :: ·)
        else .ok [w]

end ControlFrame

/-- The memory that a frame is at the start of. -/
def frameMemory (octets : Octets) (beyond : Nat → UInt8) (i : Nat) : UInt8 :=
  octets[i]?.getD (beyond i)

/-- What a packet of the frame is handed over as. -/
def ControlWindow.event (memory : Nat → UInt8) (w : ControlWindow) : Traced ControlEvent :=
  onPacket memory w.type w.payload w.size w.count

/-- `RTP_Session::OnReceiveControl`, of a frame with these octets in a memory
    with these behind it. -/
def onReceiveControl (closeOnBye : Bool) (octets : Octets) (beyond : Nat → UInt8) :
    Except Stop (List (Traced ControlEvent)) :=
  (ControlFrame.windows closeOnBye octets.length ⟨octets, 0, 0⟩).map
    (List.map (ControlWindow.event (frameMemory octets beyond)))

/-- `ReadControlPDU` accepts octets with room for a header and for the payload
    of the first packet. -/
def AcceptedControl (octets : Octets) : Prop :=
  4 ≤ octets.length ∧ 4 + 4 * ofBigEndian (slice octets 2 2) ≤ octets.length

instance (octets : Octets) : Decidable (AcceptedControl octets) :=
  inferInstanceAs (Decidable (_ ∧ _))

end Rtp

end CryptoOpal

import CryptoOpal.Lib.Octets
import Mathlib.Logic.Function.Basic

/-!
# Q.931 Messages

The call signalling messages of H.323. A message has a header of five octets
and information elements. An element is one octet when the top bit of its
discriminator is set. Otherwise it has contents, with a length of one octet
before them, or of two octets when it is the user-user element.

The elements are kept by their discriminator. An element may occur several
times, and one that is not there has no contents at all.

## Main definitions

* `Q931`: A message.
* `Q931.encode`: The octets of a message.
* `Q931.decode`: The message of some octets, `none` when they are refused.
* `Q931.setIE`, `Q931.removeIE`: Elements are put in and taken out.
-/

namespace CryptoOpal

namespace H323

open Lib (Octets)

/-- `MsgTypes`, as far as messages are built. -/
def alertingMsg : UInt8 := 0x01
def callProceedingMsg : UInt8 := 0x02
def progressMsg : UInt8 := 0x03
def setupMsg : UInt8 := 0x05
def connectMsg : UInt8 := 0x07
def setupAckMsg : UInt8 := 0x0d
def releaseCompleteMsg : UInt8 := 0x5a
def facilityMsg : UInt8 := 0x62
def notifyMsg : UInt8 := 0x6e
def statusEnquiryMsg : UInt8 := 0x75
def informationMsg : UInt8 := 0x7b
def statusMsg : UInt8 := 0x7d

/-- `InformationElementCodes`. -/
def bearerCapabilityIE : Nat := 0x04
def causeIE : Nat := 0x08
def callStateIE : Nat := 0x14
def channelIdentificationIE : Nat := 0x18
def facilityIE : Nat := 0x1c
def progressIndicatorIE : Nat := 0x1e
def displayIE : Nat := 0x28
def keypadIE : Nat := 0x2c
def signalIE : Nat := 0x34
def connectedNumberIE : Nat := 0x4c
def callingPartyNumberIE : Nat := 0x6c
def calledPartyNumberIE : Nat := 0x70
def redirectingNumberIE : Nat := 0x74
def userUserIE : Nat := 0x7e

/-- `Q931`. The protocol discriminator and the message type are octets: they are
set to constants, or come from a message. -/
@[ext]
structure Q931 where
  callReference : Nat
  fromDestination : Bool
  protocolDiscriminator : UInt8
  messageType : UInt8
  informationElements : Nat → List Octets

namespace Q931

/-- `SetIE`, on the elements. -/
def setElement (informationElements : Nat → List Octets) (ie : Nat) (userData : Octets)
    (append : Bool) : Nat → List Octets :=
  if append = true ∧ informationElements ie ≠ [] then
    Function.update informationElements ie (informationElements ie ++ [userData])
  else
    Function.update informationElements ie [userData]

section Coding

variable (m : Q931)

/-- How many octets an element takes, in the first loop of `Encode`. -/
def elementSize (discriminator : Nat) (element : Octets) : Nat :=
  if discriminator < 128 then
    element.length + if discriminator ≠ userUserIE then 2 else 4
  else
    1

/-- The first loop of `Encode`. -/
def totalBytes : Nat :=
  (List.range 256).foldl (fun total discriminator =>
    (m.informationElements discriminator).foldl
      (fun total element => total + elementSize discriminator element) total) 5

/-- An element, in the second loop of `Encode`. -/
def encodeElement (discriminator : Nat) (element : Octets) : Octets :=
  if discriminator < 128 then
    if discriminator ≠ userUserIE then
      [UInt8.ofNat discriminator, UInt8.ofNat element.length] ++ element
    else
      -- The length counts the protocol discriminator, which is always 5.
      [UInt8.ofNat discriminator, UInt8.ofNat ((element.length + 1) >>> 8),
        UInt8.ofNat (element.length + 1), 5] ++ element
  else
    [UInt8.ofNat discriminator]

/-- The header, in `Encode`. -/
def encodeHeader : Octets :=
  let reference := UInt8.ofNat (m.callReference >>> 8)
  [m.protocolDiscriminator, 2, if m.fromDestination then reference ||| 0x80 else reference,
    UInt8.ofNat m.callReference, m.messageType]

/-- `Encode`. The elements go in the order of their discriminators. -/
def encode : Octets :=
  m.encodeHeader ++ (List.range 256).flatMap fun discriminator =>
    (m.informationElements discriminator).flatMap (encodeElement discriminator)

/-- The loop in `Decode`, at most so many elements long. An octet behind the end
is read as zero. -/
def decodeElements (data : Octets) : Nat → Nat → (Nat → List Octets) →
    Option (Nat → List Octets)
  | 0, _, informationElements => some informationElements
  | fuel + 1, offset, informationElements =>
    if offset < data.length then
      let discriminator := (data.getD offset 0).toNat
      if discriminator &&& 0x80 ≠ 0 then
        decodeElements data fuel (offset + 1) (setElement informationElements discriminator [] true)
      else if discriminator = userUserIE then
        let len := ((data.getD (offset + 1) 0).toNat <<< 8) ||| (data.getD (offset + 2) 0).toNat
        if len = 0 then
          none
        else if data.length < offset + 4 + (len - 1) then
          none
        else
          decodeElements data fuel (offset + 4 + (len - 1))
            (setElement informationElements discriminator
              (Lib.slice data (offset + 4) (len - 1)) true)
      else
        let len := (data.getD (offset + 1) 0).toNat
        if data.length < offset + 2 + len then
          none
        else
          decodeElements data fuel (offset + 2 + len)
            (setElement informationElements discriminator (Lib.slice data (offset + 2) len) true)
    else
      some informationElements

/-- `Decode`. Each element takes an octet at least, so the loop has no more turns
than there are octets. -/
def decode (data : Octets) : Option Q931 :=
  if data.length < 5 then
    none
  else if data.getD 1 0 ≠ 2 then
    none
  else
    (decodeElements data data.length 5 fun _ => []).map fun informationElements =>
      { callReference := ((data.getD 2 0 &&& 0x7f).toNat <<< 8) ||| (data.getD 3 0).toNat
        fromDestination := decide (data.getD 2 0 &&& 0x80 ≠ 0)
        protocolDiscriminator := data.getD 0 0
        messageType := data.getD 4 0
        informationElements := informationElements }

end Coding

section Building

variable (m : Q931)

/-- The constructor. -/
def new : Q931 where
  callReference := 0
  fromDestination := false
  protocolDiscriminator := 8
  messageType := 0
  informationElements := fun _ => []

/-- `SetIE`. -/
def setIE (ie : Nat) (userData : Octets) (append : Bool) : Q931 :=
  { m with informationElements := setElement m.informationElements ie userData append }

/-- `RemoveIE`. -/
def removeIE (ie : Nat) : Q931 :=
  { m with informationElements := Function.update m.informationElements ie [] }

/-- What the functions that build a message do first. The call reference becomes
an unsigned number. -/
def build (messageType : UInt8) (callRef : Int) (fromDest : Bool) : Q931 :=
  { m with
    messageType := messageType
    callReference := (callRef % 2 ^ 32).toNat
    fromDestination := fromDest
    informationElements := fun _ => [] }

/-- `SetBearerCapabilities`. -/
def setBearerCapabilities (capability transferRate codingStandard userInfoLayer1 : Nat) : Q931 :=
  let first := UInt8.ofNat (0x80 ||| ((codingStandard &&& 3) <<< 5) ||| (capability &&& 31))
  let last := UInt8.ofNat (0x80 ||| (1 <<< 5) ||| userInfoLayer1)
  m.setIE bearerCapabilityIE
    (match codingStandard with
    | 0 =>
      match transferRate with
      | 1 => [first, 0x90, last]
      | 2 => [first, 0x91, last]
      | 6 => [first, 0x93, last]
      | 24 => [first, 0x95, last]
      | 30 => [first, 0x97, last]
      | _ => [first, 0x18, UInt8.ofNat (0x80 ||| transferRate), last]
    | 1 => [first, 0x80]
    | _ => [first])
    false

/-- `SetCause`. -/
def setCause (value standard location : Nat) : Q931 :=
  m.setIE causeIE [UInt8.ofNat (0x80 ||| ((standard &&& 3) <<< 5) ||| (location &&& 15)),
    UInt8.ofNat (0x80 ||| value)] false

/-- `SetCallState`. -/
def setCallState (value standard : Nat) : Q931 :=
  if 0x100 ≤ value then m
  else m.setIE callStateIE [UInt8.ofNat (((standard &&& 3) <<< 6) ||| value)] false

/-- `SetSignalInfo`. -/
def setSignalInfo (value : Nat) : Q931 := m.setIE signalIE [UInt8.ofNat value] false

/-- `SetKeypad`. A text is put in with the zero that ends it. -/
def setKeypad (digits : Octets) : Q931 := m.setIE keypadIE (digits ++ [0]) false

/-- `SetProgressIndicator`. -/
def setProgressIndicator (description codingStandard location : Nat) : Q931 :=
  m.setIE progressIndicatorIE
    [UInt8.ofNat (0x80 + ((codingStandard &&& 0x03) <<< 5) + (location &&& 0x0f)),
      UInt8.ofNat (0x80 + (description &&& 0x7f))] false

/-- `SetDisplayName`. -/
def setDisplayName (name : Octets) : Q931 :=
  if name = [] then m else m.setIE displayIE (name ++ [0]) false

/-- The octet `(BYTE)(flag|((type&7)<<4)|(plan&15))`. -/
def numberOctet (flag type plan : Nat) : UInt8 :=
  UInt8.ofNat (flag ||| ((type &&& 7) <<< 4) ||| (plan &&& 15))

/-- `SetNumberIE`. -/
def setNumberIE (number : Octets) (plan type : Nat) (presentation screening reason : Int) :
    Octets :=
  let shown := UInt8.ofNat (0x80 ||| ((presentation % 4).toNat <<< 5) ||| (screening % 4).toNat)
  if presentation = -1 ∨ screening = -1 then
    numberOctet 0x80 type plan :: number
  else if reason = -1 then
    numberOctet 0 type plan :: shown :: number
  else
    numberOctet 0x80 type plan :: shown :: UInt8.ofNat (0x80 ||| (reason % 16).toNat) :: number

/-- `SetCallingPartyNumber`. -/
def setCallingPartyNumber (number : Octets) (plan type : Nat) (presentation screening : Int) :
    Q931 :=
  m.setIE callingPartyNumberIE (setNumberIE number plan type presentation screening (-1)) false

/-- `SetCalledPartyNumber`. -/
def setCalledPartyNumber (number : Octets) (plan type : Nat) : Q931 :=
  m.setIE calledPartyNumberIE (setNumberIE number plan type (-1) (-1) (-1)) false

/-- `SetRedirectingNumber`. -/
def setRedirectingNumber (number : Octets) (plan type : Nat)
    (presentation screening reason : Int) : Q931 :=
  m.setIE redirectingNumberIE (setNumberIE number plan type presentation screening reason) false

/-- `SetConnectedNumber`. -/
def setConnectedNumber (number : Octets) (plan type : Nat)
    (presentation screening reason : Int) : Q931 :=
  m.setIE connectedNumberIE (setNumberIE number plan type presentation screening reason) false

/-- `SetChannelIdentification`. -/
def setChannelIdentification (interfaceType preferredOrExclusive : Nat) (channelNumber : Int) :
    Q931 :=
  let preferred := (preferredOrExclusive &&& 1) <<< 3
  m.setIE channelIdentificationIE
    (if interfaceType = 0 then
      if channelNumber = -1 then [0x80 ||| 0x04 ||| 0x03]
      else if channelNumber = 0 then [0x80 ||| 0x08 ||| 0x04]
      else if 0 < channelNumber then
        [UInt8.ofNat (0x80 ||| 0x04 ||| preferred ||| (channelNumber % 4).toNat)]
      else [0]
    else if interfaceType = 1 then
      if channelNumber = -1 then [0x80 ||| 0x20 ||| 0x04 ||| 0x03]
      else if channelNumber = 0 then [0x80 ||| 0x20 ||| 0x08 ||| 0x04]
      else if 0 < channelNumber then
        [UInt8.ofNat (0x80 ||| 0x20 ||| 0x04 ||| preferred ||| 0x01), 0x80 ||| 0x03,
          UInt8.ofNat (0x80 ||| channelNumber.toNat)]
      else [0]
    else [0])
    false

/-- `BuildFacility`. -/
def buildFacility (callRef : Int) (fromDest : Bool) : Q931 :=
  (m.build facilityMsg callRef fromDest).setIE facilityIE [] false

/-- `BuildInformation`. -/
def buildInformation (callRef : Int) (fromDest : Bool) : Q931 :=
  m.build informationMsg callRef fromDest

/-- `BuildProgress`. -/
def buildProgress (callRef : Int) (fromDest : Bool)
    (description codingStandard location : Nat) : Q931 :=
  (m.build progressMsg callRef fromDest).setProgressIndicator description codingStandard location

/-- `BuildNotify`. -/
def buildNotify (callRef : Int) (fromDest : Bool) : Q931 := m.build notifyMsg callRef fromDest

/-- `BuildSetupAcknowledge`. -/
def buildSetupAcknowledge (callRef : Int) : Q931 := m.build setupAckMsg callRef true

/-- `BuildCallProceeding`. -/
def buildCallProceeding (callRef : Int) : Q931 := m.build callProceedingMsg callRef true

/-- `BuildAlerting`. -/
def buildAlerting (callRef : Int) : Q931 := m.build alertingMsg callRef true

/-- `BuildSetup`, where `GenerateCallReference` would give this reference. -/
def buildSetup (callRef : Int) (generated : Fin 0x8000) : Q931 :=
  (m.build setupMsg (if callRef ≤ 0 then (generated : Nat) else callRef) false).setBearerCapabilities
    0 1 0 5

/-- `BuildConnect`. -/
def buildConnect (callRef : Int) : Q931 :=
  (m.build connectMsg callRef true).setBearerCapabilities 0 1 0 5

/-- `BuildStatus`. -/
def buildStatus (callRef : Int) (fromDest : Bool) : Q931 :=
  ((m.build statusMsg callRef fromDest).setCallState 10 0).setCause 30 0 0

/-- `BuildStatusEnquiry`. -/
def buildStatusEnquiry (callRef : Int) (fromDest : Bool) : Q931 :=
  m.build statusEnquiryMsg callRef fromDest

/-- `BuildReleaseComplete`. -/
def buildReleaseComplete (callRef : Int) (fromDest : Bool) : Q931 :=
  m.build releaseCompleteMsg callRef fromDest

end Building

end Q931

end H323

end CryptoOpal

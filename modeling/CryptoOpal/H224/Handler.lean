import CryptoOpal.H224.Header
import CryptoOpal.Lib.Reads

/-!
# Received H.224 Frames

A frame comes in over RTP. If it is for everybody it goes to the client that it
names, or, for the client 0, to the handler itself: a list of the clients that
the other side has, or the extra capabilities of one of them.

The handler reads the information field through a pointer, at places that the
frame itself says. What is behind the field is what an earlier frame left there.

## Main definitions

* `decodeAnnexQ`: A frame, as it is accepted.
* `LocalClient`: A client, with what is known about the other side.
* `Handled`: Where a frame went, with the size of the client data.
* `onReceivedFrame`: The handler, with the octets that it reads.
-/

namespace CryptoOpal

namespace H224

open Lib (Octets overwrite Traced octetAt)

/-- The validity checks of `H224_Frame`. -/
def Valid (f : Q922Frame) : Prop :=
  f.theArray.getD 0 0 = 0x00 ∧ (f.theArray.getD 1 0 = 0x61 ∨ f.theArray.getD 1 0 = 0x71) ∧
    f.theArray.getD 2 0 = 0x03

instance (f : Q922Frame) : Decidable (Valid f) := inferInstanceAs (Decidable (_ ∧ _))

/-- `Q922_Frame::DecodeAnnexQ` and `H224_Frame::DecodeAnnexQ`, into a frame. -/
def decodeAnnexQ (f : Q922Frame) (data : Octets) : Option Q922Frame :=
  if 260 + q922HeaderSize ≤ data.length ∨ data.length ≤ q922HeaderSize then none
  else
    let theArray := f.theArray ++ List.replicate (data.length - f.theArray.length) 0
    let frame := Q922Frame.setInformationFieldSize (overwrite theArray 0 data)
      (data.length - q922HeaderSize)
    if Valid frame then some frame else none

/-- `H224_Frame::DecodeHDLC`, into a frame. -/
def decodeHdlcFrame (f : Q922Frame) (data : Lib.Memory) (size : Nat) : Option Q922Frame :=
  (f.decodeHdlc data size).bind fun frame => if Valid frame then some frame else none

/-- What a list of clients says about one of them. -/
structure ClientEntry where
  clientID : UInt8
  extendedClientID : UInt8
  countryCode : UInt8
  countryCodeExtension : UInt8
  manufacturerCode : UInt16
  manufacturerClientID : UInt8
  deriving DecidableEq

/-- A client of the handler, with what is known about the other side. -/
structure LocalClient where
  client : H224Client
  remoteClientAvailable : Bool
  remoteClientHasExtraCapabilities : Bool

/-- Where a frame went. The size is that of the client data that were passed on. -/
inductive Handled where
  | ignored
  | message (client : H224Client) (size : Int)
  | clientList
  | capabilities (client : H224Client) (offset : Nat) (size : Int)
  | sendClientList
  | sendExtraCapabilities

/-- The clients after a frame, and where it went. -/
structure Reaction where
  clients : List LocalClient
  handled : Handled

/-- A client is the one of an entry. -/
def Identifies (entry : ClientEntry) (client : H224Client) : Prop :=
  client.clientID = entry.clientID ∧
    (entry.clientID < extendedClientIDCode ∨
      (entry.clientID = extendedClientIDCode ∧
        client.extendedClientID = entry.extendedClientID) ∨
      (entry.clientID = nonStandardClientID ∧
        client.countryCode = entry.countryCode ∧
        client.countryCodeExtension = entry.countryCodeExtension ∧
        client.manufacturerCode = entry.manufacturerCode ∧
        client.manufacturerClientID = entry.manufacturerClientID))

instance (entry : ClientEntry) (client : H224Client) : Decidable (Identifies entry client) :=
  inferInstanceAs (Decidable (_ ∧ _))

/-- `SetRemoteClientAvailable`, for the first client that an entry identifies. -/
def markAvailable (entry : ClientEntry) (hasExtraCapabilities : Bool) :
    List LocalClient → List LocalClient
  | [] => []
  | c :: clients =>
    if Identifies entry c.client then ⟨c.client, true, hasExtraCapabilities⟩ :: clients
    else c :: markAvailable entry hasExtraCapabilities clients

section Reading

variable (field : Nat → UInt8) (size : Nat) (clients : List LocalClient)

/-- Two octets, the high one first. -/
def wordAt (i : Nat) : Traced UInt16 := do
  let high ← octetAt field i
  let low ← octetAt field (i + 1)
  pure (high.toUInt16 <<< 8 ||| low.toUInt16)

/-- `GetClientID`. -/
def readClientID : Traced UInt8 := do
  let octet ← octetAt field 4
  pure (octet &&& 0x7f)

/-- `GetHeaderSize`. -/
def headerSizeOf (clientID : UInt8) : Nat :=
  if clientID < extendedClientIDCode then 6
  else if clientID = extendedClientIDCode then 7
  else 11

def readHeaderSize : Traced Nat := do
  let clientID ← readClientID field
  pure (headerSizeOf clientID)

/-- `GetClientDataSize`. -/
def readClientDataSize : Traced Int := do
  let headerSize ← readHeaderSize field
  pure ((size : Int) - headerSize)

/-- The getters of an extended or non-standard client, which look at the client identifier first. -/
def readOf {α : Type} (clientID : UInt8) (none : α) (read : Traced α) : Traced α := do
  let id ← readClientID field
  if id ≠ clientID then pure none else read

/-- The comparison with a client in `OnReceivedFrame`. A `&&` stops at what is different. -/
def matchesFrame (clientID : UInt8) (client : H224Client) : Traced Bool :=
  if clientID < extendedClientIDCode then pure true
  else if clientID = extendedClientIDCode then do
    let extendedClientID ← readOf field extendedClientIDCode 0x00 (octetAt field 5)
    pure (decide (client.extendedClientID = extendedClientID))
  else do
    let countryCode ← readOf field nonStandardClientID 0x00 (octetAt field 5)
    if client.countryCode = countryCode then do
      let countryCodeExtension ← readOf field nonStandardClientID 0x00 (octetAt field 6)
      if client.countryCodeExtension = countryCodeExtension then do
        let manufacturerCode ← readOf field nonStandardClientID 0x0000 (wordAt field 7)
        if client.manufacturerCode = manufacturerCode then do
          let manufacturerClientID ← readOf field nonStandardClientID 0x00 (octetAt field 9)
          pure (decide (client.manufacturerClientID = manufacturerClientID))
        else pure false
      else pure false
    else pure false

/-- The loop of `OnReceivedFrame`: the client that the frame is for. -/
def findClient (clientID : UInt8) : List LocalClient → Traced (Option H224Client)
  | [] => pure none
  | c :: clients =>
    if c.client.clientID = clientID then do
      let found ← matchesFrame field clientID c.client
      if found then pure (some c.client) else findClient clientID clients
    else findClient clientID clients

/-- What follows the identifier of a client in a list, from `i` on. -/
def readEntry (clientID : UInt8) (i : Nat) : Traced ClientEntry :=
  if clientID = extendedClientIDCode then do
    let extendedClientID ← octetAt field i
    pure ⟨clientID, extendedClientID, 0xff, 0x00, 0x0000, 0x00⟩
  else if clientID = nonStandardClientID then do
    let countryCode ← octetAt field i
    let countryCodeExtension ← octetAt field (i + 1)
    let manufacturerCode ← wordAt field (i + 2)
    let manufacturerClientID ← octetAt field (i + 4)
    pure ⟨clientID, 0x00, countryCode, countryCodeExtension, manufacturerCode,
      manufacturerClientID⟩
  else pure ⟨clientID, 0x00, 0xff, 0x00, 0x0000, 0x00⟩

/-- How many octets follow the identifier of a client. -/
def entryOctets (clientID : UInt8) : Nat :=
  if clientID = extendedClientIDCode then 1
  else if clientID = nonStandardClientID then 5
  else 0

/-- The loop of `OnReceivedClientList`, with so many clients left, from `dataIndex` on. -/
def readClients (data : Nat) : Nat → Nat → List LocalClient → Traced (List LocalClient)
  | 0, _, clients => pure clients
  | numberOfClients + 1, dataIndex, clients => do
    let octet ← octetAt field (data + dataIndex)
    let entry ← readEntry field (octet &&& 0x7f) (data + dataIndex + 1)
    readClients data numberOfClients (dataIndex + 1 + entryOctets (octet &&& 0x7f))
      (markAvailable entry (decide (octet &&& 0x80 ≠ 0)) clients)

/-- `OnReceivedClientList`. -/
def onReceivedClientList : Traced Reaction := do
  let data ← readHeaderSize field
  let numberOfClients ← octetAt field (data + 2)
  let clients ← readClients field data numberOfClients.toNat 3
    (clients.map fun c => ⟨c.client, false, false⟩)
  pure ⟨clients, .clientList⟩

/-- The last loop of `OnReceivedExtraCapabilities`: what follows the entry of a client is passed on
to it. -/
def passCapabilities (data dataIndex : Nat) (entry : ClientEntry) : Traced Reaction :=
  match clients.find? fun c => decide (Identifies entry c.client) with
  | some c => do
    let clientDataSize ← readClientDataSize field size
    pure ⟨markAvailable entry true clients,
      .capabilities c.client (data + dataIndex) (clientDataSize - dataIndex)⟩
  | none => pure ⟨clients, .ignored⟩

/-- `OnReceivedExtraCapabilities`. -/
def onReceivedExtraCapabilities : Traced Reaction := do
  let data ← readHeaderSize field
  let octet ← octetAt field (data + 2)
  let entry ← readEntry field (octet &&& 0x7f) (data + 3)
  passCapabilities field size clients data (3 + entryOctets (octet &&& 0x7f)) entry

/-- The second octet of a CME message says whether it is a message or a command. -/
def onReceivedCME (data : Nat) (message : Traced Reaction) (command : Handled) :
    Traced Reaction := do
  let second ← octetAt field (data + 1)
  if second = 0x00 then message
  else if second = 0xff then pure ⟨clients, command⟩
  else pure ⟨clients, .ignored⟩

/-- `OnReceivedCMEMessage`. -/
def onReceivedCMEMessage : Traced Reaction := do
  let data ← readHeaderSize field
  let first ← octetAt field data
  if first = 0x01 then
    onReceivedCME field clients data (onReceivedClientList field clients) .sendClientList
  else if first = 0x02 then
    onReceivedCME field clients data (onReceivedExtraCapabilities field size clients)
      .sendExtraCapabilities
  else pure ⟨clients, .ignored⟩

/-- `OnReceivedFrame`, on an information field of `size` octets. -/
def onReceivedFrame : Traced Reaction := do
  let destination ← wordAt field 0
  if destination ≠ broadcast then pure ⟨clients, .ignored⟩
  else do
    let clientID ← readClientID field
    if clientID = cmeClientID then onReceivedCMEMessage field size clients
    else do
      let found ← findClient field clientID clients
      match found with
      | some client => do
        let clientDataSize ← readClientDataSize field size
        pure ⟨clients, .message client clientDataSize⟩
      | none => pure ⟨clients, .ignored⟩

end Reading

/-- The size of the client data, if any were passed on. -/
def Handled.passedSize : Handled → Option Int
  | message _ size | capabilities _ _ size => some size
  | _ => none

/-- The octets from the information field on. -/
def Q922Frame.fieldOctets (f : Q922Frame) (i : Nat) : UInt8 := f.theArray.getD (q922HeaderSize + i) 0

/-- All that is read is in the information field, and no size is negative. -/
def Q922Frame.HandledInside (f : Q922Frame) (clients : List LocalClient) : Prop :=
  let reaction := onReceivedFrame f.fieldOctets f.informationFieldSize clients
  reaction.Within 0 f.informationFieldSize ∧ ∀ size ∈ reaction.value.handled.passedSize, 0 ≤ size

end H224

end CryptoOpal

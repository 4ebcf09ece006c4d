import CryptoOpal.H224.HdlcRoundTrip
import Mathlib.Data.List.GetD

/-!
# The Header of an H.224 Frame

Behind the Q.922 header are the addresses of both terminals and the client. A
standard client has one octet, an extended one has another, and a non-standard
one has five others. The octet with the flags and the segment number follows.

The setters of the flags have it at the place that it has for a standard client.
So for any other client they write into the first of its further octets, and the
constructor does, which clears all of them. The high octet of a manufacturer
code is shifted out before it is stored.

## Main definitions

* `H224Client`: What identifies a client.
* `H224Frame`: A frame, with room for the longest header.
* `H224Frame.create`: The constructor.
* `HeaderSetter`: A call of a setter.
* `HeaderValues`: What the setters were given.
* `H224Frame.ReadsBack`: What the getters are to return.
* `H224Client.Spared`: The clients that the flags do not write over.

## Theorems

* `flagsOctet_set`: A setter of the flags, on the octet.
* `holds_create`, `holds_apply`: The octets, after the constructor and after a setter.
* `header_readsBack_spared`: The getters, on the octets.
* `headerReadsBack_iff`: When the getters return what was set.
-/

namespace CryptoOpal

namespace H224

open Lib (Octets)

/-- `CMEClientID`, `ExtendedClientID` and `NonStandardClientID`. -/
def cmeClientID : UInt8 := 0x00
def extendedClientIDCode : UInt8 := 0x7e
def nonStandardClientID : UInt8 := 0x7f

/-- `Broadcast`. -/
def broadcast : UInt16 := 0x0000

/-- What identifies an `OpalH224Client`. -/
structure H224Client where
  clientID : UInt8
  extendedClientID : UInt8
  countryCode : UInt8
  countryCodeExtension : UInt8
  manufacturerCode : UInt16
  manufacturerClientID : UInt8
  known : clientID ≤ 0x7f

/-- `H224_Frame`. The constructor takes room for the longest header, and an array never shrinks. -/
structure H224Frame extends Q922Frame where
  room : 14 ≤ theArray.length

namespace H224Frame

variable (f : H224Frame)

/-- `GetInformationFieldPtr()[i]`. -/
def octet (i : Nat) : UInt8 := f.theArray.getD (q922HeaderSize + i) 0

/-- `theArray[i] = octet`. -/
def putAt (i : Nat) (octet : UInt8) : H224Frame where
  theArray := f.theArray.set i octet
  informationFieldSize := f.informationFieldSize
  fits := by rw [List.length_set]; exact f.fits
  room := by rw [List.length_set]; exact f.room

/-- `GetInformationFieldPtr()[i] = octet`. -/
def put (i : Nat) (octet : UInt8) : H224Frame := f.putAt (q922HeaderSize + i) octet

/-- `GetLowOrderAddressOctet`. -/
def getLowOrderAddressOctet : UInt8 := f.theArray.getD 1 0

/-- `IsHighPriority`. -/
def isHighPriority : Bool := decide (f.getLowOrderAddressOctet = 0x71)

/-- `SetHighPriority`. -/
def setHighPriority (flag : Bool) : H224Frame :=
  (f.putAt 0 0x00).putAt 1 (if flag then 0x71 else 0x61)

/-- An address, of two octets. -/
def getAddress (i : Nat) : UInt16 := (f.octet i).toUInt16 <<< 8 ||| (f.octet (i + 1)).toUInt16

def setAddress (i : Nat) (address : UInt16) : H224Frame :=
  (f.put i (address >>> 8).toUInt8).put (i + 1) address.toUInt8

/-- `GetDestinationTerminalAddress`. -/
def getDestinationTerminalAddress : UInt16 := f.getAddress 0

/-- `SetDestinationTerminalAddress`. -/
def setDestinationTerminalAddress (address : UInt16) : H224Frame := f.setAddress 0 address

/-- `GetSourceTerminalAddress`. -/
def getSourceTerminalAddress : UInt16 := f.getAddress 2

/-- `SetSourceTerminalAddress`. -/
def setSourceTerminalAddress (address : UInt16) : H224Frame := f.setAddress 2 address

/-- `GetClientID`. -/
def getClientID : UInt8 := f.octet 4 &&& 0x7f

/-- `SetClientID`. -/
def setClientID (clientID : UInt8) : H224Frame := f.put 4 (clientID &&& 0x7f)

/-- `GetExtendedClientID`. -/
def getExtendedClientID : UInt8 := if f.getClientID ≠ extendedClientIDCode then 0x00 else f.octet 5

/-- `SetExtendedClientID`. -/
def setExtendedClientID (extendedClientID : UInt8) : H224Frame :=
  if f.getClientID ≠ extendedClientIDCode then f else f.put 5 extendedClientID

/-- `GetCountryCode`. -/
def getCountryCode : UInt8 := if f.getClientID ≠ nonStandardClientID then 0x00 else f.octet 5

/-- `GetCountryCodeExtension`. -/
def getCountryCodeExtension : UInt8 :=
  if f.getClientID ≠ nonStandardClientID then 0x00 else f.octet 6

/-- `GetManufacturerCode`. -/
def getManufacturerCode : UInt16 :=
  if f.getClientID ≠ nonStandardClientID then 0x0000
  else (f.octet 7).toUInt16 <<< 8 ||| (f.octet 8).toUInt16

/-- `GetManufacturerClientID`. -/
def getManufacturerClientID : UInt8 :=
  if f.getClientID ≠ nonStandardClientID then 0x00 else f.octet 9

/-- `SetNonStandardClientInformation`. -/
def setNonStandardClientInformation (countryCode countryCodeExtension : UInt8)
    (manufacturerCode : UInt16) (manufacturerClientID : UInt8) : H224Frame :=
  if f.getClientID ≠ nonStandardClientID then f
  else
    -- The high octet is `(BYTE)(manufacturerCode << 8)`, in an `int`.
    ((((f.put 5 countryCode).put 6 countryCodeExtension).put 7
      (manufacturerCode.toUInt32 <<< 8).toUInt8).put 8 manufacturerCode.toUInt8).put 9
      manufacturerClientID

/-- `SetClient`. -/
def setClient (client : H224Client) : H224Frame :=
  let f := f.setClientID client.clientID
  if client.clientID = extendedClientIDCode then f.setExtendedClientID client.extendedClientID
  else if client.clientID = nonStandardClientID then
    f.setNonStandardClientInformation client.countryCode client.countryCodeExtension
      client.manufacturerCode client.manufacturerClientID
  else f

/-- A flag, which is a bit of octet 5 of the information field. -/
def getFlag (bit : UInt8) : Bool := decide (f.octet 5 &&& bit ≠ 0)

def setFlag (bit : UInt8) (flag : Bool) : H224Frame :=
  f.put 5 (if flag then f.octet 5 ||| bit else f.octet 5 &&& ~~~bit)

/-- `GetBS`. -/
def getBS : Bool := f.getFlag 0x80

/-- `SetBS`. -/
def setBS (flag : Bool) : H224Frame := f.setFlag 0x80 flag

/-- `GetES`. -/
def getES : Bool := f.getFlag 0x40

/-- `SetES`. -/
def setES (flag : Bool) : H224Frame := f.setFlag 0x40 flag

/-- `GetC1`. -/
def getC1 : Bool := f.getFlag 0x20

/-- `SetC1`. -/
def setC1 (flag : Bool) : H224Frame := f.setFlag 0x20 flag

/-- `GetC0`. -/
def getC0 : Bool := f.getFlag 0x10

/-- `SetC0`. -/
def setC0 (flag : Bool) : H224Frame := f.setFlag 0x10 flag

/-- `GetSegmentNumber`. -/
def getSegmentNumber : UInt8 := f.octet 5 &&& 0x0f

/-- `SetSegmentNumber`. -/
def setSegmentNumber (segmentNumber : UInt8) : H224Frame :=
  f.put 5 ((f.octet 5 &&& 0xf0) ||| (segmentNumber &&& 0x0f))

/-- `GetHeaderSize`. -/
def getHeaderSize : Nat :=
  if f.getClientID < extendedClientIDCode then 6
  else if f.getClientID = extendedClientIDCode then 7
  else 11

/-- The array does not get shorter. -/
theorem room_setClientDataSize (size : Nat) :
    14 ≤ (Q922Frame.setInformationFieldSize f.theArray
      (size + f.getHeaderSize)).theArray.length := by
  have hroom := f.room
  simp only [Q922Frame.setInformationFieldSize, List.length_append]
  omega

/-- `SetClientDataSize`. -/
def setClientDataSize (size : Nat) : H224Frame where
  toQ922Frame := Q922Frame.setInformationFieldSize f.theArray (size + f.getHeaderSize)
  room := f.room_setClientDataSize size

/-- What the constructor of `Q922_Frame` leaves. -/
def blank (size : Nat) : H224Frame where
  theArray := List.replicate (q922HeaderSize + (11 + size)) 0
  informationFieldSize := 11 + size
  fits := by rw [List.length_replicate]
  room := by rw [List.length_replicate]; unfold q922HeaderSize; omega

/-- The flags and the segment number, which the constructor clears. -/
def clearFlags : H224Frame :=
  ((((f.setBS false).setES false).setC1 false).setC0 false).setSegmentNumber 0x00

/-- The constructor. -/
def create (client : H224Client) (size : Nat) : H224Frame :=
  (((((((blank size).setHighPriority false).putAt 2 0x03).setDestinationTerminalAddress
    broadcast).setSourceTerminalAddress broadcast).setClient client).clearFlags).setClientDataSize
    size

end H224Frame

/-- A call of a setter. -/
inductive HeaderSetter where
  | destination (address : UInt16)
  | source (address : UInt16)
  | priority (flag : Bool)
  | bs (flag : Bool)
  | es (flag : Bool)
  | c1 (flag : Bool)
  | c0 (flag : Bool)
  | segment (segmentNumber : UInt8)
  deriving DecidableEq

/-- A call of a setter, on a frame. -/
def H224Frame.apply (f : H224Frame) : HeaderSetter → H224Frame
  | .destination address => f.setDestinationTerminalAddress address
  | .source address => f.setSourceTerminalAddress address
  | .priority flag => f.setHighPriority flag
  | .bs flag => f.setBS flag
  | .es flag => f.setES flag
  | .c1 flag => f.setC1 flag
  | .c0 flag => f.setC0 flag
  | .segment segmentNumber => f.setSegmentNumber segmentNumber

/-- What the setters were given last. -/
structure HeaderValues where
  destination : UInt16
  source : UInt16
  priority : Bool
  bs : Bool
  es : Bool
  c1 : Bool
  c0 : Bool
  segment : Fin 16
  deriving DecidableEq

namespace HeaderValues

/-- What the constructor sets. -/
def initial : HeaderValues := ⟨broadcast, broadcast, false, false, false, false, false, 0⟩

/-- A call of a setter. A segment number has four bits. -/
def apply (v : HeaderValues) : HeaderSetter → HeaderValues
  | .destination address => { v with destination := address }
  | .source address => { v with source := address }
  | .priority flag => { v with priority := flag }
  | .bs flag => { v with bs := flag }
  | .es flag => { v with es := flag }
  | .c1 flag => { v with c1 := flag }
  | .c0 flag => { v with c0 := flag }
  | .segment segmentNumber => { v with segment := Fin.ofNat 16 segmentNumber.toNat }

end HeaderValues

/-- The octet of some flags and a segment number. -/
def packFlags (bs es c1 c0 : Bool) (segment : Fin 16) : UInt8 :=
  (if bs then 0x80 else 0) ||| (if es then 0x40 else 0) ||| (if c1 then 0x20 else 0) |||
    (if c0 then 0x10 else 0) ||| UInt8.ofNat segment

/-- The octet of the flags and the segment number. -/
def HeaderValues.flagsOctet (v : HeaderValues) : UInt8 := packFlags v.bs v.es v.c1 v.c0 v.segment

/-- The getters of the frame return what the setters were given last, and those of the client what
the constructor was given. -/
structure H224Frame.ReadsBack (f : H224Frame) (client : H224Client) (v : HeaderValues) : Prop where
  destination : f.getDestinationTerminalAddress = v.destination
  source : f.getSourceTerminalAddress = v.source
  priority : f.isHighPriority = v.priority
  bs : f.getBS = v.bs
  es : f.getES = v.es
  c1 : f.getC1 = v.c1
  c0 : f.getC0 = v.c0
  segment : f.getSegmentNumber = UInt8.ofNat v.segment
  clientID : f.getClientID = client.clientID
  extended : client.clientID = extendedClientIDCode →
    f.getExtendedClientID = client.extendedClientID
  nonStandard : client.clientID = nonStandardClientID →
    f.getCountryCode = client.countryCode ∧
      f.getCountryCodeExtension = client.countryCodeExtension ∧
      f.getManufacturerCode = client.manufacturerCode ∧
      f.getManufacturerClientID = client.manufacturerClientID

/-- The first further octet of the client is what the flags write there, and the manufacturer code
has no high octet. -/
def H224Client.Spared (client : H224Client) (v : HeaderValues) : Prop :=
  (client.clientID = extendedClientIDCode → client.extendedClientID = v.flagsOctet) ∧
    (client.clientID = nonStandardClientID →
      client.countryCode = v.flagsOctet ∧ client.manufacturerCode < 0x100)

/-- What the octets of a frame are. The first further octet of the client is that of the flags. -/
structure H224Frame.Holds (f : H224Frame) (client : H224Client) (v : HeaderValues) : Prop where
  low : f.getLowOrderAddressOctet = if v.priority then 0x71 else 0x61
  destination : f.octet 0 = (v.destination >>> 8).toUInt8 ∧ f.octet 1 = v.destination.toUInt8
  source : f.octet 2 = (v.source >>> 8).toUInt8 ∧ f.octet 3 = v.source.toUInt8
  clientID : f.octet 4 = client.clientID
  flags : f.octet 5 = v.flagsOctet
  further : client.clientID = nonStandardClientID →
    f.octet 6 = client.countryCodeExtension ∧ f.octet 7 = 0 ∧
      f.octet 8 = client.manufacturerCode.toUInt8 ∧ f.octet 9 = client.manufacturerClientID

namespace H224Frame

section Octets

variable (f : H224Frame)

theorem getD_set (l : Octets) (i j : Nat) (x : UInt8) (h : i < l.length) :
    (l.set i x).getD j 0 = if i = j then x else l.getD j 0 := by
  rw [List.getD_eq_getElem?_getD, List.getD_eq_getElem?_getD, List.getElem?_set]
  by_cases hij : i = j
  · rw [if_pos hij, if_pos hij, if_pos h]
    rfl
  · rw [if_neg hij, if_neg hij]

/-- An octet of the header is written, and no other one. -/
@[simp] theorem octet_put {i : Nat} (hi : i < 11) (x : UInt8) (j : Nat) :
    (f.put i x).octet j = if i = j then x else f.octet j := by
  have hroom := f.room
  have hlt : q922HeaderSize + i < f.theArray.length := by unfold q922HeaderSize; omega
  show (f.theArray.set _ x).getD _ 0 = _
  rw [getD_set _ _ _ _ hlt]
  simp only [Nat.add_left_cancel_iff]
  rfl

@[simp] theorem low_put (i : Nat) (x : UInt8) :
    (f.put i x).getLowOrderAddressOctet = f.getLowOrderAddressOctet := by
  show (f.theArray.set _ x).getD 1 0 = f.theArray.getD 1 0
  rw [List.getD_eq_getElem?_getD, List.getElem?_set_ne (by unfold q922HeaderSize; omega),
    ← List.getD_eq_getElem?_getD]

/-- The Q.922 header is not part of the information field. -/
@[simp] theorem octet_putAt {i : Nat} (hi : i < 3) (x : UInt8) (j : Nat) :
    (f.putAt i x).octet j = f.octet j := by
  show (f.theArray.set _ x).getD _ 0 = f.theArray.getD _ 0
  rw [List.getD_eq_getElem?_getD, List.getElem?_set_ne (by unfold q922HeaderSize; omega),
    ← List.getD_eq_getElem?_getD]

theorem low_putAt {i : Nat} (hi : i < 3) (x : UInt8) :
    (f.putAt i x).getLowOrderAddressOctet = if i = 1 then x else f.getLowOrderAddressOctet := by
  have hroom := f.room
  exact getD_set f.theArray i 1 x (by omega)

/-- The array grows behind the header. -/
theorem octet_setClientDataSize (size : Nat) {j : Nat} (hj : j < 11) :
    (f.setClientDataSize size).octet j = f.octet j := by
  have hroom := f.room
  have hlt : q922HeaderSize + j < f.theArray.length := by unfold q922HeaderSize; omega
  exact List.getD_append _ _ _ _ hlt

theorem low_setClientDataSize (size : Nat) :
    (f.setClientDataSize size).getLowOrderAddressOctet = f.getLowOrderAddressOctet := by
  have hroom := f.room
  exact List.getD_append _ _ _ _ (by omega)

end Octets

section Flags

/-- The setters and the getters on the octet of the flags, for all of its values. -/
theorem packFlags_spec :
    (∀ (bs es c1 c0 flag : Bool) (segment : Fin 16), let octet := packFlags bs es c1 c0 segment
      ((if flag then octet ||| 0x80 else octet &&& ~~~0x80) = packFlags flag es c1 c0 segment ∧
        (if flag then octet ||| 0x40 else octet &&& ~~~0x40) = packFlags bs flag c1 c0 segment ∧
        (if flag then octet ||| 0x20 else octet &&& ~~~0x20) = packFlags bs es flag c0 segment ∧
        (if flag then octet ||| 0x10 else octet &&& ~~~0x10) =
          packFlags bs es c1 flag segment) ∧
      decide (octet &&& 0x80 ≠ 0) = bs ∧ decide (octet &&& 0x40 ≠ 0) = es ∧
        decide (octet &&& 0x20 ≠ 0) = c1 ∧ decide (octet &&& 0x10 ≠ 0) = c0 ∧
        octet &&& 0x0f = UInt8.ofNat segment) ∧
      (∀ (bs es c1 c0 : Bool) (segment next : Fin 16),
        (packFlags bs es c1 c0 segment &&& 0xf0) ||| UInt8.ofNat next =
          packFlags bs es c1 c0 next) := by
  decide +kernel

/-- A setter of a flag, on the octet of them. -/
theorem packFlags_set (bs es c1 c0 flag : Bool) (segment : Fin 16) :
    let octet := packFlags bs es c1 c0 segment
    (if flag then octet ||| 0x80 else octet &&& ~~~0x80) = packFlags flag es c1 c0 segment ∧
      (if flag then octet ||| 0x40 else octet &&& ~~~0x40) = packFlags bs flag c1 c0 segment ∧
      (if flag then octet ||| 0x20 else octet &&& ~~~0x20) = packFlags bs es flag c0 segment ∧
      (if flag then octet ||| 0x10 else octet &&& ~~~0x10) = packFlags bs es c1 flag segment :=
  (packFlags_spec.1 bs es c1 c0 flag segment).1

/-- The setter of the segment number. -/
theorem packFlags_setSegment (bs es c1 c0 : Bool) (segment next : Fin 16) :
    (packFlags bs es c1 c0 segment &&& 0xf0) ||| UInt8.ofNat next =
      packFlags bs es c1 c0 next :=
  packFlags_spec.2 bs es c1 c0 segment next

/-- The getters of the flags, on the octet of them. -/
theorem packFlags_get (bs es c1 c0 : Bool) (segment : Fin 16) :
    let octet := packFlags bs es c1 c0 segment
    decide (octet &&& 0x80 ≠ 0) = bs ∧ decide (octet &&& 0x40 ≠ 0) = es ∧
      decide (octet &&& 0x20 ≠ 0) = c1 ∧ decide (octet &&& 0x10 ≠ 0) = c0 ∧
      octet &&& 0x0f = UInt8.ofNat segment :=
  (packFlags_spec.1 bs es c1 c0 false segment).2

/-- The number of a segment, and an octet that is cleared flag by flag. -/
theorem segment_masks (x : UInt8) :
    x &&& 0x0f = UInt8.ofNat (Fin.ofNat 16 x.toNat).val ∧
      ((((x &&& ~~~0x80) &&& ~~~0x40) &&& ~~~0x20) &&& ~~~0x10) &&& 0xf0 ||| 0x00 &&& 0x0f = 0 := by
  revert x
  exact Lib.forall_octet (by decide +kernel)

theorem segment_mask (segmentNumber : UInt8) :
    segmentNumber &&& 0x0f = UInt8.ofNat (Fin.ofNat 16 segmentNumber.toNat).val :=
  (segment_masks segmentNumber).1

/-- An octet is cleared flag by flag. -/
theorem cleared (x : UInt8) :
    ((((x &&& ~~~0x80) &&& ~~~0x40) &&& ~~~0x20) &&& ~~~0x10) &&& 0xf0 ||| 0x00 &&& 0x0f = 0 :=
  (segment_masks x).2

end Flags

section Setting

variable {f : H224Frame} {client : H224Client} {v : HeaderValues}

/-- A write to the octet of the flags. -/
theorem Holds.putFlags (h : f.Holds client v) {v' : HeaderValues} {x : UInt8}
    (hx : x = v'.flagsOctet) (hdestination : v'.destination = v.destination)
    (hsource : v'.source = v.source) (hpriority : v'.priority = v.priority) :
    (f.put 5 x).Holds client v' := by
  have hput (j : Nat) (hj : j ≠ 5) : (f.put 5 x).octet j = f.octet j := by
    rw [octet_put f (by decide), if_neg hj.symm]
  refine ⟨?_, ?_, ?_, ?_, ?_, ?_⟩
  · rw [low_put, hpriority, h.low]
  · rw [hput 0 (by decide), hput 1 (by decide), hdestination]
    exact h.destination
  · rw [hput 2 (by decide), hput 3 (by decide), hsource]
    exact h.source
  · rw [hput 4 (by decide), h.clientID]
  · rw [octet_put f (by decide), if_pos rfl, hx]
  · rw [hput 6 (by decide), hput 7 (by decide), hput 8 (by decide), hput 9 (by decide)]
    exact h.further

/-- A setter. -/
theorem holds_apply (h : f.Holds client v) (call : HeaderSetter) :
    (f.apply call).Holds client (v.apply call) := by
  have hflags := h.flags
  unfold HeaderValues.flagsOctet at hflags
  cases call with
  | destination address =>
      simp only [apply, setDestinationTerminalAddress, setAddress]
      refine ⟨?_, ?_, ?_, ?_, ?_, ?_⟩
      · rw [low_put, low_put]
        exact h.low
      · simp [HeaderValues.apply]
      · simpa [HeaderValues.apply] using h.source
      · simpa using h.clientID
      · simpa [HeaderValues.apply, HeaderValues.flagsOctet] using h.flags
      · simpa using h.further
  | source address =>
      simp only [apply, setSourceTerminalAddress, setAddress]
      refine ⟨?_, ?_, ?_, ?_, ?_, ?_⟩
      · rw [low_put, low_put]
        exact h.low
      · simpa [HeaderValues.apply] using h.destination
      · simp [HeaderValues.apply]
      · simpa using h.clientID
      · simpa [HeaderValues.apply, HeaderValues.flagsOctet] using h.flags
      · simpa using h.further
  | priority flag =>
      simp only [apply, setHighPriority]
      refine ⟨?_, ?_, ?_, ?_, ?_, ?_⟩
      · rw [low_putAt _ (by decide), if_pos rfl]
        rfl
      · simpa [HeaderValues.apply] using h.destination
      · simpa [HeaderValues.apply] using h.source
      · simpa using h.clientID
      · simpa [HeaderValues.apply, HeaderValues.flagsOctet] using h.flags
      · simpa using h.further
  | bs flag =>
      refine h.putFlags ?_ rfl rfl rfl
      rw [hflags]
      exact (packFlags_set v.bs v.es v.c1 v.c0 flag v.segment).1
  | es flag =>
      refine h.putFlags ?_ rfl rfl rfl
      rw [hflags]
      exact (packFlags_set v.bs v.es v.c1 v.c0 flag v.segment).2.1
  | c1 flag =>
      refine h.putFlags ?_ rfl rfl rfl
      rw [hflags]
      exact (packFlags_set v.bs v.es v.c1 v.c0 flag v.segment).2.2.1
  | c0 flag =>
      refine h.putFlags ?_ rfl rfl rfl
      rw [hflags]
      exact (packFlags_set v.bs v.es v.c1 v.c0 flag v.segment).2.2.2
  | segment segmentNumber =>
      refine h.putFlags ?_ rfl rfl rfl
      rw [hflags, segment_mask]
      exact packFlags_setSegment v.bs v.es v.c1 v.c0 v.segment _

theorem holds_foldl (calls : List HeaderSetter) (f : H224Frame) (v : HeaderValues)
    (h : f.Holds client v) : (calls.foldl apply f).Holds client (calls.foldl .apply v) := by
  induction calls generalizing f v with
  | nil => exact h
  | cons call calls ih => exact ih _ _ (holds_apply h call)

end Setting

section Construction

variable (f : H224Frame) (client : H224Client)

/-- The flags are cleared, and nothing else changes. -/
theorem octet_clearFlags (j : Nat) :
    f.clearFlags.octet j = if j = 5 then 0 else f.octet j := by
  simp only [clearFlags, setBS, setES, setC1, setC0, setFlag, setSegmentNumber, octet_put,
    Nat.reduceLT, if_true, Bool.false_eq_true, if_false]
  by_cases hj : j = 5
  · subst hj
    simp only [if_true]
    exact cleared _
  · simp only [hj, Ne.symm hj, if_false]

theorem low_clearFlags : f.clearFlags.getLowOrderAddressOctet = f.getLowOrderAddressOctet := by
  simp only [clearFlags, setBS, setES, setC1, setC0, setFlag, setSegmentNumber, low_put]

/-- A client identifier has seven bits. -/
theorem and_known {clientID : UInt8} (h : clientID ≤ 0x7f) : clientID &&& 0x7f = clientID := by
  have hall : ∀ x : UInt8, x ≤ 0x7f → x &&& 0x7f = x := Lib.forall_octet (by decide +kernel)
  exact hall clientID h

theorem getClientID_setClientID : (f.setClientID client.clientID).getClientID = client.clientID := by
  unfold getClientID setClientID
  rw [octet_put f (by decide), if_pos rfl, and_known client.known, and_known client.known]

/-- The octets of a client. -/
theorem setClient_octets : (f.setClient client).getLowOrderAddressOctet =
      f.getLowOrderAddressOctet ∧
    (∀ j < 4, (f.setClient client).octet j = f.octet j) ∧
    (f.setClient client).octet 4 = client.clientID ∧
    (client.clientID = nonStandardClientID →
      (f.setClient client).octet 6 = client.countryCodeExtension ∧
        (f.setClient client).octet 7 = 0 ∧
        (f.setClient client).octet 8 = client.manufacturerCode.toUInt8 ∧
        (f.setClient client).octet 9 = client.manufacturerClientID) := by
  have hid := getClientID_setClientID f client
  have hoctet : (f.setClientID client.clientID).octet 4 = client.clientID := by
    unfold setClientID
    rw [octet_put f (by decide), if_pos rfl, and_known client.known]
  have hbefore (j : Nat) (hj : j < 4) : (f.setClientID client.clientID).octet j = f.octet j := by
    unfold setClientID
    rw [octet_put f (by decide), if_neg (by omega)]
  unfold setClient
  by_cases hextended : client.clientID = extendedClientIDCode
  · have hne : client.clientID ≠ nonStandardClientID := by
      rw [hextended]
      decide
    rw [if_pos hextended]
    unfold setExtendedClientID
    rw [hid, if_neg (not_not_intro hextended)]
    refine ⟨(low_put _ _ _).trans (low_put f _ _), fun j hj => ?_, ?_, fun h => absurd h hne⟩
    · rw [octet_put _ (by decide), if_neg (by omega)]
      exact hbefore j hj
    · rw [octet_put _ (by decide), if_neg (by decide)]
      exact hoctet
  · rw [if_neg hextended]
    by_cases hnon : client.clientID = nonStandardClientID
    · rw [if_pos hnon]
      unfold setNonStandardClientInformation
      rw [hid, if_neg (not_not_intro hnon)]
      refine ⟨?_, fun j hj => ?_, ?_, fun _ => ?_⟩
      · simp only [low_put]
        exact low_put f _ _
      · simp only [octet_put, Nat.reduceLT]
        rw [if_neg (by omega), if_neg (by omega), if_neg (by omega), if_neg (by omega),
          if_neg (by omega)]
        exact hbefore j hj
      · simpa using hoctet
      · have hhigh : (client.manufacturerCode.toUInt32 <<< 8).toUInt8 = 0 := by
          rw [← UInt8.toNat_inj, UInt32.toNat_toUInt8, UInt32.toNat_shiftLeft]
          show (client.manufacturerCode.toNat <<< 8) % 2 ^ 32 % 2 ^ 8 = 0
          rw [Nat.shiftLeft_eq]
          omega
        refine ⟨?_, ?_, ?_, ?_⟩
        · simp
        · simp [hhigh]
        · simp
        · simp
    · rw [if_neg hnon]
      exact ⟨low_put f _ _, hbefore, hoctet, fun h => absurd h hnon⟩

/-- The constructor. -/
theorem holds_create (size : Nat) : (create client size).Holds client .initial := by
  let addressed : H224Frame := ((((blank size).setHighPriority false).putAt 2
    0x03).setDestinationTerminalAddress broadcast).setSourceTerminalAddress broadcast
  have hlow : addressed.getLowOrderAddressOctet = 0x61 := by
    simp only [addressed, setSourceTerminalAddress, setDestinationTerminalAddress, setAddress,
      low_put]
    rw [low_putAt _ (by decide), if_neg (by decide)]
    exact (low_putAt _ (by decide) _).trans (if_pos rfl)
  have haddress (j : Nat) (hj : j < 4) : addressed.octet j = 0 := by
    simp only [addressed, setSourceTerminalAddress, setDestinationTerminalAddress, setAddress,
      octet_put, Nat.reduceLT, Nat.reduceAdd]
    obtain rfl | rfl | rfl | rfl : j = 0 ∨ j = 1 ∨ j = 2 ∨ j = 3 := by omega
    · rfl
    · rfl
    · rfl
    · rfl
  rcases setClient_octets addressed client with ⟨hlow', hbefore, hclient, hfurther⟩
  -- The flags are cleared in whatever octet 5 has become.
  have hoctet (j : Nat) (hj : j < 11) (hne : j ≠ 5) :
      (create client size).octet j = (addressed.setClient client).octet j :=
    (octet_setClientDataSize _ size hj).trans ((octet_clearFlags _ j).trans (if_neg hne))
  refine ⟨?_, ?_, ?_, ?_, ?_, fun hnon => ?_⟩
  · exact ((low_setClientDataSize _ size).trans (low_clearFlags _)).trans (hlow'.trans hlow)
  · rw [hoctet 0 (by decide) (by decide), hoctet 1 (by decide) (by decide),
      hbefore 0 (by decide), hbefore 1 (by decide), haddress 0 (by decide), haddress 1 (by decide)]
    exact ⟨rfl, rfl⟩
  · rw [hoctet 2 (by decide) (by decide), hoctet 3 (by decide) (by decide),
      hbefore 2 (by decide), hbefore 3 (by decide), haddress 2 (by decide), haddress 3 (by decide)]
    exact ⟨rfl, rfl⟩
  · rw [hoctet 4 (by decide) (by decide), hclient]
  · exact (octet_setClientDataSize _ size (by decide)).trans (octet_clearFlags _ 5)
  · rw [hoctet 6 (by decide) (by decide), hoctet 7 (by decide) (by decide),
      hoctet 8 (by decide) (by decide), hoctet 9 (by decide) (by decide)]
    exact hfurther hnon

end Construction

section ReadingBack

variable {f : H224Frame} {client : H224Client} {v : HeaderValues}

/-- An address is read as it was stored. -/
theorem getAddress_eq {i : Nat} {address : UInt16} (h : f.octet i = (address >>> 8).toUInt8 ∧
    f.octet (i + 1) = address.toUInt8) : f.getAddress i = address := by
  unfold getAddress
  rw [h.1, h.2, octets_fcs]

theorem getClientID_eq (h : f.Holds client v) : f.getClientID = client.clientID := by
  unfold getClientID
  rw [h.clientID, and_known client.known]

/-- Without its high octet a manufacturer code is below 256. -/
theorem manufacturerCode_iff (code : UInt16) :
    (0 : UInt8).toUInt16 <<< 8 ||| code.toUInt8.toUInt16 = code ↔ code < 0x100 := by
  have hlow : (0 : UInt8).toUInt16 <<< 8 ||| code.toUInt8.toUInt16 = code.toUInt8.toUInt16 :=
    UInt16.zero_or
  rw [hlow, ← UInt16.toNat_inj, UInt8.toNat_toUInt16, UInt16.toNat_toUInt8, UInt16.lt_iff_toNat_lt]
  show code.toNat % 2 ^ 8 = code.toNat ↔ code.toNat < 256
  omega

/-- The getters, on the octets. -/
theorem header_readsBack_spared (h : f.Holds client v) :
    f.ReadsBack client v ↔ client.Spared v := by
  have hid := getClientID_eq h
  rcases packFlags_get v.bs v.es v.c1 v.c0 v.segment with ⟨hbs, hes, hc1, hc0, hsegment⟩
  constructor
  · intro hread
    refine ⟨fun hextended => ?_, fun hnon => ?_⟩
    · have hget := hread.extended hextended
      unfold getExtendedClientID at hget
      rw [hid, if_neg (not_not_intro hextended), h.flags] at hget
      exact hget.symm
    · rcases hread.nonStandard hnon with ⟨hcountry, -, hcode, -⟩
      unfold getCountryCode at hcountry
      unfold getManufacturerCode at hcode
      rw [hid, if_neg (not_not_intro hnon), h.flags] at hcountry
      rw [hid, if_neg (not_not_intro hnon), (h.further hnon).2.1, (h.further hnon).2.2.1,
        manufacturerCode_iff] at hcode
      exact ⟨hcountry.symm, hcode⟩
  · intro hspared
    refine ⟨getAddress_eq h.destination, getAddress_eq h.source, ?_, ?_, ?_, ?_, ?_, ?_, hid,
      fun hextended => ?_, fun hnon => ?_⟩
    · unfold isHighPriority
      rw [h.low]
      cases v.priority with
      | false => rfl
      | true => rfl
    · unfold getBS getFlag
      rw [h.flags]
      exact hbs
    · unfold getES getFlag
      rw [h.flags]
      exact hes
    · unfold getC1 getFlag
      rw [h.flags]
      exact hc1
    · unfold getC0 getFlag
      rw [h.flags]
      exact hc0
    · unfold getSegmentNumber
      rw [h.flags]
      exact hsegment
    · unfold getExtendedClientID
      rw [hid, if_neg (not_not_intro hextended), h.flags, hspared.1 hextended]
    · rcases hspared.2 hnon with ⟨hcountry, hcode⟩
      rcases h.further hnon with ⟨hextension, hhigh, hlow, hmanufacturer⟩
      unfold getCountryCode getCountryCodeExtension getManufacturerCode getManufacturerClientID
      rw [hid, if_neg (not_not_intro hnon), if_neg (not_not_intro hnon),
        if_neg (not_not_intro hnon), if_neg (not_not_intro hnon), h.flags, hhigh, hlow]
      exact ⟨hcountry.symm, hextension, (manufacturerCode_iff _).2 hcode, hmanufacturer⟩

end ReadingBack

/-- When the getters return what was set, after the constructor and some setters. -/
theorem headerReadsBack_iff (client : H224Client) (size : Nat) (calls : List HeaderSetter) :
    (calls.foldl apply (create client size)).ReadsBack client
        (calls.foldl .apply HeaderValues.initial) ↔
      client.Spared (calls.foldl .apply HeaderValues.initial) :=
  header_readsBack_spared (holds_foldl calls _ _ (holds_create client size))

/-- An extended client that the constructor makes a client 0 of. -/
theorem extendedClient_lost : ¬(create ⟨0x7e, 0x05, 0, 0, 0, 0, by decide⟩ 0).ReadsBack
    ⟨0x7e, 0x05, 0, 0, 0, 0, by decide⟩ .initial :=
  fun h => absurd (h.extended rfl) (by decide)

end H224Frame

end H224

end CryptoOpal

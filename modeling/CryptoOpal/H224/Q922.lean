import CryptoOpal.Lib.Bits

/-!
# Q.922 Frames on a Serial Line

A frame goes out bit by bit: three flags, the header, the information field and
a checksum, and three flags again. An octet is sent with its least significant
bit first, and after five ones in a row a zero is stuffed in, so that the six
ones of a flag are seen nowhere else. The line need not start at the beginning
of an octet.

On the way in the flags are looked for, and the octets between them are put
together until the closing flag comes. The two octets before it are the
checksum.

The buffers belong to the caller: what they held before, and what is behind
their end, is arbitrary.

## Main definitions

* `Q922Frame`: The frame, whose array has room for what it holds.
* `BitPosition`: The octet index and the bit index.
* `Q922Frame.encodeHdlc`: The frame on the line.
* `Q922Frame.decodeHdlc`: A frame from the line, `none` when it is refused.
-/

namespace CryptoOpal

namespace H224

open Lib (Octets Memory bitOf orBit lowFirst)

/-- `Q922_HEADER_SIZE`. -/
def q922HeaderSize : Nat := 3

/-- `Q922_FLAG`. -/
def q922Flag : UInt8 := 0x7e

/-- `fcstable`. -/
def fcsTable : List UInt16 := [
  0x0000, 0x1189, 0x2312, 0x329b, 0x4624, 0x57ad, 0x6536, 0x74bf,
  0x8c48, 0x9dc1, 0xaf5a, 0xbed3, 0xca6c, 0xdbe5, 0xe97e, 0xf8f7,
  0x1081, 0x0108, 0x3393, 0x221a, 0x56a5, 0x472c, 0x75b7, 0x643e,
  0x9cc9, 0x8d40, 0xbfdb, 0xae52, 0xdaed, 0xcb64, 0xf9ff, 0xe876,
  0x2102, 0x308b, 0x0210, 0x1399, 0x6726, 0x76af, 0x4434, 0x55bd,
  0xad4a, 0xbcc3, 0x8e58, 0x9fd1, 0xeb6e, 0xfae7, 0xc87c, 0xd9f5,
  0x3183, 0x200a, 0x1291, 0x0318, 0x77a7, 0x662e, 0x54b5, 0x453c,
  0xbdcb, 0xac42, 0x9ed9, 0x8f50, 0xfbef, 0xea66, 0xd8fd, 0xc974,
  0x4204, 0x538d, 0x6116, 0x709f, 0x0420, 0x15a9, 0x2732, 0x36bb,
  0xce4c, 0xdfc5, 0xed5e, 0xfcd7, 0x8868, 0x99e1, 0xab7a, 0xbaf3,
  0x5285, 0x430c, 0x7197, 0x601e, 0x14a1, 0x0528, 0x37b3, 0x263a,
  0xdecd, 0xcf44, 0xfddf, 0xec56, 0x98e9, 0x8960, 0xbbfb, 0xaa72,
  0x6306, 0x728f, 0x4014, 0x519d, 0x2522, 0x34ab, 0x0630, 0x17b9,
  0xef4e, 0xfec7, 0xcc5c, 0xddd5, 0xa96a, 0xb8e3, 0x8a78, 0x9bf1,
  0x7387, 0x620e, 0x5095, 0x411c, 0x35a3, 0x242a, 0x16b1, 0x0738,
  0xffcf, 0xee46, 0xdcdd, 0xcd54, 0xb9eb, 0xa862, 0x9af9, 0x8b70,
  0x8408, 0x9581, 0xa71a, 0xb693, 0xc22c, 0xd3a5, 0xe13e, 0xf0b7,
  0x0840, 0x19c9, 0x2b52, 0x3adb, 0x4e64, 0x5fed, 0x6d76, 0x7cff,
  0x9489, 0x8500, 0xb79b, 0xa612, 0xd2ad, 0xc324, 0xf1bf, 0xe036,
  0x18c1, 0x0948, 0x3bd3, 0x2a5a, 0x5ee5, 0x4f6c, 0x7df7, 0x6c7e,
  0xa50a, 0xb483, 0x8618, 0x9791, 0xe32e, 0xf2a7, 0xc03c, 0xd1b5,
  0x2942, 0x38cb, 0x0a50, 0x1bd9, 0x6f66, 0x7eef, 0x4c74, 0x5dfd,
  0xb58b, 0xa402, 0x9699, 0x8710, 0xf3af, 0xe226, 0xd0bd, 0xc134,
  0x39c3, 0x284a, 0x1ad1, 0x0b58, 0x7fe7, 0x6e6e, 0x5cf5, 0x4d7c,
  0xc60c, 0xd785, 0xe51e, 0xf497, 0x8028, 0x91a1, 0xa33a, 0xb2b3,
  0x4a44, 0x5bcd, 0x6956, 0x78df, 0x0c60, 0x1de9, 0x2f72, 0x3efb,
  0xd68d, 0xc704, 0xf59f, 0xe416, 0x90a9, 0x8120, 0xb3bb, 0xa232,
  0x5ac5, 0x4b4c, 0x79d7, 0x685e, 0x1ce1, 0x0d68, 0x3ff3, 0x2e7a,
  0xe70e, 0xf687, 0xc41c, 0xd595, 0xa12a, 0xb0a3, 0x8238, 0x93b1,
  0x6b46, 0x7acf, 0x4854, 0x59dd, 0x2d62, 0x3ceb, 0x0e70, 0x1ff9,
  0xf78f, 0xe606, 0xd49d, 0xc514, 0xb1ab, 0xa022, 0x92b9, 0x8330,
  0x7bc7, 0x6a4e, 0x58d5, 0x495c, 0x3de3, 0x2c6a, 0x1ef1, 0x0f78]

/-- `CalculateFCS`. -/
def calculateFcs (data : Octets) : UInt16 :=
  ~~~ data.foldl (fun fcs octet =>
    (fcs >>> 8) ^^^ fcsTable.getD ((fcs ^^^ octet.toUInt16) &&& 0xff).toNat 0) 0xffff

/-- `Q922_Frame`. -/
structure Q922Frame where
  theArray : Octets
  informationFieldSize : Nat
  fits : q922HeaderSize + informationFieldSize ≤ theArray.length

/-- Where the next bit is: bit 7 of an octet is its first. -/
structure BitPosition where
  octetIndex : Nat
  bitIndex : Fin 8
  deriving DecidableEq

/-- Both indices, after a bit. -/
def BitPosition.next (p : BitPosition) : BitPosition :=
  if p.bitIndex = 0 then ⟨p.octetIndex + 1, 7⟩ else ⟨p.octetIndex, p.bitIndex - 1⟩

/-- A buffer that is written, and where. -/
structure Writer where
  buffer : Memory
  position : BitPosition

namespace Writer

variable (w : Writer)

/-- `EncodeBit`. An octet is cleared when its first bit is written. -/
def encodeBit (bit : Bool) : Writer :=
  let p := w.position
  let octet := if p.bitIndex = 7 then 0 else w.buffer p.octetIndex
  ⟨Function.update w.buffer p.octetIndex (orBit octet p.bitIndex bit), p.next⟩

/-- `EncodeOctetNoEscape`. -/
def encodeOctetNoEscape (octet : UInt8) : Writer := (lowFirst octet).foldl encodeBit w

/-- One turn of the loop in `EncodeOctet`, with the ones counter. -/
def encodeEscaped (s : Writer × Nat) (bit : Bool) : Writer × Nat :=
  let written := s.1.encodeBit bit
  if bit then
    if s.2 + 1 = 5 then (written.encodeBit false, 0) else (written, s.2 + 1)
  else
    (written, 0)

/-- `EncodeOctet`. -/
def encodeOctet (s : Writer × Nat) (octet : UInt8) : Writer × Nat :=
  (lowFirst octet).foldl encodeEscaped s

end Writer

section Decoding

variable (buffer : Memory)

/-- `DecodeBit`. -/
def decodeBit (p : BitPosition) : Bool × BitPosition :=
  (bitOf (buffer p.octetIndex) p.bitIndex, p.next)

/-- The first loop of `FindFlagEnd`, at most so many bits long: where the first
flag ends, `none` if there is none or if the line was aborted. -/
def firstFlagEnd (bufferSize : Nat) : Nat → Nat → BitPosition → Option BitPosition
  | 0, _, _ => none
  | fuel + 1, positionsCorrect, p =>
    if p.octetIndex < bufferSize then
      let bit := (decodeBit buffer p).1
      let p := (decodeBit buffer p).2
      if positionsCorrect = 0 then
        firstFlagEnd bufferSize fuel (if bit then 0 else 1) p
      else if positionsCorrect = 7 then
        if bit then none else some p
      else
        firstFlagEnd bufferSize fuel (if bit then positionsCorrect + 1 else 1) p
    else
      none

/-- What the next eight bits are. -/
inductive FlagMatch where
  | other
  | abort
  | flag (after : BitPosition)
  deriving DecidableEq

/-- The inner loop of `FindFlagEnd`, with so many bits left. -/
def matchFlag : Nat → Nat → BitPosition → FlagMatch
  | 0, _, p => .flag p
  | left + 1, positionsCorrect, p =>
    let bit := (decodeBit buffer p).1
    let p := (decodeBit buffer p).2
    if positionsCorrect = 0 then
      if bit then .other else matchFlag left 1 p
    else if positionsCorrect = 7 then
      if bit then .abort else matchFlag left 7 p
    else
      if bit then matchFlag left (positionsCorrect + 1) p else .other

/-- The second loop of `FindFlagEnd`, at most so many flags long: where the first
octet that is none begins. -/
def skipFlags (bufferSize : Nat) : Nat → BitPosition → Option BitPosition
  | 0, _ => none
  | fuel + 1, p =>
    if p.octetIndex < bufferSize then
      match matchFlag buffer 8 0 p with
      | .other => some p
      | .abort => none
      | .flag after => skipFlags bufferSize fuel after
    else
      none

/-- `FindFlagEnd`. Neither loop takes more turns than there are bits. -/
def findFlagEnd (bufferSize : Nat) (p : BitPosition) : Option BitPosition :=
  (firstFlagEnd buffer bufferSize (8 * bufferSize) 0 p).bind
    (skipFlags buffer bufferSize (8 * bufferSize))

/-- `Q922_OK`, `Q922_FLAG` and `Q922_ERROR`. -/
inductive OctetResult where
  | ok (octet : UInt8) (after : BitPosition) (onesCounter : Nat)
  | flag
  | error
  deriving DecidableEq

/-- The loop in `DecodeOctet`, from bit `i` on with so many bits left. -/
def decodeBits : Nat → Nat → UInt8 → BitPosition → Nat → OctetResult
  | 0, _, decodedByte, p, onesCounter => .ok decodedByte p onesCounter
  | left + 1, i, decodedByte, p, onesCounter =>
    let bit := (decodeBit buffer p).1
    let p := (decodeBit buffer p).2
    if bit then
      if onesCounter + 1 = 6 then
        if i = 6 ∧ (decodeBit buffer p).1 = false then .flag else .error
      else
        decodeBits left (i + 1) (orBit decodedByte i true) p (onesCounter + 1)
    else if onesCounter = 5 then
      -- A stuffed zero is skipped. The counter is cleared whatever comes after it.
      decodeBits left (i + 1) (orBit decodedByte i (decodeBit buffer p).1)
        (decodeBit buffer p).2 0
    else
      decodeBits left (i + 1) decodedByte p 0

/-- `DecodeOctet`. -/
def decodeOctet (p : BitPosition) (onesCounter : Nat) : OctetResult :=
  decodeBits buffer 8 0 0 p onesCounter

end Decoding

namespace Q922Frame

variable (f : Q922Frame)

/-- The header octets. -/
def header : Octets := f.theArray.take q922HeaderSize

/-- The information field. -/
def informationField : Octets := Lib.slice f.theArray q922HeaderSize f.informationFieldSize

/-- The opening flags. The first of them is made in a buffer of its own, which
is not initialised. -/
def openingFlags (buffer dummy : Memory) (bitIndex : Fin 8) : Writer :=
  let flags := ((⟨dummy, ⟨0, bitIndex⟩⟩ : Writer).encodeOctetNoEscape q922Flag).encodeOctetNoEscape
    q922Flag
  let octet := flags.buffer 1
  let start : Writer :=
    ⟨Function.update (Function.update buffer 0 octet) 1 octet, ⟨1, flags.position.bitIndex⟩⟩
  (start.encodeOctetNoEscape q922Flag).encodeOctetNoEscape q922Flag

/-- `EncodeHDLC`: the buffer, how many octets of it were written, and the bit
index. -/
def encodeHdlc (buffer dummy : Memory) (bitIndex : Fin 8) : Option (Memory × Nat × Fin 8) :=
  if f.informationFieldSize = 0 then
    none
  else
    let data := f.theArray.take (q922HeaderSize + f.informationFieldSize)
    let fcs := calculateFcs data
    let sent := (data ++ [fcs.toUInt8, (fcs >>> 8).toUInt8]).foldl Writer.encodeOctet
      (openingFlags buffer dummy bitIndex, 0)
    let closed := ((sent.1.encodeOctetNoEscape q922Flag).encodeOctetNoEscape
      q922Flag).encodeOctetNoEscape q922Flag
    let p := closed.position
    some (closed.buffer, if p.bitIndex = 7 then p.octetIndex - 1 else p.octetIndex, p.bitIndex)

/-- `SetInformationFieldSize`. -/
def setInformationFieldSize (theArray : Octets) (size : Nat) : Q922Frame where
  theArray := theArray ++ List.replicate (q922HeaderSize + size - theArray.length) 0
  informationFieldSize := size
  fits := by simp only [List.length_append, List.length_replicate]; omega

/-- The last loop of `DecodeHDLC`, at most so many octets long. -/
def decodeLoop (data : Memory) (size : Nat) : Nat → Octets → Nat → UInt8 → UInt8 →
    BitPosition → Nat → Option Q922Frame
  | 0, _, _, _, _, _, _ => none
  | fuel + 1, theArray, arrayIndex, firstOctet, secondOctet, p, onesCounter =>
    if p.octetIndex < size then
      match decodeOctet data p onesCounter with
      | .error => none
      | .flag =>
        let fcs := (secondOctet.toUInt16 <<< 8) ||| firstOctet.toUInt16
        if fcs = calculateFcs (theArray.take arrayIndex) ∧ q922HeaderSize < arrayIndex then
          some (setInformationFieldSize theArray (arrayIndex - q922HeaderSize))
        else
          none
      | .ok decodedByte p onesCounter =>
        if 260 + q922HeaderSize ≤ arrayIndex + 1 then
          none
        else
          decodeLoop data size fuel (theArray.set arrayIndex firstOctet) (arrayIndex + 1)
            secondOctet decodedByte p onesCounter
    else
      none

/-- The first octets of `DecodeHDLC`, and the loop. -/
def decodeFrom (data : Memory) (size : Nat) (theArray : Octets) (p : BitPosition) :
    Option Q922Frame :=
  if p.octetIndex < size then
    match decodeOctet data p 0 with
    | .ok firstOctet p onesCounter =>
      if p.octetIndex < size then
        match decodeOctet data p onesCounter with
        | .ok secondOctet p onesCounter =>
          decodeLoop data size size theArray 0 firstOctet secondOctet p onesCounter
        | _ => none
      else
        none
    | _ => none
  else
    none

/-- `DecodeHDLC`, into a frame. Each octet takes at least one octet of the line,
so the loop has no more turns than that. -/
def decodeHdlc (data : Memory) (size : Nat) : Option Q922Frame :=
  let theArray := f.theArray ++ List.replicate (size - f.theArray.length) 0
  if size < 2 + 3 + 2 + 1 then
    none
  else
    (findFlagEnd data size ⟨0, 7⟩).bind (decodeFrom data size theArray)

end Q922Frame

end H224

end CryptoOpal

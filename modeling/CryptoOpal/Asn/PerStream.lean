import CryptoOpal.Lib.BitField

/-!
# The Stream of the Packed Encoding Rules

A `PPER_Stream` is an array with a place in it: an octet, and the number of bits of
that octet that are not used yet. The encoder ors bits into an array that it lets grow
by zeros, the decoder takes bits out of an array that it has been given.

A decoder gives a value, refuses its input, or touches an octet that the array does not
have. That last outcome is there to be excluded.

An octet that is more than `maximumStringSize` octets into the array is too far: nothing
is written there, and nothing is read.

## Main definitions

* `PerStream`: A stream.
* `Decoder`: What reads from a stream.
* `singleBitDecode`, `multiBitDecode`, `blockDecode`: The reading primitives.
* `singleBitEncode`, `multiBitEncode`, `blockEncode`: The writing primitives.
-/

namespace CryptoOpal

namespace Asn

open Lib (Octets)

/-- `MaximumStringSize`, also the `upper` that `CheckByteOffset` has by default. -/
def maximumStringSize : Nat := 16 * 1024

/-- `PPER_Stream`. -/
structure PerStream where
  theArray : Octets
  byteOffset : Nat
  bitOffset : Nat
  aligned : Bool
  deriving DecidableEq

/-- How a decoder fails. -/
inductive Fault where
  /-- It returns `PFalse`. -/
  | refused
  /-- It touches what is not in the storage it works on. -/
  | outside
  deriving DecidableEq

/-- What reads from a stream. -/
abbrev Decoder := StateT PerStream (Except Fault)

/-- Return `PFalse`. -/
def refuse {α : Type} : Decoder α := fun _ => .error .refused

/-- An `unsigned` from an `int`. -/
def unsignedOf (x : Int) : Nat := (x % 2 ^ 32).toNat

/-- An `int` from an `unsigned`. -/
def signedOf (n : Nat) : Int := (n : Int).bmod (2 ^ 32)

/-- The loop of `CountBits`, with the number of turns that are left. -/
def countBitsFrom (range : Nat) : Nat → Nat → Nat
  | 0, nBits => nBits
  | turns + 1, nBits => if 2 ^ nBits < range then countBitsFrom range turns (nBits + 1) else nBits

/-- `CountBits`. -/
def countBits (range : Nat) : Nat :=
  if range = 0 then 32 else if range = 1 then 1 else countBitsFrom range 32 0

namespace PerStream

variable (s : PerStream)

/-- `GetSize`. -/
def size : Nat := s.theArray.length

/-- The `int` that `GetBitsLeft` makes an `unsigned` of. -/
def signedBitsLeft : Int := ((s.size : Int) - s.byteOffset) * 8 - (8 - (s.bitOffset : Int))

/-- `GetBitsLeft`. -/
def getBitsLeft : Nat := unsignedOf s.signedBitsLeft

/-- `ByteAlign`. -/
def byteAlign : PerStream :=
  if s.size < s.byteOffset ∨ s.bitOffset = 8 then s
  else { s with bitOffset := 8, byteOffset := s.byteOffset + 1 }

/-- `SetPosition`. -/
def setPosition (newPos : Nat) : PerStream :=
  if maximumStringSize < s.byteOffset then s
  else { s with byteOffset := min newPos s.size, bitOffset := 8 }

/-- One bit further. -/
def nextBit : PerStream :=
  if s.bitOffset = 1 then { s with bitOffset := 8, byteOffset := s.byteOffset + 1 }
  else { s with bitOffset := s.bitOffset - 1 }

/-- `SetSize`, which fills up with zeros. -/
def setSize (n : Nat) : PerStream :=
  { s with theArray := s.theArray.take n ++ List.replicate (n - s.size) 0 }

/-- Or a number into an octet. -/
def orOctet (i v : Nat) : PerStream :=
  { s with theArray := s.theArray.modify i (· ||| UInt8.ofNat v) }

end PerStream

section Decoding

/-- The octet at `byteOffset`. -/
def thisOctet : Decoder UInt8 := fun s =>
  if h : s.byteOffset < s.theArray.length then .ok (s.theArray.get ⟨s.byteOffset, h⟩, s)
  else .error .outside

/-- The octet at `byteOffset++`. -/
def nextOctet : Decoder UInt8 := do
  let b ← thisOctet
  modify fun s : PerStream => { s with byteOffset := s.byteOffset + 1 }
  pure b

/-- `IsAtEnd`. -/
def isAtEnd : Decoder Bool := fun s => .ok (decide (s.size ≤ s.byteOffset), s)

/-- `SingleBitDecode`. Where there is no bit, it is clear. -/
def singleBitDecode : Decoder Bool := fun s =>
  if maximumStringSize < s.byteOffset ∨ s.signedBitsLeft = 0 then .ok (false, s)
  else
    (do
      let b ← thisOctet
      modify PerStream.nextBit
      pure (Lib.bitOf b (s.bitOffset - 1))) s

/-- The loop over whole octets in `MultiBitDecode`. -/
def wholeOctets : Nat → Nat → Decoder Nat
  | 0, value => pure value
  | k + 1, value => do
      let b ← nextOctet
      wholeOctets k (value <<< 8 ||| b.toNat)

/-- The bits behind the whole octets in `MultiBitDecode`. -/
def lastBits (value nBits : Nat) : Decoder Nat :=
  if nBits = 0 then pure value
  else do
    let b ← thisOctet
    modify fun s : PerStream => { s with bitOffset := 8 - nBits }
    pure (value <<< nBits ||| b.toNat >>> (8 - nBits))

/-- `MultiBitDecode`. The value has at most 32 bits, so that no shift loses any. -/
def multiBitDecode (nBits : Nat) : Decoder Nat := fun s =>
  if 32 < nBits ∨ s.getBitsLeft < nBits then .error .refused
  else if nBits = 0 then .ok (0, s)
  else if maximumStringSize < s.byteOffset then .error .refused
  else if nBits < s.bitOffset then
    (do
      let b ← thisOctet
      modify fun s : PerStream => { s with bitOffset := s.bitOffset - nBits }
      pure (b.toNat >>> (s.bitOffset - nBits) &&& (2 ^ nBits - 1))) s
  else
    (do
      let b ← nextOctet
      modify fun s : PerStream => { s with bitOffset := 8 }
      let value ← wholeOctets ((nBits - s.bitOffset) / 8) (b.toNat &&& (2 ^ s.bitOffset - 1))
      lastBits value ((nBits - s.bitOffset) % 8)) s

/-- `BlockDecode` into a buffer that has room for `room` octets: what is read, which may be
less than what was asked for. -/
def blockDecode (room nBytes : Nat) : Decoder Octets := fun s =>
  if nBytes = 0 ∨ maximumStringSize < s.byteOffset + nBytes then .ok ([], s)
  else
    let s := s.byteAlign
    let count := min nBytes (s.size - s.byteOffset)
    if room < count ∨ s.size < s.byteOffset then .error .outside
    else .ok (Lib.slice s.theArray s.byteOffset count, { s with byteOffset := s.byteOffset + count })

end Decoding

namespace PerStream

variable (s : PerStream)

/-- `SingleBitEncode`, where it does write. -/
def putBit (value : Bool) : PerStream :=
  (if value then s.orOctet s.byteOffset (2 ^ (s.bitOffset - 1)) else s).nextBit

/-- `SingleBitEncode`. -/
def singleBitEncode (value : Bool) : PerStream :=
  if maximumStringSize < s.byteOffset then s
  else if s.size ≤ s.byteOffset then (s.setSize (s.byteOffset + 10)).putBit value
  else s.putBit value

/-- The loop over whole octets in `MultiBitEncode`, with the number of bits behind them. -/
def putOctets (value rest : Nat) : Nat → PerStream → PerStream
  | 0, s => s
  | k + 1, s =>
      putOctets value rest k
        { s with
          theArray := s.theArray.set s.byteOffset (UInt8.ofNat (value >>> (8 * k + rest)))
          byteOffset := s.byteOffset + 1 }

/-- The bits behind the whole octets in `MultiBitEncode`. -/
def putLast (value nBits : Nat) : PerStream :=
  if nBits = 0 then s
  else
    { s.orOctet s.byteOffset ((value &&& (2 ^ nBits - 1)) <<< (8 - nBits)) with
      bitOffset := 8 - nBits }

/-- What `MultiBitEncode` makes of the octet that it starts in, where it fills it. -/
def putFirst (value nBits : Nat) : PerStream :=
  { s.orOctet s.byteOffset (value >>> (nBits - s.bitOffset)) with
    bitOffset := 8, byteOffset := s.byteOffset + 1 }

/-- `MultiBitEncode`, when there is room and the value is in bounds. -/
def putBits (value nBits : Nat) : PerStream :=
  if maximumStringSize < s.byteOffset then s
  else if nBits < s.bitOffset then
    { s.orOctet s.byteOffset (value <<< (s.bitOffset - nBits)) with
      bitOffset := s.bitOffset - nBits }
  else
    (putOctets value ((nBits - s.bitOffset) % 8) ((nBits - s.bitOffset) / 8)
      (s.putFirst value nBits)).putLast value ((nBits - s.bitOffset) % 8)

/-- The growth of the array in `MultiBitEncode`. -/
def makeRoom (nBits : Nat) : PerStream :=
  if s.size ≤ s.byteOffset + nBits / 8 + 1 then s.setSize (s.byteOffset + 10) else s

/-- `MultiBitEncode`. -/
def multiBitEncode (value nBits : Nat) : PerStream :=
  if nBits = 0 then s
  else
    (s.makeRoom nBits).putBits (if nBits < 32 then value &&& (2 ^ nBits - 1) else value) nBits

/-- What `BlockEncode` writes, at an octet boundary. -/
def putBlock (data : Octets) : PerStream :=
  { s with
    theArray := Lib.overwrite s.theArray s.byteOffset data
    byteOffset := s.byteOffset + data.length }

/-- `BlockEncode`. -/
def blockEncode (data : Octets) : PerStream :=
  if s.size < s.byteOffset ∨ data.length = 0 then s
  else
    let s := s.byteAlign
    if s.size ≤ s.byteOffset + data.length then
      (s.setSize (s.byteOffset + data.length + 10)).putBlock data
    else s.putBlock data

/-- `CompleteEncoding`. -/
def completeEncoding : PerStream :=
  let s := { s with
    byteOffset := if s.bitOffset = 8 then s.byteOffset else s.byteOffset + 1
    bitOffset := 8 }
  s.setSize s.byteOffset

end PerStream

end Asn

end CryptoOpal

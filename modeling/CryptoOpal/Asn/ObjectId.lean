import CryptoOpal.Lib.Base128

/-!
# Object Identifiers

An object identifier is a row of numbers. The first two go into one
subidentifier, and each subidentifier is written in groups of seven bits. The
encoder looks for the highest group that is not zero by a mask that it shifts to
the left, up to the group of which 32 bits have only a part (`encodeSubId`), and
comes down with the mask again. On the way down the part of a group has to
become a whole one.

The decoder takes a length. It counts the octets down to zero, and tests for
that only where a subidentifier ends. When the last octet of the length says
that another one follows, the count goes on below zero: it is unsigned, and the
decoder reads on until the stream ends.

## Main definitions

* `encodeSubId`, `commonEncode`: `CommonEncode`.
* `decodeSubIds`, `commonDecode`: `CommonDecode`.
* `ObjectId`: What there is an encoding of.
* `Consumes`: The decoder stays in the length that it was given.
* `EndsInside`: No octet follows the last one of the length.

## Theorems

* `encodeSubId_eq`: A subidentifier is written in base 128.
* `commonDecode_commonEncode`: Object identifiers come back.
* `consumes_iff`: When the decoder stays in its length.
-/

namespace CryptoOpal

namespace Asn

open Lib (Octets base128 base128_eq digits)

/-- The loop that looks for the highest group, with a turn for each value of `testmask`. -/
def findMask (subId : UInt32) : Nat → UInt32 → UInt32 → UInt32 → UInt32 → UInt32 × UInt32
  | 0, _, _, mask, bits => (mask, bits)
  | turns + 1, testmask, testbits, mask, bits =>
    if testmask ≠ 0 then
      if subId &&& testmask ≠ 0 then
        findMask subId turns (testmask <<< 7) (testbits + 7) testmask testbits
      else findMask subId turns (testmask <<< 7) (testbits + 7) mask bits
    else (mask, bits)

/-- The loop that writes the groups, with a turn for each of them. -/
def encodeGroups (subId : UInt32) : Nat → UInt32 → UInt32 → Octets
  | 0, _, _ => []
  | turns + 1, mask, bits =>
    if mask ≠ 0x7f then
      -- A mask that was cut off by the width of an `unsigned` becomes a whole one.
      let mask := if mask = 0x1e00000 then 0xfe00000 else mask
      (((subId &&& mask) >>> bits) ||| 0x80).toUInt8 ::
        encodeGroups subId turns (mask >>> 7) (bits - 7)
    else [(subId &&& mask).toUInt8]

/-- A subidentifier, in `CommonEncode`. -/
def encodeSubId (subId : UInt32) : Octets :=
  if subId < 128 then [subId.toUInt8]
  else
    let found := findMask subId 6 0x7f 0 0x7f 0
    encodeGroups subId 6 found.1 found.2

/-- `CommonEncode`. -/
def commonEncode : List UInt32 → Octets
  | first :: second :: others => ((first * 40 + second) :: others).flatMap encodeSubId
  | _ => []

/-- What `CommonDecode` returns, the value that it leaves, and the octets of the stream behind. -/
structure ObjectIdRead where
  decoded : Bool
  value : List UInt32
  rest : Octets
  deriving DecidableEq

/-- The loops of `CommonDecode`, from where an octet is read, with the subidentifiers that have been
read. An octet is taken with each turn of the inner one, until the stream is at its end. -/
def decodeSubIds : Octets → UInt32 → UInt32 → List UInt32 → ObjectIdRead
  | [], _, _, subIds => ⟨false, subIds, []⟩
  | byte :: rest, dataLen, subId, subIds =>
    let subId := (subId <<< 7) + (byte &&& 0x7f).toUInt32
    if byte &&& 0x80 ≠ 0 then
      decodeSubIds rest (dataLen - 1) subId subIds
    else if dataLen - 1 > 0 then
      decodeSubIds rest (dataLen - 1) 0 (subIds ++ [subId])
    else ⟨true, subIds ++ [subId], rest⟩

/-- The first two numbers, from the first subidentifier. -/
def splitFirst : List UInt32 → List UInt32
  | [] => []
  | subId :: others =>
    if subId < 40 then 0 :: subId :: others
    else if subId < 80 then 1 :: (subId - 40) :: others
    else 2 :: (subId - 80) :: others

/-- The subidentifiers are kept from the second place on, which makes the first one zero. -/
def unsplit (subIds : List UInt32) : List UInt32 := if subIds = [] then [] else 0 :: subIds

/-- `CommonDecode`, on the octets of the stream that are left. -/
def commonDecode (data : Octets) (dataLen : UInt32) : ObjectIdRead :=
  if dataLen = 0 then ⟨true, [], data⟩
  else
    let read := decodeSubIds data dataLen 0 []
    { read with value := if read.decoded then splitFirst read.value else unsplit read.value }

/-- What there is an encoding of: the first two numbers go into one, and the array has no more
octets than can be counted. -/
structure ObjectId where
  first : UInt32
  second : UInt32
  others : List UInt32
  known : first ≤ 2
  small : first < 2 → second < 40
  fits : first.toNat * 40 + second.toNat < 4294967296
  counted : (commonEncode (first :: second :: others)).length < 4294967296

namespace ObjectId

/-- The numbers. -/
def value (id : ObjectId) : List UInt32 := id.first :: id.second :: id.others

/-- What is written is read back. -/
def RoundTrips (id : ObjectId) : Prop :=
  commonDecode (commonEncode id.value) (UInt32.ofNat (commonEncode id.value).length) =
    ⟨true, id.value, []⟩

end ObjectId

/-- The decoder stays in the length that it was given. -/
def Consumes (data : Octets) (dataLen : UInt32) : Prop :=
  data.length - (commonDecode data dataLen).rest.length ≤ dataLen.toNat

instance (data : Octets) (dataLen : UInt32) : Decidable (Consumes data dataLen) :=
  inferInstanceAs (Decidable (_ ≤ _))

/-- No octet follows the last one of the length, or its top bit is not set. -/
def EndsInside (data : Octets) (dataLen : UInt32) : Prop :=
  dataLen = 0 ∨ data.length ≤ dataLen.toNat ∨ data.getD (dataLen.toNat - 1) 0 &&& 0x80 = 0

instance (data : Octets) (dataLen : UInt32) : Decidable (EndsInside data dataLen) :=
  inferInstanceAs (Decidable (_ ∨ _))

section Groups

variable (subId : UInt32)

/-- A group of the subidentifier is zero. -/
theorem and_mask_eq_zero {mask : UInt32} {w j : Nat} (hmask : mask.toNat = (2 ^ w - 1) <<< j) :
    subId &&& mask = 0 ↔ subId.toNat / 2 ^ j % 2 ^ w = 0 := by
  rw [← UInt32.toNat_inj, UInt32.toNat_and, hmask, Lib.and_group]
  show _ * 2 ^ j = 0 ↔ _
  rw [Nat.mul_eq_zero]
  exact or_iff_left (Nat.pos_iff_ne_zero.1 (Nat.two_pow_pos j))

/-- A group of the subidentifier, in an octet with a top bit. -/
theorem group_octet {mask bits : UInt32} {w j : Nat} (hmask : mask.toNat = (2 ^ w - 1) <<< j)
    (hbits : bits.toNat = j) (hj : j < 32) (hw : w ≤ 7) :
    (((subId &&& mask) >>> bits) ||| 0x80).toUInt8 =
      UInt8.ofNat (subId.toNat / 2 ^ j % 2 ^ w + 128) := by
  have hlt : subId.toNat / 2 ^ j % 2 ^ w < 2 ^ 7 :=
    Nat.lt_of_lt_of_le (Nat.mod_lt _ (Nat.two_pow_pos w)) (Nat.pow_le_pow_right (by decide) hw)
  have hor : subId.toNat / 2 ^ j % 2 ^ w ||| 128 = subId.toNat / 2 ^ j % 2 ^ w + 128 := by
    rw [Nat.or_comm, Nat.add_comm]
    exact (Nat.two_pow_add_eq_or_of_lt hlt 1).symm
  have hshift : ((subId &&& mask) >>> bits).toNat = subId.toNat / 2 ^ j % 2 ^ w := by
    rw [UInt32.toNat_shiftRight, UInt32.toNat_and, hmask, Lib.and_group, hbits,
      Nat.mod_eq_of_lt hj, Nat.shiftRight_eq_div_pow, Nat.mul_div_cancel _ (Nat.two_pow_pos j)]
  rw [← UInt8.toNat_inj, UInt32.toNat_toUInt8, UInt32.toNat_or, hshift]
  show (_ ||| 128) % 2 ^ 8 = _ % 2 ^ 8
  rw [hor]

/-- The lowest group, which ends the subidentifier. -/
theorem last_octet : (subId &&& 0x7f).toUInt8 = UInt8.ofNat (subId.toNat % 128) := by
  rw [← UInt8.toNat_inj, UInt32.toNat_toUInt8, UInt32.toNat_and]
  show (subId.toNat &&& 2 ^ 7 - 1) % 2 ^ 8 = _ % 2 ^ 8
  rw [Nat.and_two_pow_sub_one_eq_mod]

/-- A turn of the loop that writes the groups. -/
theorem encodeGroups_step (turns : Nat) {mask fixed bits : UInt32} {w j : Nat}
    (hmask : mask ≠ 0x7f) (hfix : (if mask = 0x1e00000 then 0xfe00000 else mask) = fixed)
    (hfixed : fixed.toNat = (2 ^ w - 1) <<< j) (hbits : bits.toNat = j) (hj : j < 32)
    (hw : w ≤ 7) : encodeGroups subId (turns + 1) mask bits =
      UInt8.ofNat (subId.toNat / 2 ^ j % 2 ^ w + 128) ::
        encodeGroups subId turns (fixed >>> 7) (bits - 7) := by
  rw [encodeGroups, if_pos hmask]
  simp only [hfix]
  rw [group_octet subId hfixed hbits hj hw]

theorem encodeGroups_one (turns : Nat) : encodeGroups subId (turns + 2) 0x3f80 7 =
    Lib.followed (subId.toNat / 128) 1 ++ [UInt8.ofNat (subId.toNat % 128)] := by
  rw [encodeGroups_step subId (turns + 1) (w := 7) (j := 7) (by decide) rfl (by decide) rfl
    (by decide) (Nat.le_refl 7), ← last_octet]
  rfl

theorem encodeGroups_two (turns : Nat) : encodeGroups subId (turns + 3) 0x1fc000 14 =
    Lib.followed (subId.toNat / 128) 2 ++ [UInt8.ofNat (subId.toNat % 128)] := by
  rw [encodeGroups_step subId (turns + 2) (w := 7) (j := 14) (by decide) rfl (by decide) rfl
    (by decide) (Nat.le_refl 7), Lib.followed_succ, Nat.div_div_eq_div_mul]
  exact congrArg _ (encodeGroups_one subId turns)

/-- The mask of this group may be the part that is left of it. -/
theorem encodeGroups_three (turns : Nat) {mask : UInt32}
    (h : mask = 0xfe00000 ∨ mask = 0x1e00000) : encodeGroups subId (turns + 4) mask 21 =
      Lib.followed (subId.toNat / 128) 3 ++ [UInt8.ofNat (subId.toNat % 128)] := by
  have hfix : (if mask = 0x1e00000 then 0xfe00000 else mask) = 0xfe00000 := by
    rcases h with rfl | rfl
    · rfl
    · rfl
  have hmask : mask ≠ 0x7f := by
    rcases h with rfl | rfl
    · decide
    · decide
  rw [encodeGroups_step subId (turns + 3) (w := 7) (j := 21) hmask hfix (by decide) rfl
    (by decide) (Nat.le_refl 7), Lib.followed_succ, Nat.div_div_eq_div_mul]
  exact congrArg _ (encodeGroups_two subId turns)

/-- The highest group has four bits. -/
theorem encodeGroups_four (turns : Nat) : encodeGroups subId (turns + 5) 0xf0000000 28 =
    Lib.followed (subId.toNat / 128) 4 ++ [UInt8.ofNat (subId.toNat % 128)] := by
  have hfour : subId.toNat / 2 ^ 28 % 2 ^ 4 = subId.toNat / (128 * 128 ^ 3) % 128 := by
    have hsub := subId.toNat_lt
    omega
  rw [encodeGroups_step subId (turns + 4) (w := 4) (j := 28) (by decide) rfl (by decide) rfl
    (by decide) (by decide), Lib.followed_succ, Nat.div_div_eq_div_mul, hfour]
  exact congrArg _ (encodeGroups_three subId turns (Or.inr rfl))

/-- A turn of the loop that looks for the highest group, when this is one that is not zero. -/
theorem findMask_hit {turns : Nat} {testmask testbits mask bits : UInt32}
    (h : subId &&& testmask ≠ 0) : findMask subId (turns + 1) testmask testbits mask bits =
      findMask subId turns (testmask <<< 7) (testbits + 7) testmask testbits := by
  have hmask : testmask ≠ 0 := by
    rintro rfl
    exact h (UInt32.and_zero)
  rw [findMask, if_pos hmask, if_pos h]

/-- A group that is zero is passed over. -/
theorem findMask_miss {turns : Nat} {testmask testbits mask bits : UInt32}
    (hmask : testmask ≠ 0) (h : subId &&& testmask = 0) :
    findMask subId (turns + 1) testmask testbits mask bits =
      findMask subId turns (testmask <<< 7) (testbits + 7) mask bits := by
  rw [findMask, if_pos hmask, if_neg (not_not_intro h)]

/-- What is found does not depend on the groups below it. -/
theorem findMask_pass {turns : Nat} {testmask testbits : UInt32} {found : UInt32 × UInt32}
    (h : ∀ mask bits, findMask subId turns (testmask <<< 7) (testbits + 7) mask bits = found)
    (hmask : testmask ≠ 0) (mask bits : UInt32) :
    findMask subId (turns + 1) testmask testbits mask bits = found := by
  rw [findMask, if_pos hmask]
  split
  · exact h _ _
  · exact h _ _

/-- The turns up to a group can find anything. -/
theorem findMask_from_one {found : UInt32 × UInt32}
    (h : ∀ mask bits, findMask subId 5 0x3f80 7 mask bits = found) :
    findMask subId 6 0x7f 0 0x7f 0 = found :=
  @findMask_pass subId 5 0x7f 0 found h (by decide) _ _

theorem findMask_from_two {found : UInt32 × UInt32}
    (h : ∀ mask bits, findMask subId 4 0x1fc000 14 mask bits = found) :
    findMask subId 6 0x7f 0 0x7f 0 = found :=
  findMask_from_one subId (@findMask_pass subId 4 0x3f80 7 found h (by decide))

theorem findMask_from_three {found : UInt32 × UInt32}
    (h : ∀ mask bits, findMask subId 3 0xfe00000 21 mask bits = found) :
    findMask subId 6 0x7f 0 0x7f 0 = found :=
  findMask_from_two subId (@findMask_pass subId 3 0x1fc000 14 found h (by decide))

theorem findMask_from_four {found : UInt32 × UInt32}
    (h : ∀ mask bits, findMask subId 2 0xf0000000 28 mask bits = found) :
    findMask subId 6 0x7f 0 0x7f 0 = found :=
  findMask_from_three subId (@findMask_pass subId 2 0xfe00000 21 found h (by decide))

/-- Behind the highest group nothing is found. -/
theorem findMask_above_four (mask bits : UInt32) :
    findMask subId 1 0 35 mask bits = (mask, bits) := rfl

theorem findMask_above_three (h : subId.toNat < 128 ^ 4) (mask bits : UInt32) :
    findMask subId 2 0xf0000000 28 mask bits = (mask, bits) := by
  have hzero : subId &&& 0xf0000000 = 0 :=
    (and_mask_eq_zero subId (w := 4) (j := 28) (by decide)).2 (by omega)
  rw [findMask_miss subId (by decide) hzero]
  exact findMask_above_four subId mask bits

theorem findMask_above_two (h : subId.toNat < 128 ^ 3) (mask bits : UInt32) :
    findMask subId 3 0xfe00000 21 mask bits = (mask, bits) := by
  have hzero : subId &&& 0xfe00000 = 0 :=
    (and_mask_eq_zero subId (w := 7) (j := 21) (by decide)).2 (by omega)
  rw [findMask_miss subId (by decide) hzero]
  exact findMask_above_three subId (by omega) mask bits

theorem findMask_above_one (h : subId.toNat < 128 ^ 2) (mask bits : UInt32) :
    findMask subId 4 0x1fc000 14 mask bits = (mask, bits) := by
  have hzero : subId &&& 0x1fc000 = 0 :=
    (and_mask_eq_zero subId (w := 7) (j := 14) (by decide)).2 (by omega)
  rw [findMask_miss subId (by decide) hzero]
  exact findMask_above_two subId (by omega) mask bits

/-- The highest group is found, whichever it is. -/
theorem findMask_one (hlo : 128 ≤ subId.toNat) (hhi : subId.toNat < 128 ^ 2) (mask bits : UInt32) :
    findMask subId 5 0x3f80 7 mask bits = (0x3f80, 7) := by
  have hne : subId &&& 0x3f80 ≠ 0 :=
    mt (and_mask_eq_zero subId (w := 7) (j := 7) (by decide)).1 (by omega)
  rw [findMask_hit subId hne]
  exact findMask_above_one subId hhi _ _

theorem findMask_two (hlo : 128 ^ 2 ≤ subId.toNat) (hhi : subId.toNat < 128 ^ 3)
    (mask bits : UInt32) : findMask subId 4 0x1fc000 14 mask bits = (0x1fc000, 14) := by
  have hne : subId &&& 0x1fc000 ≠ 0 :=
    mt (and_mask_eq_zero subId (w := 7) (j := 14) (by decide)).1 (by omega)
  rw [findMask_hit subId hne]
  exact findMask_above_two subId hhi _ _

theorem findMask_three (hlo : 128 ^ 3 ≤ subId.toNat) (hhi : subId.toNat < 128 ^ 4)
    (mask bits : UInt32) : findMask subId 3 0xfe00000 21 mask bits = (0xfe00000, 21) := by
  have hne : subId &&& 0xfe00000 ≠ 0 :=
    mt (and_mask_eq_zero subId (w := 7) (j := 21) (by decide)).1 (by omega)
  rw [findMask_hit subId hne]
  exact findMask_above_three subId hhi _ _

theorem findMask_four (hlo : 128 ^ 4 ≤ subId.toNat) (mask bits : UInt32) :
    findMask subId 2 0xf0000000 28 mask bits = (0xf0000000, 28) := by
  have hsub := subId.toNat_lt
  have hne : subId &&& 0xf0000000 ≠ 0 :=
    mt (and_mask_eq_zero subId (w := 4) (j := 28) (by decide)).1 (by omega)
  rw [findMask_hit subId hne]
  exact findMask_above_four subId _ _

/-- A subidentifier is written in base 128. -/
theorem encodeSubId_eq : encodeSubId subId = base128 subId.toNat := by
  have hsub := subId.toNat_lt
  unfold encodeSubId
  split
  · rename_i h
    have hn : subId.toNat < 128 := UInt32.lt_iff_toNat_lt.1 h
    rw [base128, if_pos hn]
    rfl
  · rename_i h
    have hn : 128 ≤ subId.toNat := Nat.le_of_not_lt fun hlt => h (UInt32.lt_iff_toNat_lt.2 hlt)
    -- The cases are the highest groups.
    by_cases h2 : subId.toNat < 128 ^ 2
    · rw [findMask_from_one subId (findMask_one subId hn h2), base128_eq 0 (by omega) (by omega)]
      exact encodeGroups_one subId 4
    · by_cases h3 : subId.toNat < 128 ^ 3
      · rw [findMask_from_two subId (findMask_two subId (by omega) h3),
          base128_eq 1 (by omega) (by omega)]
        exact encodeGroups_two subId 3
      · by_cases h4 : subId.toNat < 128 ^ 4
        · rw [findMask_from_three subId (findMask_three subId (by omega) h4),
            base128_eq 2 (by omega) (by omega)]
          exact encodeGroups_three subId 2 (Or.inl rfl)
        · rw [findMask_from_four subId (findMask_four subId (by omega)),
            base128_eq 3 (by omega) (by omega)]
          exact encodeGroups_four subId 1

end Groups

section Reading

variable {rest : Octets} {subIds : List UInt32}

/-- Whether another octet follows. -/
theorem follows_iff (byte : UInt8) : byte &&& 0x80 ≠ 0 ↔ 128 ≤ byte.toNat := by
  have h : ∀ byte : UInt8, byte &&& 0x80 ≠ 0 ↔ 128 ≤ byte.toNat :=
    Lib.forall_octet (by decide +kernel)
  exact h byte

/-- Seven bits more. -/
theorem accumulate (n : Nat) (byte : UInt8) :
    (UInt32.ofNat n <<< 7) + (byte &&& 0x7f).toUInt32 = UInt32.ofNat (n * 128 + byte.toNat % 128) := by
  have hlow : (byte &&& 0x7f).toNat = byte.toNat % 128 := by
    rw [UInt8.toNat_and]
    exact Nat.and_two_pow_sub_one_eq_mod byte.toNat 7
  rw [← UInt32.toNat_inj, UInt32.toNat_add, UInt32.toNat_shiftLeft, UInt8.toNat_toUInt32, hlow,
    UInt32.toNat_ofNat', UInt32.toNat_ofNat']
  show ((n % 2 ^ 32) <<< 7 % 2 ^ 32 + byte.toNat % 128) % 2 ^ 32 = _
  rw [Nat.shiftLeft_eq]
  omega

/-- A subidentifier is read up to the first octet that none follows. -/
theorem decodeSubIds_one (front : Octets) {last : UInt8} (hlast : last.toNat < 128)
    (dataLen : UInt32) (n : Nat) (hfront : ∀ octet ∈ front, 128 ≤ octet.toNat) :
    decodeSubIds (front ++ last :: rest) dataLen (UInt32.ofNat n) subIds =
      let dataLen := dataLen - UInt32.ofNat (front.length + 1)
      let subIds := subIds ++ [UInt32.ofNat (digits n (front ++ [last]))]
      if dataLen > 0 then decodeSubIds rest dataLen 0 subIds else ⟨true, subIds, rest⟩ := by
  induction front generalizing dataLen n with
  | nil =>
      rw [List.nil_append, decodeSubIds, accumulate,
        if_neg (mt (follows_iff last).1 (Nat.not_le.2 hlast))]
      rfl
  | cons octet front ih =>
      rcases List.forall_mem_cons.1 hfront with ⟨hoctet, hfront⟩
      have hlen : dataLen - 1 - UInt32.ofNat (front.length + 1) =
          dataLen - UInt32.ofNat ((octet :: front).length + 1) := by
        have hone : UInt32.ofNat ((octet :: front).length + 1) =
            UInt32.ofNat (front.length + 1) + 1 := UInt32.ofNat_add (front.length + 1) 1
        rw [hone]
        grind
      rw [List.cons_append, decodeSubIds, accumulate, if_pos ((follows_iff octet).2 hoctet),
        ih (dataLen - 1) _ hfront, hlen]
      rfl

/-- A subidentifier that was written is read. -/
theorem decodeSubIds_encodeSubId (subId dataLen : UInt32) :
    decodeSubIds (encodeSubId subId ++ rest) dataLen 0 subIds =
      let dataLen := dataLen - UInt32.ofNat (encodeSubId subId).length
      let subIds := subIds ++ [subId]
      if dataLen > 0 then decodeSubIds rest dataLen 0 subIds else ⟨true, subIds, rest⟩ := by
  rcases Lib.base128_split subId.toNat with ⟨front, last, heq, hfront, hlast, hdigits⟩
  rw [encodeSubId_eq, heq, List.append_assoc, List.singleton_append]
  have hone := @decodeSubIds_one rest subIds front _ hlast dataLen 0 hfront
  rw [hdigits, UInt32.ofNat_toNat] at hone
  rw [List.length_append]
  exact hone

/-- A subidentifier has an octet at least. -/
theorem length_encodeSubId_pos (subId : UInt32) : 0 < (encodeSubId subId).length := by
  rcases Lib.base128_split subId.toNat with ⟨front, last, heq, -, -, -⟩
  rw [encodeSubId_eq, heq, List.length_append]
  exact Nat.succ_pos _

/-- All subidentifiers are read. -/
theorem decodeSubIds_all (others : List UInt32) (subId : UInt32) (subIds : List UInt32)
    (hlen : ((subId :: others).flatMap encodeSubId).length < 4294967296) :
    decodeSubIds ((subId :: others).flatMap encodeSubId)
        (UInt32.ofNat ((subId :: others).flatMap encodeSubId).length) 0 subIds =
      ⟨true, subIds ++ subId :: others, []⟩ := by
  induction others generalizing subId subIds with
  | nil =>
      rw [List.flatMap_cons, decodeSubIds_encodeSubId, List.flatMap_nil, List.append_nil,
        UInt32.sub_self]
      rfl
  | cons next others ih =>
      rw [List.flatMap_cons, List.length_append] at hlen ⊢
      have hpos : 0 < ((next :: others).flatMap encodeSubId).length := by
        rw [List.flatMap_cons, List.length_append]
        exact Nat.add_pos_left (length_encodeSubId_pos next) _
      have hleft : UInt32.ofNat ((encodeSubId subId).length +
          ((next :: others).flatMap encodeSubId).length) -
            UInt32.ofNat (encodeSubId subId).length =
          UInt32.ofNat ((next :: others).flatMap encodeSubId).length := by
        rw [UInt32.ofNat_add]
        grind
      -- The length is not at its end yet, as long as there is another subidentifier.
      have hmore : UInt32.ofNat ((next :: others).flatMap encodeSubId).length > 0 := by
        refine UInt32.lt_iff_toNat_lt.2 ?_
        rw [UInt32.toNat_ofNat_of_lt' (Nat.lt_of_le_of_lt (Nat.le_add_left _ _) hlen)]
        exact hpos
      rw [decodeSubIds_encodeSubId]
      simp only [hleft]
      rw [if_pos hmore, ih next _ (Nat.lt_of_le_of_lt (Nat.le_add_left _ _) hlen),
        List.append_assoc]
      rfl

/-- The decoder takes an octet at least, if there is one. -/
theorem decodeSubIds_shortens (data : Octets) (dataLen subId : UInt32) (subIds : List UInt32)
    (h : data ≠ []) : (decodeSubIds data dataLen subId subIds).rest.length < data.length := by
  induction data generalizing dataLen subId subIds with
  | nil => exact absurd rfl h
  | cons byte rest ih =>
      have hrest (d i : UInt32) (l : List UInt32) :
          (decodeSubIds rest d i l).rest.length < rest.length + 1 := by
        cases rest with
        | nil => exact Nat.zero_lt_one
        | cons next rest => exact Nat.lt_succ_of_lt (ih d i l (List.cons_ne_nil _ _))
      rw [decodeSubIds, List.length_cons]
      split
      · exact hrest _ _ _
      · split
        · exact hrest _ _ _
        · exact Nat.lt_succ_self _

/-- The decoder stays in a length that the stream goes beyond exactly when no octet follows the last
one of it. -/
theorem decodeSubIds_inside (data : Octets) (dataLen subId : UInt32) (subIds : List UInt32)
    (hpos : 0 < dataLen.toNat) (hlen : dataLen.toNat < data.length) :
    data.length ≤ dataLen.toNat + (decodeSubIds data dataLen subId subIds).rest.length ↔
      data.getD (dataLen.toNat - 1) 0 &&& 0x80 = 0 := by
  induction data generalizing dataLen subId subIds with
  | nil => exact absurd hlen (Nat.not_lt_zero _)
  | cons byte rest ih =>
      have hone : (dataLen - 1).toNat = dataLen.toNat - 1 :=
        UInt32.toNat_sub_of_le _ _ (UInt32.le_iff_toNat_le.2 hpos)
      rw [List.length_cons] at hlen ⊢
      by_cases hlast : dataLen.toNat = 1
      · -- The last octet of the length: the decoder stops behind it, or takes another one.
        have hmore : ¬dataLen - 1 > 0 := by
          intro h
          have h0 : 0 < (dataLen - 1).toNat := UInt32.lt_iff_toNat_lt.1 h
          omega
        have hrest : rest ≠ [] := by
          rintro rfl
          rw [List.length_nil] at hlen
          omega
        rw [hlast, decodeSubIds]
        by_cases hfollows : byte &&& 0x80 = 0
        · rw [if_neg (not_not_intro hfollows), if_neg hmore]
          exact iff_of_true (Nat.le_of_eq (Nat.add_comm _ _)) hfollows
        · rw [if_pos hfollows]
          have hshort := decodeSubIds_shortens rest (dataLen - 1)
            ((subId <<< 7) + (byte &&& 0x7f).toUInt32) subIds hrest
          exact iff_of_false (by omega) hfollows
      · have hmore : dataLen - 1 > 0 := UInt32.lt_iff_toNat_lt.2 (by rw [hone]; show 0 < _; omega)
        have hget : (byte :: rest).getD (dataLen.toNat - 1) 0 =
            rest.getD ((dataLen - 1).toNat - 1) 0 := by
          rw [hone]
          obtain ⟨k, hk⟩ : ∃ k, dataLen.toNat = k + 2 := ⟨dataLen.toNat - 2, by omega⟩
          rw [hk]
          rfl
        have hnext (i : UInt32) (l : List UInt32) :
            rest.length + 1 ≤ dataLen.toNat + (decodeSubIds rest (dataLen - 1) i l).rest.length ↔
              (byte :: rest).getD (dataLen.toNat - 1) 0 &&& 0x80 = 0 := by
          rw [hget, ← ih (dataLen - 1) i l (by omega) (by omega), hone]
          omega
        rw [decodeSubIds]
        split
        · exact hnext _ _
        · exact hnext _ _

/-- When the decoder stays in its length. -/
theorem consumes_iff (data : Octets) (dataLen : UInt32) :
    Consumes data dataLen ↔ EndsInside data dataLen := by
  unfold Consumes EndsInside commonDecode
  by_cases hzero : dataLen = 0
  · rw [if_pos hzero]
    exact iff_of_true (by simp) (Or.inl hzero)
  · have hpos : 0 < dataLen.toNat := by
      refine Nat.pos_of_ne_zero fun h => hzero ?_
      rwa [← UInt32.toNat_inj]
    rw [if_neg hzero, or_iff_right hzero]
    by_cases hlen : data.length ≤ dataLen.toNat
    · exact iff_of_true (Nat.le_trans (Nat.sub_le _ _) hlen) (Or.inl hlen)
    · have hinside := decodeSubIds_inside data dataLen 0 [] hpos (Nat.lt_of_not_le hlen)
      rw [or_iff_right hlen, ← hinside]
      exact Nat.sub_le_iff_le_add

end Reading

namespace ObjectId

/-- The number that the first two go into. -/
theorem toNat_joined (id : ObjectId) :
    (id.first * 40 + id.second).toNat = id.first.toNat * 40 + id.second.toNat := by
  rw [UInt32.toNat_add, UInt32.toNat_mul]
  show (id.first.toNat * 40 % 2 ^ 32 + id.second.toNat) % 2 ^ 32 = _
  have hfits := id.fits
  omega

/-- The first two numbers come out of the one that they went into. -/
theorem splitFirst_value (id : ObjectId) :
    splitFirst ((id.first * 40 + id.second) :: id.others) = id.value := by
  have hjoined := toNat_joined id
  have hknown : id.first.toNat ≤ 2 := UInt32.le_iff_toNat_le.1 id.known
  have hsmall : id.first.toNat < 2 → id.second.toNat < 40 := fun h =>
    UInt32.lt_iff_toNat_lt.1 (id.small (UInt32.lt_iff_toNat_lt.2 h))
  have hlt (bound : UInt32) : id.first * 40 + id.second < bound ↔
      id.first.toNat * 40 + id.second.toNat < bound.toNat := by
    rw [UInt32.lt_iff_toNat_lt, hjoined]
  have h40 : (40 : UInt32).toNat = 40 := rfl
  have h80 : (80 : UInt32).toNat = 80 := rfl
  unfold splitFirst value
  simp only [hlt, h40, h80]
  have hcases : id.first = 0 ∨ id.first = 1 ∨ id.first = 2 := by
    rcases Nat.lt_or_ge id.first.toNat 1 with h | h
    · exact Or.inl (UInt32.toNat_inj.1 (Nat.lt_one_iff.1 h))
    · rcases Nat.eq_or_lt_of_le h with h | h
      · exact Or.inr (Or.inl (UInt32.toNat_inj.1 h.symm))
      · exact Or.inr (Or.inr (UInt32.toNat_inj.1 (Nat.le_antisymm hknown h)))
  rcases hcases with h | h | h
  · rw [h] at hsmall ⊢
    have h0 : (0 : UInt32).toNat = 0 := rfl
    have hsecond := hsmall (by decide)
    rw [if_pos (by omega)]
    congr 2
    grind
  · rw [h] at hsmall ⊢
    have h1 : (1 : UInt32).toNat = 1 := rfl
    have hsecond := hsmall (by decide)
    rw [if_neg (by omega), if_pos (by omega)]
    congr 2
    grind
  · rw [h]
    have h2 : (2 : UInt32).toNat = 2 := rfl
    rw [if_neg (by omega), if_neg (by omega)]
    congr 2
    grind

/-- Object identifiers come back. -/
theorem roundTrips (id : ObjectId) : id.RoundTrips := by
  have hlen : (commonEncode id.value).length < 4294967296 := id.counted
  have hpos : UInt32.ofNat (commonEncode id.value).length ≠ 0 := by
    have hlt : 0 < (commonEncode id.value).length := by
      show 0 < (List.flatMap encodeSubId _).length
      rw [List.flatMap_cons, List.length_append]
      exact Nat.add_pos_left (length_encodeSubId_pos _) _
    intro h
    have h0 := congrArg UInt32.toNat h
    rw [UInt32.toNat_ofNat_of_lt' hlen] at h0
    exact absurd h0 (Nat.pos_iff_ne_zero.1 hlt)
  have hall := decodeSubIds_all id.others (id.first * 40 + id.second) [] hlen
  have hread : decodeSubIds (commonEncode id.value) (UInt32.ofNat (commonEncode id.value).length)
      0 [] = ⟨true, (id.first * 40 + id.second) :: id.others, []⟩ := hall
  unfold RoundTrips commonDecode
  rw [if_neg hpos, hread]
  simp only [if_true, splitFirst_value]

end ObjectId

/-- Object identifiers come back, and this is when the decoder stays in its length. -/
theorem objectId_iff (id : ObjectId) (data : Octets) (dataLen : UInt32) :
    id.RoundTrips ∧ (Consumes data dataLen ↔ EndsInside data dataLen) :=
  ⟨id.roundTrips, consumes_iff data dataLen⟩

/-- One octet is declared, and it says that another one follows. -/
theorem consumes_two : ¬Consumes [0x80, 0x00] 1 := by
  decide

end Asn

end CryptoOpal

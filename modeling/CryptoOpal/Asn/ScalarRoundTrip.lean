import CryptoOpal.Asn.ScalarCodec

/-!
# Round Trips of Scalars

Every scalar is coded by a choice between forms, and encoder and decoder have to choose
the same one and read the value in it the same way. A value without bounds is written
with its sign in as few octets as hold it; the decoder repeats the sign. A value less its
lower bound is written without a sign, and the decoder adds the bound.

What does not come back is left out of `Supported`. A length of 16384 or more has no
encoding, nor has a range of more than 65536 lengths in an unaligned stream. A lower
bound below zero is lost in the forms that add it, unless the whole range is below zero.

## Main definitions

* `Scalar`: A scalar of some type, with its codec.
* `Scalar.Supported`: The scalars whose encoding is decoded to them.

## Theorems

* `roundTrips_integer`, `roundTrips_enumeration`, `roundTrips_count`.
* `Scalar.decode_encodes`: All of them.
-/

namespace CryptoOpal

namespace Asn

open PerStream

section Signs

theorem bmod_word_small {x : Int} (hlo : 0 ≤ x) (hhi : x < 2 ^ 31) : x.bmod (2 ^ 32) = x := by
  rw [Int.bmod_def]
  split <;> omega

theorem bmod_word_large {x : Int} (hlo : 2 ^ 31 ≤ x) (hhi : x < 2 ^ 32) :
    x.bmod (2 ^ 32) = x - 2 ^ 32 := by
  rw [Int.bmod_def]
  split <;> omega

theorem signedOf_eq {n : Nat} (h : n < 2 ^ 32) :
    signedOf n = if n < 2 ^ 31 then (n : Int) else (n : Int) - 2 ^ 32 := by
  by_cases hsmall : n < 2 ^ 31
  · rw [if_pos hsmall]
    exact bmod_word_small (by omega) (by omega)
  · rw [if_neg hsmall]
    exact bmod_word_large (by omega) (by omega)

theorem unsignedOf_nat {n : Nat} (h : n < 2 ^ 32) : unsignedOf (n : Int) = n := by
  simp only [unsignedOf]
  omega

/-- Repeating the sign of a value below zero gives it back. -/
theorem signExtend_negative (u : Unspecified) {k x : Nat} (hk : 1 ≤ k) (hfour : k ≤ 4)
    (hx : 1 ≤ x) (hfits : x + 1 ≤ 2 ^ (8 * k - 1)) (hout : k = 4 → u.shiftedOut = 0) :
    signExtend u ((2 ^ 32 - x) % 2 ^ (8 * k)) (8 * k) = 2 ^ 32 - x := by
  have hlt : (2 ^ 32 - x) % 2 ^ (8 * k) < 2 ^ (8 * k) := Nat.mod_lt _ (Nat.two_pow_pos _)
  have hsign : ((2 ^ 32 - x) % 2 ^ (8 * k)).testBit (8 * k - 1) = true := by
    rw [Nat.testBit_eq_decide_div_mod_eq, decide_eq_true_eq]
    obtain rfl | rfl | rfl | rfl : k = 1 ∨ k = 2 ∨ k = 3 ∨ k = 4 := by omega
    all_goals norm_num at hfits ⊢; omega
  rw [signExtend, if_pos hsign]
  by_cases hwide : k = 4
  · rw [if_neg (by omega), hout hwide, Nat.or_zero, hwide]
    omega
  · -- The octets above are all ones.
    have hones : unsignedOf ((uintMax : Int) * 2 ^ (8 * k)) = (2 ^ (32 - 8 * k) - 1) <<< (8 * k) := by
      rw [unsignedOf, Nat.shiftLeft_eq]
      obtain rfl | rfl | rfl : k = 1 ∨ k = 2 ∨ k = 3 := by omega
      all_goals rfl
    rw [if_pos (by omega), hones, Nat.or_comm, ← Nat.shiftLeft_add_eq_or_of_lt hlt,
      Nat.shiftLeft_eq]
    obtain rfl | rfl | rfl : k = 1 ∨ k = 2 ∨ k = 3 := by omega
    all_goals norm_num at hfits ⊢; omega

/-- A value that is not below zero has no sign to repeat. -/
theorem signExtend_nonneg (u : Unspecified) {value k : Nat} (h : value < 2 ^ (8 * k - 1)) :
    signExtend u (value % 2 ^ (8 * k)) (8 * k) = value := by
  have hlt : value < 2 ^ (8 * k) :=
    Nat.lt_of_lt_of_le h (Nat.pow_le_pow_right (by decide) (by omega))
  rw [Nat.mod_eq_of_lt hlt, signExtend,
    if_neg (by rw [Nat.testBit_lt_two_pow h]; exact Bool.false_ne_true)]

end Signs

section Integers

variable {al : Bool} {u : Unspecified} {c : ConstrainedObject} {value : Nat}

/-- The values of an integer type that are decoded to themselves. -/
def IntegerFits (u : Unspecified) (c : ConstrainedObject) (value : Nat) : Prop :=
  value < 2 ^ 32 ∧
    if c.isGeneral value then
      c.isUnsigned = true ∨
        c.constraint = .unconstrained ∧ -2 ^ 31 < signedOf value ∧
          (-2 ^ 23 < signedOf value ∨ u.shiftedOut = 0)
    else c.lowerUnsigned ≤ value ∧ value ≤ c.upperLimit

instance : Decidable (IntegerFits u c value) := by
  unfold IntegerFits
  infer_instance

/-- More bits than are wanted are cut off. -/
theorem multiBitEncode_mod (s : PerStream) {n : Nat} (hv : value < 2 ^ 32) (hn : n ≤ 32) :
    s.multiBitEncode value n = s.multiBitEncode (value % 2 ^ n) n := by
  rw [multiBitEncode, multiBitEncode]
  rcases Nat.lt_or_eq_of_le hn with hlt | rfl
  · rw [if_pos hlt, if_pos hlt, Nat.and_two_pow_sub_one_eq_mod, Nat.and_two_pow_sub_one_eq_mod,
      Nat.mod_mod]
  · rw [Nat.mod_eq_of_lt hv]

/-- The octets of a value less its lower bound hold it. -/
theorem generalBits_unsigned (hc : c.isUnsigned = true) (hv : value < 2 ^ 32) :
    value < 2 ^ ((generalBits c value + 7) / 8 * 8) ∧ 1 ≤ (generalBits c value + 7) / 8 ∧
      (generalBits c value + 7) / 8 ≤ 4 := by
  obtain ⟨hfits, hle, hpos⟩ := lt_two_pow_countBits (Nat.lt_succ_self value) (by omega)
  have hunsigned : unsignedOf ((value : Int) + 1) = value.succ % 2 ^ 32 := by
    rw [unsignedOf]
    omega
  rw [generalBits, if_pos hc, hunsigned]
  refine ⟨Nat.lt_of_lt_of_le hfits (Nat.pow_le_pow_right (by decide) ?_), ?_, ?_⟩ <;> omega

/-- The octets of a value with a sign hold it with its sign. -/
theorem signExtend_generalBits (hc : c.isUnsigned = false) (hv : value < 2 ^ 32)
    (hmin : -2 ^ 31 < signedOf value) (hout : -2 ^ 23 < signedOf value ∨ u.shiftedOut = 0) :
    1 ≤ (generalBits c value + 7) / 8 ∧ (generalBits c value + 7) / 8 ≤ 4 ∧
      signExtend u (value % 2 ^ (8 * ((generalBits c value + 7) / 8)))
        (8 * ((generalBits c value + 7) / 8)) = value := by
  have hsigned := signedOf_eq hv
  -- One more than the magnitude is what the bits are counted for.
  obtain ⟨m, hm, hbits, hmhi⟩ : ∃ m : Nat,
      (m : Int) = (if 0 < signedOf value then (value : Int) + 1 else -signedOf value + 1) ∧
        generalBits c value = 1 + countBits m ∧ m ≤ 2 ^ 31 := by
    have hgeneral : generalBits c value = if 0 < signedOf value
        then 1 + countBits (unsignedOf (value + 1))
        else 1 + countBits (unsignedOf (-signedOf value + 1)) := by
      rw [generalBits, if_neg (by rw [hc]; exact Bool.false_ne_true)]
    by_cases hpos : 0 < signedOf value
    · have hsmall : value < 2 ^ 31 := by
        by_contra hlarge
        rw [if_neg hlarge] at hsigned
        omega
      rw [if_pos hpos] at hgeneral
      refine ⟨value + 1, ?_, ?_, by omega⟩
      · rw [if_pos hpos]
        rfl
      · rw [hgeneral, show (value : Int) + 1 = (value + 1 : Nat) from rfl,
          unsignedOf_nat (by omega)]
    · rw [if_neg hpos] at hgeneral
      obtain ⟨m, hm⟩ : ∃ m : Nat, (m : Int) = -signedOf value + 1 :=
        ⟨(-signedOf value + 1).toNat, by omega⟩
      refine ⟨m, ?_, ?_, by omega⟩
      · rw [if_neg hpos]
        exact hm
      · rw [hgeneral, ← hm, unsignedOf_nat (by omega)]
  obtain ⟨k, hk⟩ : ∃ k, k = (generalBits c value + 7) / 8 := ⟨_, rfl⟩
  rw [← hk]
  have hcount : countBits m ≤ 31 ∧ m ≤ 2 ^ (8 * k - 1) ∧ (m ≤ 2 ^ 23 → countBits m ≤ 23) := by
    rcases Nat.lt_or_ge m 2 with hone | htwo
    · have hm1 : m = 1 := by
        by_cases hpos : 0 < signedOf value
        · rw [if_pos hpos] at hm; omega
        · rw [if_neg hpos] at hm; omega
      rw [hm1, countBits_one]
      exact ⟨by decide, Nat.one_le_two_pow, fun _ => by decide⟩
    · have hle := (countBits_le_iff (j := 31) htwo (by omega)).mpr hmhi
      refine ⟨hle, ?_, fun h => (countBits_le_iff htwo (by omega)).mpr h⟩
      exact (countBits_le_iff htwo (by omega)).mp (by omega)
  refine ⟨by omega, by omega, ?_⟩
  by_cases hneg : signedOf value < 0
  · -- Below zero.
    rw [if_neg (by omega)] at hm
    by_cases hsmall : value < 2 ^ 31
    · rw [if_pos hsmall] at hsigned
      omega
    rw [if_neg hsmall] at hsigned
    obtain ⟨x, hx⟩ : ∃ x, value = 2 ^ 32 - x ∧ x + 1 = m ∧ 1 ≤ x :=
      ⟨2 ^ 32 - value, by omega, by omega, by omega⟩
    rw [hx.1]
    apply signExtend_negative u (by omega) (by omega) hx.2.2 (by rw [hx.2.1]; exact hcount.2.1)
    intro hfour
    rcases hout with hnear | hzero
    · have hfew := hcount.2.2 (by omega)
      omega
    · exact hzero
  · apply signExtend_nonneg
    have hpow : 0 < 2 ^ (8 * k - 1) := Nat.two_pow_pos _
    by_cases hpos : 0 < signedOf value
    · rw [if_pos hpos] at hm
      omega
    · by_cases hsmall : value < 2 ^ 31
      · rw [if_pos hsmall] at hsigned
        omega
      · rw [if_neg hsmall] at hsigned
        omega

theorem roundTrips_generalBit (c : ConstrainedObject) (value : Nat) :
    RoundTrips al (c.constraintEncode value) (generalBit c.constraint) (c.isGeneral value) := by
  rcases hc : c.constraint with _ | _ | _ | _
  case extendableConstraint =>
    have hext : c.extendable = true := decide_eq_true hc
    refine (roundTrips_singleBit al (c.isGeneral value)).congr (fun s _ => ?_) (fun d _ => rfl)
    rw [ConstrainedObject.constraintEncode, ConstrainedObject.isGeneral, if_pos hext, if_pos hext]
  all_goals
    have hext : ¬ c.extendable = true := by
      rw [ConstrainedObject.extendable, hc]
      decide
    refine (RoundTrips.pure al (c.isGeneral value)).congr (fun s _ => ?_) (fun d _ => ?_)
    · rw [ConstrainedObject.constraintEncode, if_neg hext]
    · rw [ConstrainedObject.isGeneral, if_neg hext, hc]
      rfl

/-- A value in as few octets as hold it. -/
theorem roundTrips_generalValue {a : Nat} {nBytes : Nat} (g : Nat → Nat → Nat) (hv : value < 2 ^ 32)
    (hone : 1 ≤ nBytes) (hfour : nBytes ≤ 4)
    (hg : g (value % 2 ^ (nBytes * 8)) (nBytes * 8) = a) (x : Nat) :
    RoundTrips al (fun s => (lengthEncode nBytes 0 intMax s).multiBitEncode value (nBytes * 8))
      (lengthDecode 0 intMax x >>= fun len => multiBitDecode (unsignedOf (len * 8)) >>=
        fun value => pure (g value (unsignedOf (len * 8)))) a := by
  have hbits : unsignedOf ((nBytes : Int) * 8) = nBytes * 8 := by rw [unsignedOf]; omega
  have hlength := @roundTrips_length al _ _ _ (lengthFits_general (by omega : nBytes < 0x4000))
    (by decide) x
  have hvalue := (roundTrips_multiBit al (by omega : nBytes * 8 ≤ 32)
    (Nat.mod_lt value (Nat.two_pow_pos (nBytes * 8)))).map (fun v => g v (nBytes * 8)) hg
  rw [← hbits] at hvalue
  refine (hlength.bind hvalue).congr (fun s _ => ?_) (fun d _ => rfl)
  rw [hbits]
  exact multiBitEncode_mod _ hv (by omega)

/-- A value of an integer type. -/
theorem roundTrips_integer (h : IntegerFits u c value) :
    RoundTrips al (integerEncode c value) (integerDecode u c) value := by
  obtain ⟨hv, hform⟩ := h
  have hlower := c.lower_int
  have hlowerUnsigned : c.lowerUnsigned < 2 ^ 32 := by
    rw [ConstrainedObject.lowerUnsigned, unsignedOf]
    omega
  by_cases hgen : c.isGeneral value = true
  · -- In as few octets as hold it, less the lower bound.
    rw [if_pos hgen] at hform
    have hadjusted : unsignedOf ((value : Int) - c.lowerLimit) < 2 ^ 32 := by
      rw [unsignedOf]
      omega
    have hback : unsignedOf ((unsignedOf ((value : Int) - c.lowerLimit) : Int) + c.lowerLimit) =
        value := by
      simp only [unsignedOf]
      omega
    obtain ⟨hone, hfour, hvalue⟩ : 1 ≤ (generalBits c (unsignedOf (value - c.lowerLimit)) + 7) / 8 ∧
        (generalBits c (unsignedOf (value - c.lowerLimit)) + 7) / 8 ≤ 4 ∧
        (fun v n => if c.isUnsigned then unsignedOf ((v : Nat) + c.lowerLimit)
            else signExtend u v n)
          (unsignedOf (value - c.lowerLimit) %
            2 ^ ((generalBits c (unsignedOf (value - c.lowerLimit)) + 7) / 8 * 8))
          ((generalBits c (unsignedOf (value - c.lowerLimit)) + 7) / 8 * 8) = value := by
      by_cases hunsigned : c.isUnsigned = true
      · obtain ⟨hfits, hone, hfour⟩ := generalBits_unsigned hunsigned hadjusted
        refine ⟨hone, hfour, ?_⟩
        show (if c.isUnsigned = true then _ else _) = _
        rw [if_pos hunsigned, Nat.mod_eq_of_lt hfits, hback]
      · have hsigned : c.isUnsigned = false := Bool.eq_false_iff.mpr hunsigned
        obtain ⟨hun, hmin, hout⟩ := hform.resolve_left hunsigned
        have hself : unsignedOf ((value : Int) - c.lowerLimit) = value := by
          rw [(c.bounds hun).1, unsignedOf]
          omega
        rw [hself]
        obtain ⟨hone, hfour, hextend⟩ := signExtend_generalBits hsigned hv hmin hout
        refine ⟨hone, hfour, ?_⟩
        show (if c.isUnsigned = true then _ else _) = _
        rw [if_neg hunsigned, Nat.mul_comm _ 8, hextend]
    have hgeneral := @roundTrips_generalValue al _ _ _
      (fun v n => if c.isUnsigned then unsignedOf ((v : Nat) + c.lowerLimit)
        else signExtend u v n) hadjusted hone hfour hvalue u.unset
    refine ((roundTrips_generalBit c value).bind (f := fun general => if general then do
        let len ← lengthDecode 0 intMax u.unset
        let value ← multiBitDecode (unsignedOf ((len : Nat) * 8))
        pure (if c.isUnsigned then unsignedOf ((value : Nat) + c.lowerLimit)
          else signExtend u value (unsignedOf ((len : Nat) * 8)))
      else if c.lowerUnsigned ≠ c.upperLimit then unsignedDecode c.lowerUnsigned c.upperLimit
      else pure c.lowerUnsigned) (by rw [if_pos hgen]; exact hgeneral)).congr (fun s _ => ?_)
        (fun d _ => rfl)
    rw [integerEncode, if_pos hgen]
  · -- Between the bounds.
    rw [if_neg hgen] at hform
    have hbounded : RoundTrips al
        (fun s => if c.lowerUnsigned = c.upperLimit then s
          else unsignedEncode value c.lowerUnsigned c.upperLimit s)
        (if c.lowerUnsigned ≠ c.upperLimit then unsignedDecode c.lowerUnsigned c.upperLimit
          else pure c.lowerUnsigned) value := by
      by_cases heq : c.lowerUnsigned = c.upperLimit
      · obtain rfl : value = c.lowerUnsigned := by omega
        rw [if_neg (not_not.mpr heq)]
        refine (RoundTrips.pure al c.lowerUnsigned).congr (fun s _ => ?_) (fun d _ => rfl)
        rw [if_pos heq]
      · rw [if_pos heq]
        refine (roundTrips_unsigned hform.1 hform.2 c.upper_unsigned).congr (fun s _ => ?_)
          (fun d _ => rfl)
        rw [if_neg heq]
    refine ((roundTrips_generalBit c value).bind (f := fun general => if general then do
        let len ← lengthDecode 0 intMax u.unset
        let value ← multiBitDecode (unsignedOf ((len : Nat) * 8))
        pure (if c.isUnsigned then unsignedOf ((value : Nat) + c.lowerLimit)
          else signExtend u value (unsignedOf ((len : Nat) * 8)))
      else if c.lowerUnsigned ≠ c.upperLimit then unsignedDecode c.lowerUnsigned c.upperLimit
      else pure c.lowerUnsigned) (by rw [if_neg hgen]; exact hbounded)).congr (fun s _ => ?_)
        (fun d _ => rfl)
    rw [integerEncode, if_neg hgen]

end Integers

section Enumerations

variable {al : Bool}

theorem roundTrips_extensionBit (ext b : Bool) :
    RoundTrips al (fun s => if ext then s.singleBitEncode b else s) (extensionBit ext)
      (ext && b) := by
  cases ext with
  | false => exact RoundTrips.pure al false
  | true => exact roundTrips_singleBit al b

/-- The values of an enumeration that are decoded to themselves. One more than an added
value is written before it, and that has to be an `unsigned`. -/
def EnumerationFits (e : Enumeration) (value : Nat) : Prop :=
  e.maxEnumValue < 2 ^ 32 ∧
    (value ≤ e.maxEnumValue ∨ e.extendable = true ∧ value < uintMax)

instance (e : Enumeration) (value : Nat) : Decidable (EnumerationFits e value) := by
  unfold EnumerationFits
  infer_instance

/-- A value of an enumeration. -/
theorem roundTrips_enumeration {e : Enumeration} {value : Nat} (h : EnumerationFits e value) :
    RoundTrips al (enumerationEncode e value) (enumerationDecode e) value := by
  obtain ⟨hmax, hvalue⟩ := h
  have hbit := @roundTrips_extensionBit al e.extendable (decide (e.maxEnumValue < value))
  by_cases hext : e.extendable = true ∧ e.maxEnumValue < value
  · -- The number of values that there are now, and then the value among them.
    have hlt : value < uintMax := (hvalue.resolve_left (by omega)).2
    have huint : uintMax = 2 ^ 32 - 1 := rfl
    have hone : unsignedOf (1 + (value : Int)) = value + 1 := by
      simp only [unsignedOf]
      omega
    have hsmall := @roundTrips_smallUnsigned al _ (by omega : value + 1 < 2 ^ 32)
    have hbounded : RoundTrips al (unsignedEncode value 0 value)
        (if 0 < value + 1 then unsignedDecode 0 (value + 1 - 1) else refuse) value := by
      rw [if_pos (Nat.succ_pos value), Nat.add_sub_cancel]
      exact roundTrips_unsigned (Nat.zero_le value) (Nat.le_refl value) (by omega)
    have hadded := hsmall.bind (f := fun len => if 0 < len then unsignedDecode 0 (len - 1)
      else refuse) hbounded
    refine (hbit.bind (f := fun extended => if extended then do
        let len ← smallUnsignedDecode
        if 0 < len then unsignedDecode 0 (len - 1) else refuse
      else unsignedDecode 0 e.maxEnumValue) (by
        rw [hext.1, decide_eq_true hext.2, Bool.and_self, if_pos rfl]
        exact hadded)).congr (fun s _ => ?_) (fun d _ => rfl)
    rw [enumerationEncode, if_pos hext.1, decide_eq_true hext.2, if_pos rfl, if_pos hext.1, hone]
  · have hle : value ≤ e.maxEnumValue := by
      rcases hvalue with hle | hadded
      · exact hle
      · by_contra hgt
        exact hext ⟨hadded.1, by omega⟩
    have hbounded := @roundTrips_unsigned al _ _ _ (Nat.zero_le value) hle hmax
    have hclear : decide (e.maxEnumValue < value) = false := decide_eq_false (by omega)
    refine (hbit.bind (f := fun extended => if extended then do
        let len ← smallUnsignedDecode
        if 0 < len then unsignedDecode 0 (len - 1) else refuse
      else unsignedDecode 0 e.maxEnumValue) (by
        rw [hclear, Bool.and_false, if_neg Bool.false_ne_true]
        exact hbounded)).congr (fun s _ => ?_) (fun d _ => rfl)
    rw [enumerationEncode, hclear]
    by_cases hextendable : e.extendable = true
    · rw [if_pos hextendable, if_pos hextendable, if_neg Bool.false_ne_true]
    · rw [if_neg hextendable, if_neg hextendable]

end Enumerations

section Counts

variable {al : Bool} {c : ConstrainedObject} {length : Nat}

/-- The counts that are decoded to themselves. A partially constrained count is written
without its bounds, but read with them. -/
def CountFits (al : Bool) (c : ConstrainedObject) (length : Nat) : Prop :=
  if c.isGeneral length then
    length < 0x4000 ∧ (c.constraint = .partiallyConstrained → length ≤ c.upperLimit ∧
      (c.upperLimit = intMax ∨ al = true ∧ 65536 ≤ c.upperLimit))
  else LengthFits al c.lowerUnsigned c.upperLimit length

instance : Decidable (CountFits al c length) := by
  unfold CountFits
  infer_instance

theorem extensionBit_isGeneral (c : ConstrainedObject) (length : Nat) :
    RoundTrips al (c.constraintEncode length) (extensionBit c.extendable)
      (c.extendable && c.isGeneral length) := by
  refine (roundTrips_extensionBit c.extendable (c.isGeneral length)).congr (fun s _ => ?_)
    (fun d _ => rfl)
  rw [ConstrainedObject.constraintEncode, ConstrainedObject.isGeneral]
  by_cases hext : c.extendable = true
  · rw [if_pos hext, if_pos hext, if_pos hext]
  · rw [if_neg hext, if_neg hext]

/-- A constrained count. -/
theorem roundTrips_count (h : CountFits al c length) (x : Nat) :
    RoundTrips al (c.constrainedLengthEncode length) (c.constrainedLengthDecode x) length := by
  have hbit := @extensionBit_isGeneral al c length
  have hmax : intMax = 2147483647 := rfl
  rw [CountFits] at h
  by_cases hgen : c.isGeneral length = true
  · rw [if_pos hgen] at h
    obtain ⟨hlen, hpartial⟩ := h
    have hgeneral := @roundTrips_length al _ _ _ (lengthFits_general hlen) (by decide) x
    have hread : RoundTrips al (lengthEncode length 0 intMax)
        (if (c.extendable && c.isGeneral length) = true ∨ c.constraint = .unconstrained then
          lengthDecode 0 intMax x
        else lengthDecode c.lowerUnsigned c.upperLimit x) length := by
      by_cases hsame : (c.extendable && c.isGeneral length) = true ∨ c.constraint = .unconstrained
      · rw [if_pos hsame]
        exact hgeneral
      -- What is written without bounds is read with them, in the same form.
      have hext : ¬ c.extendable = true := fun hext => hsame (.inl (by rw [hext, hgen]; rfl))
      have hnotFixed : ¬ c.constraint = .fixedConstraint := by
        rw [ConstrainedObject.isGeneral, if_neg hext, decide_eq_true_eq] at hgen
        exact hgen
      have hpart : c.constraint = .partiallyConstrained := by
        rcases hc : c.constraint with _ | _ | _ | _
        · exact absurd (.inr hc) hsame
        · rfl
        · exact absurd hc hnotFixed
        · exact absurd (decide_eq_true hc) hext
      obtain ⟨hupper, hform⟩ := hpartial hpart
      have hbounded : RoundTrips al (generalLengthEncode length)
          (generalLengthDecode c.upperLimit x) length := roundTrips_generalLength hlen hupper x
      rw [if_neg hsame]
      refine hbounded.congr (fun s _ => ?_) (fun d hd => ?_)
      · rw [lengthEncode, lengthEncodeFrom, if_neg (fun h => h.1 rfl), if_neg (by omega)]
      · have hlast : ¬ (c.upperLimit ≠ intMax ∧ d.aligned = false) := by
          rw [hd]
          rintro ⟨hne, hal⟩
          rcases hform with heq | ⟨haligned, -⟩
          · exact hne heq
          · rw [haligned] at hal
            exact Bool.noConfusion hal
        show (if c.upperLimit ≠ intMax ∧ d.aligned = false then _ else _ : Decoder Nat) d = _
        rw [if_neg hlast, if_neg (by omega)]
    refine (hbit.bind (f := fun extended => if extended = true ∨ c.constraint = .unconstrained then
        lengthDecode 0 intMax x
      else lengthDecode c.lowerUnsigned c.upperLimit x) hread).congr (fun s _ => ?_)
        (fun d _ => rfl)
    rw [ConstrainedObject.constrainedLengthEncode, if_pos hgen]
  · rw [if_neg hgen] at h
    have hfalse : c.isGeneral length = false := Bool.eq_false_iff.mpr hgen
    have hbounds : ¬ c.constraint = .unconstrained := by
      intro hc
      rw [ConstrainedObject.isGeneral, ConstrainedObject.extendable, hc] at hgen
      exact hgen rfl
    have hlength := @roundTrips_length al _ _ _ h c.upper_unsigned x
    refine (hbit.bind (f := fun extended => if extended = true ∨ c.constraint = .unconstrained then
        lengthDecode 0 intMax x
      else lengthDecode c.lowerUnsigned c.upperLimit x) (by
        rw [hfalse, Bool.and_false, if_neg (fun h => h.elim Bool.noConfusion hbounds)]
        exact hlength)).congr (fun s _ => ?_) (fun d _ => rfl)
    rw [ConstrainedObject.constrainedLengthEncode, if_neg hgen]

end Counts

section Scalars

/-- A scalar, with its type and its bounds. -/
inductive Scalar where
  | integer (type : ConstrainedObject) (value : Nat)
  | enumeration (type : Enumeration) (value : Nat)
  | length (lower upper len : Nat)
  | smallUnsigned (value : Nat)
  | count (type : ConstrainedObject) (length : Nat)

namespace Scalar

/-- The number. -/
def value : Scalar → Nat
  | integer _ value => value
  | enumeration _ value => value
  | length _ _ len => len
  | smallUnsigned value => value
  | count _ n => n

/-- How it is encoded. -/
def encode : Scalar → PerStream → PerStream
  | integer c value => integerEncode c value
  | enumeration e value => enumerationEncode e value
  | length lower upper len => lengthEncode len lower upper
  | smallUnsigned value => smallUnsignedEncode value
  | count c n => c.constrainedLengthEncode n

/-- How one of its type is decoded. -/
def decode (u : Unspecified) : Scalar → Decoder Nat
  | integer c _ => integerDecode u c
  | enumeration e _ => enumerationDecode e
  | length lower upper _ => lengthDecode lower upper u.unset
  | smallUnsigned _ => smallUnsignedDecode
  | count c _ => c.constrainedLengthDecode u.unset

/-- The scalars whose encoding is decoded to them. -/
def Supported (u : Unspecified) (al : Bool) : Scalar → Prop
  | integer c value => IntegerFits u c value
  | enumeration e value => EnumerationFits e value
  | length lower upper len => upper < 2 ^ 32 ∧ LengthFits al lower upper len
  | smallUnsigned value => value < 2 ^ 32
  | count c n => CountFits al c n

/-- Decoding the encoding of a scalar gives it back, from every place on. -/
theorem decode_encodes (u : Unspecified) (al : Bool) (x : Scalar) (h : x.Supported u al) :
    RoundTrips al x.encode (x.decode u) x.value := by
  cases x with
  | integer c value => exact roundTrips_integer h
  | enumeration e value => exact roundTrips_enumeration h
  | length lower upper len => exact roundTrips_length h.2 h.1 u.unset
  | smallUnsigned value => exact roundTrips_smallUnsigned h
  | count c n => exact roundTrips_count h u.unset

/-- An integer from 1 to 1000. -/
def thousand : ConstrainedObject where
  constraint := .fixedConstraint
  lowerLimit := 1
  upperLimit := 1000
  lower_int := by decide
  upper_unsigned := by decide
  bounds := fun h => by cases h

theorem decode_encodes_thousand :
    RoundTrips true (integer thousand 500).encode ((integer thousand 500).decode ⟨7, 0⟩) 500 :=
  decode_encodes ⟨7, 0⟩ true (integer thousand 500) (by
    show IntegerFits _ _ _
    decide)

/-- A stream as `BeginEncoding` leaves it. -/
def begun (al : Bool) : PerStream := ⟨List.replicate 20 0, 0, 8, al⟩

theorem ready_begun (al : Bool) : (begun al).Ready where
  one_le := (by decide : 1 ≤ 8)
  le_eight := Nat.le_refl 8
  within := Nat.zero_le _
  clear := by
    intro i _
    have hzero : Lib.octetsAt (List.replicate 20 0) = Lib.octetsAt [] :=
      octetsAt_append_zeros (l := []) 20
    rw [bits, show (begun al).theArray = List.replicate 20 0 from rfl, hzero, Lib.bitAt,
      Lib.octetsAt, List.getD_nil, Lib.bitOf_zero]

/-- A length of 16384 is written as two set bits, and nothing is read from them. -/
theorem not_roundTrips_long :
    ¬ RoundTrips true (length 0 intMax 16384).encode ((length 0 intMax 16384).decode ⟨0, 0⟩)
      16384 := by
  intro h
  have hdecode := h.reads (begun true) rfl (ready_begun true) (by decide)
    ((length 0 intMax 16384).encode (begun true)).completeEncoding
    (holds_completeEncoding (h.writes (begun true) rfl (ready_begun true) (by decide)).1 (by decide))
  revert hdecode
  decide

end Scalar

end Scalars

end Asn

end CryptoOpal

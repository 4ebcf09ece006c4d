import CryptoOpal.H224.HdlcLine
import Mathlib.Tactic.IntervalCases

/-!
# Received HDLC Lines, in Bounds

The decoder once more, on octets that end. It stops with a `Fault` when it reads an
octet that is not there, when it stores more octets than there is room for or than a
frame may have, and when its loops do not come to an end within the bits of the line.

Only the first of these happens. Whether there are more octets is asked before each
bit of the first flag, but then only before eight bits that may be another flag, and
before each octet. So the line may not end within one of these.

## Main definitions

* `lineBits`: The bits that are received.
* `Checked.decodeHdlc`: The decoder.
* `wholeBits`: How many bits of data the line has before it ends or stops.
* `LineFits`: The condition on a line.

## Theorems

* `firstFlagEnd_eq`: The first flag is found.
* `skipFlags_settles`: The flags behind it.
* `decodeLoop_settles`: The octets.
* `decodeHdlc_iff`: The whole line.
-/

namespace CryptoOpal

namespace H224

open Lib (Octets bitOf bitAt orBit)

/-- What the decoder must not do. -/
inductive Fault where
  | read
  | store
  | unfinished
  deriving DecidableEq

namespace Checked

section Decoder

variable (data : Octets)

/-- `DecodeBit`. -/
def decodeBit (p : BitPosition) : Except Fault (Bool × BitPosition) :=
  match data[p.octetIndex]? with
  | some octet => .ok (bitOf octet p.bitIndex, p.next)
  | none => .error .read

/-- The first loop of `FindFlagEnd`. -/
def firstFlagEnd : Nat → Nat → BitPosition → Except Fault (Option BitPosition)
  | 0, _, _ => .error .unfinished
  | fuel + 1, positionsCorrect, p =>
    if p.octetIndex < data.length then
      (decodeBit data p).bind fun read =>
        if positionsCorrect = 0 then
          firstFlagEnd fuel (if read.1 then 0 else 1) read.2
        else if positionsCorrect = 7 then
          .ok (if read.1 then none else some read.2)
        else
          firstFlagEnd fuel (if read.1 then positionsCorrect + 1 else 1) read.2
    else
      .ok none

/-- The inner loop of `FindFlagEnd`. -/
def matchFlag : Nat → Nat → BitPosition → Except Fault FlagMatch
  | 0, _, p => .ok (.flag p)
  | left + 1, positionsCorrect, p =>
    (decodeBit data p).bind fun read =>
      if positionsCorrect = 0 then
        if read.1 then .ok .other else matchFlag left 1 read.2
      else if positionsCorrect = 7 then
        if read.1 then .ok .abort else matchFlag left 7 read.2
      else
        if read.1 then matchFlag left (positionsCorrect + 1) read.2 else .ok .other

/-- The second loop of `FindFlagEnd`. -/
def skipFlags : Nat → BitPosition → Except Fault (Option BitPosition)
  | 0, _ => .error .unfinished
  | fuel + 1, p =>
    if p.octetIndex < data.length then
      (matchFlag data 8 0 p).bind fun found =>
        match found with
        | .other => .ok (some p)
        | .abort => .ok none
        | .flag after => skipFlags fuel after
    else
      .ok none

/-- `FindFlagEnd`. -/
def findFlagEnd (p : BitPosition) : Except Fault (Option BitPosition) :=
  (firstFlagEnd data (8 * data.length + 1) 0 p).bind fun found =>
    match found with
    | none => .ok none
    | some after => skipFlags data (8 * data.length + 1) after

/-- The loop in `DecodeOctet`. -/
def decodeBits : Nat → Nat → UInt8 → BitPosition → Nat → Except Fault OctetResult
  | 0, _, decodedByte, p, onesCounter => .ok (.ok decodedByte p onesCounter)
  | left + 1, i, decodedByte, p, onesCounter =>
    (decodeBit data p).bind fun read =>
      if read.1 then
        if onesCounter + 1 = 6 then
          (decodeBit data read.2).bind fun last =>
            .ok (if i = 6 ∧ last.1 = false then .flag else .error)
        else
          decodeBits left (i + 1) (orBit decodedByte i true) read.2 (onesCounter + 1)
      else if onesCounter = 5 then
        (decodeBit data read.2).bind fun again =>
          decodeBits left (i + 1) (orBit decodedByte i again.1) again.2 0
      else
        decodeBits left (i + 1) decodedByte read.2 0

/-- `DecodeOctet`. -/
def decodeOctet (p : BitPosition) (onesCounter : Nat) : Except Fault OctetResult :=
  decodeBits data 8 0 0 p onesCounter

/-- The last loop of `DecodeHDLC`. -/
def decodeLoop : Nat → Octets → Nat → UInt8 → UInt8 → BitPosition → Nat →
    Except Fault (Option Q922Frame)
  | 0, _, _, _, _, _, _ => .error .unfinished
  | fuel + 1, theArray, arrayIndex, firstOctet, secondOctet, p, onesCounter =>
    if p.octetIndex < data.length then
      (decodeOctet data p onesCounter).bind fun result =>
        match result with
        | .error => .ok none
        | .flag =>
          let fcs := (secondOctet.toUInt16 <<< 8) ||| firstOctet.toUInt16
          .ok (if fcs = calculateFcs (theArray.take arrayIndex) ∧ q922HeaderSize < arrayIndex then
            some (Q922Frame.setInformationFieldSize theArray (arrayIndex - q922HeaderSize))
          else
            none)
        | .ok decodedByte p onesCounter =>
          if theArray.length ≤ arrayIndex ∨ 260 + q922HeaderSize ≤ arrayIndex then
            .error .store
          else if 260 + q922HeaderSize ≤ arrayIndex + 1 then
            .ok none
          else
            decodeLoop fuel (theArray.set arrayIndex firstOctet) (arrayIndex + 1)
              secondOctet decodedByte p onesCounter
    else
      .ok none

/-- The first octets of `DecodeHDLC`, and the loop. -/
def decodeFrom (theArray : Octets) (p : BitPosition) : Except Fault (Option Q922Frame) :=
  if p.octetIndex < data.length then
    (decodeOctet data p 0).bind fun first =>
      match first with
      | .ok firstOctet p onesCounter =>
        if p.octetIndex < data.length then
          (decodeOctet data p onesCounter).bind fun second =>
            match second with
            | .ok secondOctet p onesCounter =>
              decodeLoop data data.length theArray 0 firstOctet secondOctet p onesCounter
            | _ => .ok none
        else
          .ok none
      | _ => .ok none
  else
    .ok none

/-- `DecodeHDLC`, into a frame. -/
def decodeHdlc (f : Q922Frame) : Except Fault (Option Q922Frame) :=
  let theArray := f.theArray ++ List.replicate (data.length - f.theArray.length) 0
  if data.length < 2 + 3 + 2 + 1 then
    .ok none
  else
    (findFlagEnd data ⟨0, Fin.last 7⟩).bind fun found =>
      match found with
      | none => .ok none
      | some p => decodeFrom data theArray p

end Decoder

end Checked

section Lines

/-- The bits that are received. -/
def lineBits (data : Octets) : List Bool :=
  (List.range (8 * data.length)).map (bitAt fun i => data.getD i 0)

/-- A zero and six ones. Only a flag has them, or an abort. -/
def flagStart : List Bool := [false, true, true, true, true, true, true]

/-- The bits behind the first flag, if there is one and no abort before. -/
def behindFlag : List Bool → Option (List Bool)
  | [] => none
  | bit :: bits =>
    if flagStart.isPrefixOf (bit :: bits) then
      match (bit :: bits).drop 7 with
      | [] => none
      | last :: rest => if last then none else some rest
    else
      behindFlag bits

/-- The bits behind more flags. -/
def behindFlags : List Bool → List Bool
  | false :: true :: true :: true :: true :: true :: true :: false :: bits => behindFlags bits
  | bits => bits

/-- How data comes to its end. -/
inductive DataEnd where
  | stops
  | lineEnds
  | lineEndsWithin
  deriving DecidableEq

/-- How many bits of data there are, after so many ones in a row. The bit behind five
ones is not data if it is a zero, and stops the data if it is a one: in both cases
another bit is looked at. -/
def wholeBits : Nat → List Bool → Nat × DataEnd
  | _, [] => (0, .lineEnds)
  | ones, true :: bits =>
    if ones = 5 then (0, if bits = [] then .lineEndsWithin else .stops)
    else ((wholeBits (ones + 1) bits).1 + 1, (wholeBits (ones + 1) bits).2)
  | ones, false :: bits =>
    if ones = 5 then
      match bits with
      | [] => (0, .lineEndsWithin)
      | _ :: bits => ((wholeBits 0 bits).1 + 1, (wholeBits 0 bits).2)
    else
      ((wholeBits 0 bits).1 + 1, (wholeBits 0 bits).2)

/-- Data has as many octets, or is stopped, or ends with an octet. -/
def DataFits (octets : Nat) (data : Nat × DataEnd) : Prop :=
  8 * octets ≤ data.1 ∨ data.2 = .stops ∨ (data.2 = .lineEnds ∧ data.1 % 8 = 0)

/-- What is behind the flags is nothing, or an abort, or no beginning of a flag. Then it is
the octets of a frame and its checksum, of which 265 are too many. -/
def BitsFit (bits : List Bool) : Prop :=
  bits = [] ∨ flagStart ++ [true] <+: bits ∨
    (¬bits <+: flagBits ∧ DataFits (260 + q922HeaderSize + 2) (wholeBits 0 bits))

/-- The condition on a line. -/
def LineFits (data : Octets) : Prop :=
  data.length < 8 ∨ ∀ bits, behindFlag (lineBits data) = some bits → BitsFit (behindFlags bits)

end Lines

namespace Checked

variable {data : Octets}

/-- A condition decides whether there is a result: without it something is read that is not
there. -/
def Settles {α : Type} (result : Except Fault α) (condition : Prop) : Prop :=
  (condition ∧ ∃ a, result = .ok a) ∨ (¬condition ∧ result = .error .read)

theorem settles_ok {α : Type} {condition : Prop} (a : α) (h : condition) :
    Settles (.ok a : Except Fault α) condition := .inl ⟨h, a, rfl⟩

theorem Settles.of_iff {α : Type} {result : Except Fault α} {condition other : Prop}
    (h : Settles result condition) (hiff : condition ↔ other) : Settles result other := by
  rwa [← propext hiff]

/-- The bits that are left from bit `n` on. -/
structure Rest (data : Octets) (n : Nat) (bits : List Bool) : Prop where
  left : (lineBits data).drop n = bits
  inside : n + bits.length = 8 * data.length

section Reading

variable {n : Nat} {bit : Bool} {bits : List Bool}

theorem length_lineBits (data : Octets) : (lineBits data).length = 8 * data.length := by
  rw [lineBits, List.length_map, List.length_range]

theorem rest_all (data : Octets) : Rest data 0 (lineBits data) where
  left := rfl
  inside := by rw [length_lineBits, Nat.zero_add]

/-- There is another octet exactly when there is another bit. -/
theorem Rest.lt_iff (h : Rest data n bits) :
    (BitPosition.ofNat n).octetIndex < data.length ↔ bits ≠ [] := by
  have hinside := h.inside
  change n / 8 < data.length ↔ _
  rw [← List.length_pos_iff]
  omega

theorem Rest.tail (h : Rest data n (bit :: bits)) : Rest data (n + 1) bits where
  left := by
    rw [← List.drop_drop, h.left, List.drop_one, List.tail_cons]
  inside := by
    have hinside := h.inside
    rw [List.length_cons] at hinside
    omega

theorem decodeBit_nil (h : Rest data n []) : decodeBit data (.ofNat n) = .error .read := by
  have hnot : ¬(BitPosition.ofNat n).octetIndex < data.length := fun hlt => h.lt_iff.1 hlt rfl
  rw [decodeBit, List.getElem?_eq_none (Nat.le_of_not_lt hnot)]

theorem decodeBit_cons (h : Rest data n (bit :: bits)) :
    decodeBit data (.ofNat n) = .ok (bit, .ofNat (n + 1)) := by
  have hlt := h.lt_iff.2 (List.cons_ne_nil _ _)
  have hin : n < 8 * data.length := by
    have hinside := h.inside
    rw [List.length_cons] at hinside
    omega
  -- The first of the bits that are left is bit `n`.
  have hbit : bitAt (fun i => data.getD i 0) n = bit := by
    have hhead := congrArg List.head? h.left
    rw [List.head?_drop, lineBits, List.getElem?_map, List.getElem?_range hin] at hhead
    simpa using hhead
  rw [decodeBit, List.getElem?_eq_getElem hlt, ← hbit, BitPosition.next_ofNat]
  simp only [bitAt, List.getD_eq_getElem?_getD]
  congr 2
  change _ = bitOf (data[(BitPosition.ofNat n).octetIndex]?.getD 0) _
  rw [List.getElem?_eq_getElem hlt, Option.getD_some]
  rfl

end Reading

section Flags

/-- What was read of a flag. -/
def seen (positionsCorrect : Nat) : List Bool := flagStart.take positionsCorrect

/-- The first flag is found where it is, for all that the bits are looked at one by one. -/
theorem firstFlagEnd_eq {bits : List Bool} {fuel positionsCorrect n : Nat}
    (h : Rest data n bits) (hseen : positionsCorrect ≤ 7) (hfuel : bits.length < fuel) :
    firstFlagEnd data fuel positionsCorrect (.ofNat n) =
      .ok ((behindFlag (seen positionsCorrect ++ bits)).map fun rest =>
        .ofNat (8 * data.length - rest.length)) := by
  induction bits generalizing fuel positionsCorrect n with
  | nil =>
      obtain ⟨fuel, rfl⟩ := Nat.exists_eq_succ_of_ne_zero (Nat.ne_of_gt hfuel)
      have hnone : behindFlag (seen positionsCorrect ++ []) = none := by
        interval_cases positionsCorrect <;> rfl
      rw [firstFlagEnd, if_neg (fun hlt => h.lt_iff.1 hlt rfl), hnone]
      rfl
  | cons bit bits ih =>
      obtain ⟨fuel, rfl⟩ := Nat.exists_eq_succ_of_ne_zero (Nat.ne_of_gt (Nat.zero_lt_of_lt hfuel))
      have hmore : bits.length < fuel := by
        rw [List.length_cons] at hfuel
        omega
      rw [firstFlagEnd, if_pos (h.lt_iff.2 (List.cons_ne_nil _ _)), decodeBit_cons h]
      simp only [Except.bind]
      by_cases hzero : positionsCorrect = 0
      · subst hzero
        rw [if_pos rfl]
        cases bit with
        | true => exact @ih fuel 0 _ h.tail (by decide) hmore
        | false => exact @ih fuel 1 _ h.tail (by decide) hmore
      rw [if_neg hzero]
      by_cases hseven : positionsCorrect = 7
      · subst hseven
        rw [if_pos rfl]
        cases bit with
        | true => rfl
        | false =>
            have hplace : 8 * data.length - bits.length = n + 1 := by
              rw [← h.tail.inside, Nat.add_sub_cancel]
            change Except.ok (some (BitPosition.ofNat (n + 1))) =
              Except.ok (some (BitPosition.ofNat (8 * data.length - bits.length)))
            rw [hplace]
      rw [if_neg hseven]
      cases bit with
      | true =>
          rw [if_pos rfl, ih h.tail (by omega) hmore]
          interval_cases positionsCorrect <;> first | rfl | omega
      | false =>
          -- The zero may be the beginning of a flag.
          rw [if_neg Bool.false_ne_true, ih h.tail (by decide) hmore]
          interval_cases positionsCorrect <;> first | rfl | omega

theorem behindFlag_suffix {bits rest : List Bool} (h : behindFlag bits = some rest) :
    ∃ before, bits = before ++ rest ∧ before.length ≥ 8 := by
  induction bits with
  | nil => cases h
  | cons bit bits ih =>
      rw [behindFlag] at h
      by_cases hstart : flagStart.isPrefixOf (bit :: bits)
      · rw [if_pos hstart] at h
        obtain ⟨more, hmore⟩ := List.isPrefixOf_iff_prefix.1 hstart
        rw [← hmore] at h ⊢
        match more, h with
        | last :: rest', h =>
            change (if last then none else some rest') = some rest at h
            cases last with
            | true => cases h
            | false =>
                rw [if_neg Bool.false_ne_true, Option.some.injEq] at h
                refine ⟨flagStart ++ [false], ?_, by decide⟩
                rw [h, List.append_assoc, List.singleton_append]
      · rw [if_neg hstart] at h
        obtain ⟨before, hbefore, hlength⟩ := ih h
        refine ⟨bit :: before, by rw [hbefore, List.cons_append], ?_⟩
        rw [List.length_cons]
        omega

theorem Rest.append {before bits : List Bool} {n : Nat} (h : Rest data n (before ++ bits)) :
    Rest data (n + before.length) bits := by
  refine ⟨?_, ?_⟩
  · rw [← List.drop_drop, h.left, List.drop_left]
  · rw [← h.inside, List.length_append, Nat.add_assoc]

theorem flagBits_eq : flagBits = [false, true, true, true, true, true, true, false] := by decide

/-- After some ones of a flag, with so many to come. -/
theorem matchFlag_ones {bits : List Bool} {n ones : Nat} (h : Rest data n bits)
    (hones : ones ≤ 6) :
    (bits <+: List.replicate ones true ∧
      matchFlag data (ones + 1) (7 - ones) (.ofNat n) = .error .read) ∨
    (∃ rest, bits = List.replicate ones true ++ false :: rest ∧
      matchFlag data (ones + 1) (7 - ones) (.ofNat n) = .ok (.flag (.ofNat (n + ones + 1)))) ∨
    (∃ rest, bits = List.replicate ones true ++ true :: rest ∧
      matchFlag data (ones + 1) (7 - ones) (.ofNat n) = .ok .abort) ∨
    (∃ fewer < ones, ∃ rest, bits = List.replicate fewer true ++ false :: rest ∧
      matchFlag data (ones + 1) (7 - ones) (.ofNat n) = .ok .other) := by
  induction ones generalizing bits n with
  | zero =>
      match bits, h with
      | [], h =>
          refine .inl ⟨List.nil_prefix, ?_⟩
          rw [matchFlag, decodeBit_nil h]
          rfl
      | false :: rest, h =>
          refine .inr (.inl ⟨rest, rfl, ?_⟩)
          rw [matchFlag, decodeBit_cons h]
          rfl
      | true :: rest, h =>
          refine .inr (.inr (.inl ⟨rest, rfl, ?_⟩))
          rw [matchFlag, decodeBit_cons h]
          rfl
  | succ ones ih =>
      have hstate : 7 - (ones + 1) ≠ 0 := by omega
      have hnext : 7 - (ones + 1) ≠ 7 := by omega
      match bits, h with
      | [], h =>
          refine .inl ⟨List.nil_prefix, ?_⟩
          rw [matchFlag, decodeBit_nil h]
          rfl
      | false :: rest, h =>
          refine .inr (.inr (.inr ⟨0, Nat.succ_pos _, rest, rfl, ?_⟩))
          rw [matchFlag, decodeBit_cons h]
          simp only [Except.bind, if_neg hstate, if_neg hnext, Bool.false_eq_true, if_false]
      | true :: rest, h =>
          have hread : matchFlag data (ones + 1 + 1) (7 - (ones + 1)) (.ofNat n) =
              matchFlag data (ones + 1) (7 - ones) (.ofNat (n + 1)) := by
            have hone : 7 - (ones + 1) + 1 = 7 - ones := by omega
            rw [matchFlag, decodeBit_cons h]
            simp only [Except.bind, if_neg hstate, if_neg hnext, if_true, hone]
          rw [hread]
          rcases ih h.tail (by omega) with hcut | ⟨more, hmore, hflag⟩ | ⟨more, hmore, habort⟩ |
            ⟨fewer, hfewer, more, hmore, hother⟩
          · refine .inl ⟨?_, hcut.2⟩
            rw [List.replicate_succ]
            exact List.cons_prefix_cons.2 ⟨rfl, hcut.1⟩
          · refine .inr (.inl ⟨more, ?_, ?_⟩)
            · rw [hmore, List.replicate_succ, List.cons_append]
            · rw [hflag]
              congr 3
              omega
          · refine .inr (.inr (.inl ⟨more, ?_, habort⟩))
            rw [hmore, List.replicate_succ, List.cons_append]
          · refine .inr (.inr (.inr ⟨fewer + 1, by omega, more, ?_, hother⟩))
            rw [hmore, List.replicate_succ, List.cons_append]

theorem matchFlag_zero {bits : List Bool} {n : Nat} (h : Rest data n (false :: bits))
    (left : Nat) :
    matchFlag data (left + 1) 0 (.ofNat n) = matchFlag data left 1 (.ofNat (n + 1)) := by
  rw [matchFlag, decodeBit_cons h]
  rfl

/-- Bits that may be a flag. -/
theorem matchFlag_cases {bits : List Bool} {n : Nat} (h : Rest data n bits) :
    (bits <+: flagStart ∧ matchFlag data 8 0 (.ofNat n) = .error .read) ∨
    (∃ rest, bits = flagBits ++ rest ∧
      matchFlag data 8 0 (.ofNat n) = .ok (.flag (.ofNat (n + 8)))) ∨
    (flagStart ++ [true] <+: bits ∧ matchFlag data 8 0 (.ofNat n) = .ok .abort) ∨
    ((¬bits <+: flagBits ∧ ¬flagStart <+: bits) ∧
      matchFlag data 8 0 (.ofNat n) = .ok .other) := by
  match bits, h with
  | [], h =>
      refine .inl ⟨List.nil_prefix, ?_⟩
      rw [matchFlag, decodeBit_nil h]
      rfl
  | true :: rest, h =>
      refine .inr (.inr (.inr ⟨?_, ?_⟩))
      · rw [flagBits_eq]
        simp [flagStart]
      · rw [matchFlag, decodeBit_cons h]
        rfl
  | false :: rest, h =>
      have hread := matchFlag_zero h 7
      have hones := matchFlag_ones h.tail (Nat.le_refl 6)
      have hplace : n + 1 + 6 + 1 = n + 8 := by omega
      simp only [Nat.reduceAdd, Nat.reduceSub, hplace] at hones
      rw [hread]
      rcases hones with hcut | ⟨more, hmore, hflag⟩ | ⟨more, hmore, habort⟩ |
        ⟨fewer, hfewer, more, hmore, hother⟩
      · exact .inl ⟨List.cons_prefix_cons.2 ⟨rfl, hcut.1⟩, hcut.2⟩
      · exact .inr (.inl ⟨more, by rw [hmore, flagBits_eq]; rfl, hflag⟩)
      · refine .inr (.inr (.inl ⟨⟨more, ?_⟩, habort⟩))
        rw [hmore]
        rfl
      · refine .inr (.inr (.inr ⟨?_, hother⟩))
        rw [hmore, flagBits_eq]
        interval_cases fewer <;> simp [flagStart]

/-- The other flags are skipped. -/
theorem skipFlags_cases {bits : List Bool} {fuel n : Nat} (h : Rest data n bits)
    (hfuel : bits.length < fuel) :
    ((behindFlags bits = [] ∨ flagStart ++ [true] <+: behindFlags bits) ∧
      skipFlags data fuel (.ofNat n) = .ok none) ∨
    ((behindFlags bits ≠ [] ∧ behindFlags bits <+: flagStart) ∧
      skipFlags data fuel (.ofNat n) = .error .read) ∨
    ((behindFlags bits ≠ [] ∧ ¬behindFlags bits <+: flagBits ∧
        ¬flagStart <+: behindFlags bits) ∧
      ∃ after, Rest data after (behindFlags bits) ∧
        skipFlags data fuel (.ofNat n) = .ok (some (.ofNat after))) := by
  obtain ⟨fuel, rfl⟩ := Nat.exists_eq_succ_of_ne_zero (Nat.ne_of_gt (Nat.zero_lt_of_lt hfuel))
  induction bits using behindFlags.induct generalizing fuel n with
  | case1 bits ih =>
      have hflags : false :: true :: true :: true :: true :: true :: true :: false :: bits =
          flagBits ++ bits := by
        rw [flagBits_eq]
        rfl
      have hlength : flagBits.length = 8 := by rw [flagBits_eq]; rfl
      rw [behindFlags]
      rw [hflags] at h hfuel
      have hrest := h.append
      rw [hlength] at hrest
      rw [List.length_append, hlength] at hfuel
      obtain ⟨fuel, rfl⟩ := Nat.exists_eq_succ_of_ne_zero (n := fuel) (by omega)
      have hskip : skipFlags data (fuel + 1 + 1) (.ofNat n) =
          skipFlags data (fuel + 1) (.ofNat (n + 8)) := by
        rcases matchFlag_cases h with ⟨hcut, _⟩ | ⟨_, _, hflag⟩ | ⟨habort, _⟩ | ⟨⟨_, hnot⟩, _⟩
        · have hlong := hcut.length_le
          rw [List.length_append, hlength] at hlong
          exact absurd hlong (by simp [flagStart]; omega)
        · rw [skipFlags, if_pos (h.lt_iff.2 (by rw [flagBits_eq]; exact List.cons_ne_nil _ _)),
            hflag]
          rfl
        · rw [flagBits_eq] at habort
          simp [flagStart] at habort
        · rw [flagBits_eq] at hnot
          simp [flagStart] at hnot
      rw [hskip]
      rcases ih hrest fuel (by omega) with hnone | hcut | hsome
      · exact .inl hnone
      · exact .inr (.inl hcut)
      · exact .inr (.inr hsome)
  | case2 bits hother =>
      rw [behindFlags.eq_2 bits hother, skipFlags]
      by_cases hempty : bits = []
      · rw [if_neg (fun hlt => h.lt_iff.1 hlt hempty)]
        exact .inl ⟨.inl hempty, rfl⟩
      rw [if_pos (h.lt_iff.2 hempty)]
      rcases matchFlag_cases h with ⟨hcut, hread⟩ | ⟨rest, hrest, _⟩ | ⟨habort, hread⟩ |
        ⟨hnot, hread⟩
      · rw [hread]
        exact .inr (.inl ⟨⟨hempty, hcut⟩, rfl⟩)
      · rw [flagBits_eq] at hrest
        exact absurd hrest (hother rest)
      · rw [hread]
        exact .inl ⟨.inr habort, rfl⟩
      · rw [hread]
        exact .inr (.inr ⟨⟨hempty, hnot⟩, n, h, rfl⟩)

end Flags

section Data

theorem wholeBits_true (ones : Nat) (bits : List Bool) : wholeBits ones (true :: bits) =
    if ones = 5 then (0, if bits = [] then .lineEndsWithin else .stops)
    else ((wholeBits (ones + 1) bits).1 + 1, (wholeBits (ones + 1) bits).2) := by
  cases bits with
  | nil => rfl
  | cons => rfl

theorem wholeBits_false {ones : Nat} (h : ones ≠ 5) (bits : List Bool) :
    wholeBits ones (false :: bits) = ((wholeBits 0 bits).1 + 1, (wholeBits 0 bits).2) := by
  cases bits with
  | nil => exact if_neg h
  | cons => exact if_neg h

theorem wholeBits_lineEnds {ones : Nat} {bits : List Bool}
    (h : wholeBits ones bits = (0, .lineEnds)) : bits = [] := by
  match bits, h with
  | [], _ => rfl
  | true :: bits, h =>
      rw [wholeBits_true] at h
      split at h
      · split at h
        · cases h
        · cases h
      · exact absurd (congrArg Prod.fst h) (Nat.succ_ne_zero _)
  | false :: bits, h =>
      by_cases hfive : ones = 5
      · subst hfive
        match bits, h with
        | [], h => cases h
        | _ :: _, h => exact absurd (congrArg Prod.fst h) (Nat.succ_ne_zero _)
      · rw [wholeBits_false hfive] at h
        exact absurd (congrArg Prod.fst h) (Nat.succ_ne_zero _)

/-- What is read of so many bits of an octet. -/
theorem decodeBits_cases {bits : List Bool} {n left i ones : Nat} {decodedByte : UInt8}
    (h : Rest data n bits) (hones : ones ≤ 5) :
    (left ≤ (wholeBits ones bits).1 ∧ ∃ octet after ones' rest,
      decodeBits data left i decodedByte (.ofNat n) ones = .ok (.ok octet (.ofNat after) ones') ∧
      Rest data after rest ∧ ones' ≤ 5 ∧ n + left ≤ after ∧
      wholeBits ones' rest = ((wholeBits ones bits).1 - left, (wholeBits ones bits).2)) ∨
    ((wholeBits ones bits).1 < left ∧ (wholeBits ones bits).2 = .stops ∧
      (decodeBits data left i decodedByte (.ofNat n) ones = .ok .flag ∨
        decodeBits data left i decodedByte (.ofNat n) ones = .ok .error)) ∨
    ((wholeBits ones bits).1 < left ∧ (wholeBits ones bits).2 ≠ .stops ∧
      decodeBits data left i decodedByte (.ofNat n) ones = .error .read) := by
  induction left generalizing bits n i ones decodedByte with
  | zero => exact .inl ⟨Nat.zero_le _, _, n, ones, bits, rfl, h, hones, Nat.le_refl n, rfl⟩
  | succ left ih =>
      match bits, h with
      | [], h =>
          refine .inr (.inr ⟨Nat.succ_pos _, ?_, ?_⟩)
          · exact fun hstops => (nomatch hstops)
          · rw [decodeBits, decodeBit_nil h]
            rfl
      | true :: bits, h =>
          by_cases hfive : ones = 5
          · -- Six ones: whatever comes then is the end of the data.
            rw [decodeBits, decodeBit_cons h, wholeBits_true, if_pos hfive]
            simp only [Except.bind, if_true, if_pos (show ones + 1 = 6 by omega)]
            match bits, h with
            | [], h =>
                refine .inr (.inr ⟨Nat.succ_pos _, fun hstops => (nomatch hstops), ?_⟩)
                rw [decodeBit_nil h.tail]
            | last :: bits, h =>
                refine .inr (.inl ⟨Nat.succ_pos _, rfl, ?_⟩)
                rw [decodeBit_cons h.tail]
                by_cases hflag : i = 6 ∧ last = false
                · exact .inl (congrArg Except.ok (if_pos hflag))
                · exact .inr (congrArg Except.ok (if_neg hflag))
          · have hsix : ¬ones + 1 = 6 := by omega
            rw [decodeBits, decodeBit_cons h, wholeBits_true, if_neg hfive]
            simp only [Except.bind, if_true, if_neg hsix]
            exact (ih h.tail (by omega)).imp
              (fun ⟨hle, octet, after, ones', rest, hread, hrest, hones', hafter, hwhole⟩ =>
                ⟨by omega, octet, after, ones', rest, hread, hrest, hones', by omega, by
                  rw [hwhole, Nat.add_sub_add_right]⟩)
              (Or.imp (fun hstops => ⟨by omega, hstops.2⟩) fun hends => ⟨by omega, hends.2⟩)
      | false :: bits, h =>
          by_cases hfive : ones = 5
          · -- A stuffed zero, and the bit that is meant.
            subst hfive
            rw [decodeBits, decodeBit_cons h]
            simp only [Except.bind, Bool.false_eq_true, if_false, if_true]
            match bits, h with
            | [], h =>
                refine .inr (.inr ⟨Nat.succ_pos _, fun hstops => (nomatch hstops), ?_⟩)
                rw [decodeBit_nil h.tail]
            | again :: bits, h =>
                have hdata : wholeBits 5 (false :: again :: bits) =
                    ((wholeBits 0 bits).1 + 1, (wholeBits 0 bits).2) := rfl
                rw [decodeBit_cons h.tail, hdata]
                exact (ih h.tail.tail (Nat.zero_le 5)).imp
                  (fun ⟨hle, octet, after, ones', rest, hread, hrest, hones', hafter, hwhole⟩ =>
                    ⟨Nat.succ_le_succ hle, octet, after, ones', rest, hread, hrest, hones',
                      by omega, by rw [hwhole, Nat.add_sub_add_right]⟩)
                  (Or.imp (fun hstops => ⟨Nat.succ_lt_succ hstops.1, hstops.2⟩)
                    fun hends => ⟨Nat.succ_lt_succ hends.1, hends.2⟩)
          · rw [decodeBits, decodeBit_cons h, wholeBits_false hfive]
            simp only [Except.bind, Bool.false_eq_true, if_false, if_neg hfive]
            exact (ih h.tail (Nat.zero_le 5)).imp
              (fun ⟨hle, octet, after, ones', rest, hread, hrest, hones', hafter, hwhole⟩ =>
                ⟨Nat.succ_le_succ hle, octet, after, ones', rest, hread, hrest, hones',
                  by omega, by rw [hwhole, Nat.add_sub_add_right]⟩)
              (Or.imp (fun hstops => ⟨Nat.succ_lt_succ hstops.1, hstops.2⟩)
                fun hends => ⟨Nat.succ_lt_succ hends.1, hends.2⟩)

/-- An octet. -/
theorem decodeOctet_cases {bits : List Bool} {n ones : Nat} (h : Rest data n bits)
    (hones : ones ≤ 5) (hbits : bits ≠ []) :
    (8 ≤ (wholeBits ones bits).1 ∧ ∃ octet after ones' rest,
      decodeOctet data (.ofNat n) ones = .ok (.ok octet (.ofNat after) ones') ∧
      Rest data after rest ∧ ones' ≤ 5 ∧ rest.length + 8 ≤ bits.length ∧
      wholeBits ones' rest = ((wholeBits ones bits).1 - 8, (wholeBits ones bits).2)) ∨
    ((wholeBits ones bits).2 = .stops ∧
      (decodeOctet data (.ofNat n) ones = .ok .flag ∨
        decodeOctet data (.ofNat n) ones = .ok .error)) ∨
    ((∀ octets, ¬DataFits (octets + 1) (wholeBits ones bits)) ∧
      decodeOctet data (.ofNat n) ones = .error .read) := by
  rcases @decodeBits_cases data bits n 8 0 ones 0 h hones with
    ⟨hle, octet, after, ones', rest, hread, hrest, hones', hafter, hwhole⟩ | ⟨_, hstops⟩ |
    ⟨hlt, hstops, hread⟩
  · refine .inl ⟨hle, octet, after, ones', rest, hread, hrest, hones', ?_, hwhole⟩
    have hbefore := h.inside
    have hbehind := hrest.inside
    omega
  · exact .inr (.inl hstops)
  · refine .inr (.inr ⟨?_, hread⟩)
    rintro octets (hmany | hstop | ⟨hends, hmod⟩)
    · omega
    · exact hstops hstop
    · -- Fewer than eight bits are an octet only when there are none.
      have hnone : wholeBits ones bits = (0, .lineEnds) := Prod.ext (by omega) hends
      exact hbits (wholeBits_lineEnds hnone)

/-- With an octet less there is one less to come. -/
theorem dataFits_sub {octets : Nat} {whole : Nat × DataEnd} (h : 8 ≤ whole.1) :
    DataFits octets (whole.1 - 8, whole.2) ↔ DataFits (octets + 1) whole := by
  have hmany : 8 * octets ≤ whole.1 - 8 ↔ 8 * (octets + 1) ≤ whole.1 := by omega
  have hmod : (whole.1 - 8) % 8 = 0 ↔ whole.1 % 8 = 0 := by omega
  simp only [DataFits, hmany, hmod]

theorem dataFits_nil (octets ones : Nat) : DataFits octets (wholeBits ones []) :=
  .inr (.inr ⟨rfl, rfl⟩)

/-- The octets of a frame, of which some are stored. -/
theorem decodeLoop_settles {bits : List Bool} {fuel arrayIndex octets n ones : Nat}
    {theArray : Octets} {firstOctet secondOctet : UInt8} (h : Rest data n bits) (hones : ones ≤ 5)
    (hfuel : bits.length < 8 * fuel) (hoctets : arrayIndex + octets + 1 = 260 + q922HeaderSize)
    (hroom : 8 * arrayIndex + bits.length ≤ 8 * theArray.length) :
    Settles (decodeLoop data fuel theArray arrayIndex firstOctet secondOctet (.ofNat n) ones)
      (DataFits (octets + 1) (wholeBits ones bits)) := by
  induction fuel generalizing bits arrayIndex octets n ones theArray firstOctet secondOctet with
  | zero => exact absurd hfuel (Nat.not_lt_zero _)
  | succ fuel ih =>
      rw [decodeLoop]
      by_cases hbits : bits = []
      · rw [if_neg (fun hlt => h.lt_iff.1 hlt hbits), hbits]
        exact settles_ok _ (dataFits_nil _ _)
      rw [if_pos (h.lt_iff.2 hbits)]
      rcases decodeOctet_cases h hones hbits with
        ⟨hle, octet, after, ones', rest, hread, hrest, hones', hlength, hwhole⟩ |
        ⟨hstops, hread | hread⟩ | ⟨hnot, hread⟩
      · have hstore : ¬(theArray.length ≤ arrayIndex ∨ 260 + q922HeaderSize ≤ arrayIndex) := by
          omega
        rw [hread]
        simp only [Except.bind, if_neg hstore]
        cases octets with
        | zero =>
            rw [if_pos (by omega)]
            exact settles_ok _ (.inl (by omega))
        | succ octets =>
            rw [if_neg (by omega)]
            have hnext : arrayIndex + 1 + octets + 1 = 260 + q922HeaderSize := by omega
            refine (ih hrest hones' (by omega) hnext ?_).of_iff ?_
            · rw [List.length_set]
              omega
            · rw [hwhole, dataFits_sub hle]
      · rw [hread]
        exact settles_ok _ (.inr (.inl hstops))
      · rw [hread]
        exact settles_ok _ (.inr (.inl hstops))
      · rw [hread]
        exact .inr ⟨hnot octets, rfl⟩

/-- All octets. -/
theorem decodeFrom_settles {bits : List Bool} {n : Nat} {theArray : Octets}
    (h : Rest data n bits) (hroom : data.length ≤ theArray.length) :
    Settles (decodeFrom data theArray (.ofNat n))
      (DataFits (260 + q922HeaderSize + 2) (wholeBits 0 bits)) := by
  have hinside := h.inside
  rw [decodeFrom]
  by_cases hbits : bits = []
  · rw [if_neg (fun hlt => h.lt_iff.1 hlt hbits), hbits]
    exact settles_ok _ (dataFits_nil _ _)
  rw [if_pos (h.lt_iff.2 hbits)]
  rcases decodeOctet_cases h (Nat.zero_le 5) hbits with
    ⟨hle, octet, after, ones, rest, hread, hrest, hones, hlength, hwhole⟩ |
    ⟨hstops, hread | hread⟩ | ⟨hnot, hread⟩
  · rw [hread, ← dataFits_sub hle, ← hwhole]
    simp only [Except.bind]
    -- The second octet, in the same way.
    by_cases hmore : rest = []
    · rw [if_neg (fun hlt => hrest.lt_iff.1 hlt hmore), hmore]
      exact settles_ok _ (dataFits_nil _ _)
    rw [if_pos (hrest.lt_iff.2 hmore)]
    rcases decodeOctet_cases hrest hones hmore with
      ⟨hle', octet', after', ones', rest', hread', hrest', hones', hlength', hwhole'⟩ |
      ⟨hstops, hread' | hread'⟩ | ⟨hnot, hread'⟩
    · rw [hread', ← dataFits_sub hle', ← hwhole']
      exact decodeLoop_settles hrest' hones' (by omega) rfl (by omega)
    · rw [hread']
      exact settles_ok _ (.inr (.inl hstops))
    · rw [hread']
      exact settles_ok _ (.inr (.inl hstops))
    · rw [hread']
      exact .inr ⟨hnot _, rfl⟩
  · rw [hread]
    exact settles_ok _ (.inr (.inl hstops))
  · rw [hread]
    exact settles_ok _ (.inr (.inl hstops))
  · rw [hread]
    exact .inr ⟨hnot _, rfl⟩

end Data

section Whole

/-- The whole line. -/
theorem decodeHdlc_settles (data : Octets) (f : Q922Frame) :
    Settles (decodeHdlc data f) (LineFits data) := by
  rw [decodeHdlc]
  by_cases hshort : data.length < 8
  · rw [if_pos hshort]
    exact settles_ok _ (.inl hshort)
  rw [if_neg hshort, findFlagEnd]
  have hfirst := @firstFlagEnd_eq data _ (8 * data.length + 1) 0 0 (rest_all data) (by decide)
    (by rw [length_lineBits]; exact Nat.lt_succ_self _)
  have hfits : LineFits data ↔ ∀ bits, behindFlag (lineBits data) = some bits →
      BitsFit (behindFlags bits) := or_iff_right hshort
  change firstFlagEnd data (8 * data.length + 1) 0 ⟨0, Fin.last 7⟩ =
    .ok ((behindFlag (lineBits data)).map _) at hfirst
  rw [hfirst]
  cases hflag : behindFlag (lineBits data) with
  | none => exact settles_ok _ (hfits.2 fun bits hbits => (nomatch hflag.symm.trans hbits))
  | some bits =>
      obtain ⟨before, hbefore, hlength⟩ := behindFlag_suffix hflag
      have hrest : Rest data (8 * data.length - bits.length) bits := by
        have hall := rest_all data
        rw [hbefore] at hall
        have hbehind := hall.append
        rw [← hbehind.inside, Nat.add_sub_cancel]
        exact hbehind
      have hroom : data.length ≤
          (f.theArray ++ List.replicate (data.length - f.theArray.length) (0 : UInt8)).length := by
        rw [List.length_append, List.length_replicate]
        omega
      have hiff : BitsFit (behindFlags bits) ↔ LineFits data := by
        rw [hfits]
        refine ⟨fun h other hother => ?_, fun h => h bits hflag⟩
        rw [hflag, Option.some.injEq] at hother
        rwa [← hother]
      refine Settles.of_iff ?_ hiff
      simp only [Option.map_some, Except.bind]
      have hinside := hrest.inside
      rcases skipFlags_cases hrest (show bits.length < 8 * data.length + 1 by omega) with ⟨hends, hskip⟩ |
        ⟨⟨hne, hcut⟩, hskip⟩ | ⟨⟨hne, hnot, hstart⟩, after, hleft, hskip⟩
      · rw [hskip]
        exact settles_ok _ (hends.imp_right .inl)
      · rw [hskip]
        refine .inr ⟨?_, rfl⟩
        rintro (hempty | habort | ⟨hflags, _⟩)
        · exact hne hempty
        · exact absurd (habort.trans hcut).length_le (by decide)
        · refine hflags (hcut.trans ?_)
          rw [flagBits_eq]
          exact ⟨[false], rfl⟩
      · rw [hskip]
        refine (decodeFrom_settles hleft hroom).of_iff ?_
        constructor
        · exact fun h => .inr (.inr ⟨hnot, h⟩)
        · rintro (hempty | habort | ⟨_, h⟩)
          · exact absurd hempty hne
          · exact absurd ((List.prefix_append _ _).trans habort) hstart
          · exact h

/-- The decoder comes to its end within the octets exactly when the line fits. It always comes to
an end, and never stores more than a frame may have. -/
theorem decodeHdlc_iff (data : Octets) (f : Q922Frame) :
    ((∃ result, decodeHdlc data f = .ok result) ↔ LineFits data) ∧
      decodeHdlc data f ≠ .error .store ∧ decodeHdlc data f ≠ .error .unfinished := by
  rcases decodeHdlc_settles data f with ⟨hfits, result, hresult⟩ | ⟨hnot, hread⟩
  · rw [hresult]
    exact ⟨⟨fun _ => hfits, fun _ => ⟨result, rfl⟩⟩, fun h => (nomatch h), fun h => (nomatch h)⟩
  · rw [hread]
    refine ⟨⟨fun h => ?_, fun h => absurd h hnot⟩, ?_, ?_⟩
    · rcases h with ⟨result, hresult⟩
      cases hresult
    · exact fun h => (nomatch h)
    · exact fun h => (nomatch h)

/-- A line that ends in the middle of an octet. -/
theorem cutOctet_outside : decodeHdlc [0xff, 0xff, 0xff, 0xff, 0xff, 0xff, 0x3f, 0x1f]
    (Q922Frame.setInformationFieldSize [] 260) = .error .read := by
  rcases decodeHdlc_settles [0xff, 0xff, 0xff, 0xff, 0xff, 0xff, 0x3f, 0x1f]
    (Q922Frame.setInformationFieldSize [] 260) with ⟨hlong | hfits, _⟩ | ⟨_, hread⟩
  · exact absurd hlong (by decide)
  · have hbits := hfits [false, false, true, true, true, true, true] (by decide)
    rcases hbits with hempty | habort | ⟨_, hmany | hstops | ⟨_, hmod⟩⟩
    · exact absurd hempty (by decide)
    · exact absurd habort (by decide)
    · exact absurd hmany (by decide)
    · exact absurd hstops (by decide)
    · exact absurd hmod (by decide)
  · exact hread

end Whole

end Checked

end H224

end CryptoOpal

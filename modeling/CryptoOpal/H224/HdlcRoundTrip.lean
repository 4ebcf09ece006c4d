import CryptoOpal.H224.HdlcLine
import Mathlib.Data.List.Infix

/-!
# What is Heard of a Frame

A receiver takes a zero after five ones out again, but it does not count the bit
behind that zero. The ones that it has counted are then one less than the ones
that the sender has, and at the tenth one in a row the sender stuffs in a zero
which the receiver takes for data. So a frame comes back if and only if it has
nowhere ten ones in a row, the checksum included.

## Main definitions

* `heard`: The bits that the receiver takes for data.
* `Delivers`: What the receiver gets from the line up to the closing flag.
* `RoundTrips`: What is written is read back.

## Theorems

* `heard_eq_iff`: Data without ten ones in a row is heard as it is.
* `delivers_stuff`: What is sent is heard, and then the closing flag.
* `decodeBits_delivers`: What one octet takes from the line.
* `decodeLoop_delivers`, `decodeLoop_octets`: What the loop makes of the rest.
* `roundTrips_iff_heard`: A frame comes back if what is heard is what was sent.
* `decodeHdlc_roundTrips_iff`: Which frames come back.
-/

namespace CryptoOpal

namespace H224

open Lib (Octets Memory bitOf bitAt orBit orBits lowFirst)

section Heard

/-- The bits that the receiver hears after so many ones in a row. -/
def heard : Nat → List Bool → List Bool
  | _, [] => []
  | _, false :: bits => false :: heard 0 bits
  | ones, true :: bits =>
    if ones = 9 then true :: false :: heard 0 bits else true :: heard (ones + 1) bits

theorem length_le_heard (bits : List Bool) (ones : Nat) :
    bits.length ≤ (heard ones bits).length := by
  induction bits generalizing ones with
  | nil => exact Nat.le_refl _
  | cons bit bits ih =>
      cases bit with
      | false =>
          rw [heard, List.length_cons, List.length_cons]
          exact Nat.succ_le_succ (ih 0)
      | true =>
          rw [heard]
          split
          · rw [List.length_cons, List.length_cons, List.length_cons]
            exact Nat.succ_le_succ (Nat.le_succ_of_le (ih 0))
          · rw [List.length_cons, List.length_cons]
            exact Nat.succ_le_succ (ih _)

/-- A zero ends a run of less than ten ones. -/
theorem infix_after_zero (bits : List Bool) {ones : Nat} (h : ones ≤ 9) :
    List.replicate 10 true <:+: List.replicate ones true ++ false :: bits ↔
      List.replicate 10 true <:+: bits := by
  induction ones with
  | zero =>
      rw [List.replicate_zero, List.nil_append, List.infix_cons_iff]
      refine or_iff_right ?_
      intro hprefix
      have hhead := List.head_eq_of_cons_eq (List.prefix_iff_eq_append.mp hprefix)
      exact Bool.noConfusion hhead
  | succ ones ih =>
      rw [List.replicate_succ (n := ones), List.cons_append, List.infix_cons_iff, ih (by omega)]
      refine or_iff_right ?_
      intro hprefix
      have hend := hprefix.getElem (i := ones + 1) (by rw [List.length_replicate]; omega)
      rw [List.getElem_replicate, List.getElem_cons_succ,
        List.getElem_append_right (by rw [List.length_replicate])] at hend
      simp only [List.length_replicate, Nat.sub_self, List.getElem_cons_zero] at hend
      exact Bool.noConfusion hend

/-- Data is heard as it is, and otherwise as more than it is. -/
theorem heard_eq_iff (bits : List Bool) {ones : Nat} (h : ones ≤ 9) :
    (heard ones bits).length = bits.length ↔
      ¬ List.replicate 10 true <:+: List.replicate ones true ++ bits := by
  induction bits generalizing ones with
  | nil =>
      rw [List.append_nil]
      refine iff_of_true rfl ?_
      intro hin
      have hlen := hin.length_le
      rw [List.length_replicate, List.length_replicate] at hlen
      omega
  | cons bit bits ih =>
      cases bit with
      | false =>
          have hrest := ih (Nat.zero_le 9)
          rw [List.replicate_zero, List.nil_append] at hrest
          rw [heard, List.length_cons, List.length_cons, Nat.add_right_cancel_iff, hrest,
            infix_after_zero bits h]
      | true =>
          have hmove : List.replicate ones true ++ true :: bits =
              List.replicate (ones + 1) true ++ bits := by
            rw [List.replicate_succ', List.append_assoc, List.singleton_append]
          rw [heard, hmove]
          by_cases hten : ones = 9
          · rw [if_pos hten, hten]
            have hle := length_le_heard bits 0
            refine iff_of_false ?_ (not_not_intro ⟨[], bits, rfl⟩)
            simp only [List.length_cons]
            omega
          · rw [if_neg hten, List.length_cons, List.length_cons, Nat.add_right_cancel_iff,
              ih (by omega)]

theorem heard_of_length (bits : List Bool) (ones : Nat)
    (h : (heard ones bits).length = bits.length) : heard ones bits = bits := by
  induction bits generalizing ones with
  | nil => rfl
  | cons bit bits ih =>
      cases bit with
      | false =>
          rw [heard, List.length_cons, List.length_cons, Nat.add_right_cancel_iff] at h
          rw [heard, ih 0 h]
      | true =>
          rw [heard] at h ⊢
          by_cases hten : ones = 9
          · have hle := length_le_heard bits 0
            rw [if_pos hten] at h
            simp only [List.length_cons] at h
            omega
          · rw [if_neg hten, List.length_cons, List.length_cons, Nat.add_right_cancel_iff] at h
            rw [if_neg hten, ih _ h]

end Heard

section Line

variable {m : Memory}

/-- Bits that are in a memory from bit `n` on. -/
def Reads (m : Memory) : Nat → List Bool → Prop
  | _, [] => True
  | n, bit :: bits => bitAt m n = bit ∧ Reads m (n + 1) bits

theorem reads_append {n : Nat} {bits more : List Bool} :
    Reads m n (bits ++ more) ↔ Reads m n bits ∧ Reads m (n + bits.length) more := by
  induction bits generalizing n with
  | nil => exact (Iff.of_eq (true_and _)).symm
  | cons bit bits ih =>
      rw [List.cons_append, Reads, Reads, ih, and_assoc, List.length_cons, Nat.add_assoc,
        Nat.add_comm 1]

theorem reads_of_getD {n : Nat} {bits : List Bool}
    (h : ∀ i < bits.length, bitAt m (n + i) = bits.getD i false) : Reads m n bits := by
  induction bits generalizing n with
  | nil => trivial
  | cons bit bits ih =>
      refine ⟨h 0 (Nat.succ_pos _), ih ?_⟩
      intro i hi
      rw [Nat.add_assoc, Nat.add_comm 1]
      exact h (i + 1) (Nat.succ_lt_succ hi)

/-- What the receiver gets from bit `n` on when it has counted so many ones: bits
of data, the first six bits of a flag among them, and the sixth one of that flag,
which is the last bit but one. -/
inductive Delivers (m : Memory) (last : Nat) : Nat → Nat → List Bool → Prop
  | stop : bitAt m last = true → bitAt m (last + 1) = false → Delivers m last last 5 []
  | one {n d : Nat} {bits : List Bool} : bitAt m n = true → d ≠ 5 →
      Delivers m last (n + 1) (d + 1) bits → Delivers m last n d (true :: bits)
  | zero {n d : Nat} {bits : List Bool} : bitAt m n = false → d ≠ 5 →
      Delivers m last (n + 1) 0 bits → Delivers m last n d (false :: bits)
  | stuffed {n : Nat} {bit : Bool} {bits : List Bool} : bitAt m n = false →
      bitAt m (n + 1) = bit → Delivers m last (n + 2) 0 bits → Delivers m last n 5 (bit :: bits)

theorem Delivers.le_last {last n d : Nat} {bits : List Bool} (h : Delivers m last n d bits) :
    n + bits.length ≤ last := by
  induction h with
  | stop _ _ => exact Nat.le_refl _
  | one _ _ _ ih => rw [List.length_cons]; omega
  | zero _ _ _ ih => rw [List.length_cons]; omega
  | stuffed _ _ _ ih => rw [List.length_cons]; omega

/-- Six ones in a row are those of the closing flag. -/
theorem Delivers.six_ones {last n d : Nat} {bits : List Bool} (h : Delivers m last n d bits)
    (hd : d ≤ 5) (hones : ∀ i, d + i ≤ 5 → bitAt m (n + i) = true) :
    d + bits.length = 5 := by
  induction h with
  | stop _ _ => rfl
  | one _ hne _ ih =>
      have hrest := ih (by omega) (fun i hi => by
        rw [Nat.add_assoc, Nat.add_comm 1]
        exact hones (i + 1) (by omega))
      rw [List.length_cons]
      omega
  | zero hbit _ _ _ => exact absurd (hones 0 (by omega)) (by rw [Nat.add_zero, hbit]; decide)
  | stuffed hbit _ _ _ => exact absurd (hones 0 (by omega)) (by rw [Nat.add_zero, hbit]; decide)

/-- The ones of the closing flag. -/
theorem delivers_ones {last n d : Nat} (k : Nat) (hd : d + k = 5) (hlast : n + k = last)
    (h : Reads m n (List.replicate (k + 1) true ++ [false])) :
    Delivers m last n d (List.replicate k true) := by
  induction k generalizing n d with
  | zero =>
      subst hd hlast
      exact .stop h.1 h.2.1
  | succ k ih =>
      have hrest := ih (n := n + 1) (d := d + 1) (by omega) (by omega) h.2
      exact .one h.1 (by omega) hrest

/-- What is left of the line when the sender has sent so many ones in a row: the
zero after five of them has not been taken yet. -/
def ahead (ones : Nat) (bits : List Bool) : List Bool :=
  if ones = 5 then false :: stuff 0 bits else stuff (ones % 5) bits

/-- The ones that the receiver has counted then. -/
def counted (ones : Nat) : Nat := if ones ≤ 5 then ones else ones - 6

theorem ahead_false {ones : Nat} (bits : List Bool) (h : ones ≠ 5) :
    ahead ones (false :: bits) = false :: ahead 0 bits := by
  rw [ahead, if_neg h, stuff, ahead, if_neg (by decide)]

theorem ahead_five_false (bits : List Bool) :
    ahead 5 (false :: bits) = false :: false :: ahead 0 bits := rfl

theorem ahead_five_true (bits : List Bool) :
    ahead 5 (true :: bits) = false :: true :: ahead 6 bits := rfl

theorem ahead_nine_true (bits : List Bool) :
    ahead 9 (true :: bits) = true :: false :: ahead 0 bits := rfl

theorem ahead_true {ones : Nat} (bits : List Bool) (h : ones < 9) (hne : ones ≠ 5) :
    ahead ones (true :: bits) = true :: ahead (ones + 1) bits := by
  rw [ahead, if_neg hne, stuff, ahead]
  by_cases hfour : ones = 4
  · subst hfour
    rfl
  · rw [if_neg (by omega), if_neg (by omega), show (ones + 1) % 5 = ones % 5 + 1 by omega]

/-- What is sent is heard, and then the closing flag. -/
theorem delivers_ahead (bits : List Bool) (ones n : Nat) {last : Nat} (hones : ones ≤ 9)
    (hlast : n + (ahead ones bits).length + 6 = last)
    (h : Reads m n (ahead ones bits ++ flagBits)) :
    Delivers m last n (counted ones) (heard ones bits ++ false :: List.replicate 5 true) := by
  induction bits generalizing ones n with
  | nil =>
      by_cases hfive : ones = 5
      · subst hfive
        have hrest := delivers_ones (d := 0) 5 rfl hlast h.2.2
        exact .stuffed h.1 h.2.1 hrest
      · rw [ahead, if_neg hfive, stuff] at h hlast
        have hrest := delivers_ones (d := 0) 5 rfl (by exact hlast) h.2
        refine .zero h.1 ?_ hrest
        rw [counted]
        split <;> omega
  | cons bit bits ih =>
      cases bit with
      | false =>
          by_cases hfive : ones = 5
          · -- The zero that was stuffed in is skipped, and the next bit is not counted.
            subst hfive
            rw [ahead_five_false] at hlast
            have hrest := ih 0 (n + 2) (Nat.zero_le 9)
              (by rw [← hlast, List.length_cons, List.length_cons]; omega) h.2.2
            exact .stuffed h.1 h.2.1 hrest
          · rw [ahead_false bits hfive] at h hlast
            have hrest := ih 0 (n + 1) (Nat.zero_le 9)
              (by rw [← hlast, List.length_cons]; omega) h.2
            refine .zero h.1 ?_ hrest
            rw [counted]
            split <;> omega
      | true =>
          by_cases hten : ones = 9
          · -- The zero behind the tenth one is taken for data.
            subst hten
            rw [ahead_nine_true] at hlast
            have hrest := ih 0 (n + 2) (Nat.zero_le 9)
              (by rw [← hlast, List.length_cons, List.length_cons]; omega) h.2.2
            exact .one h.1 (by decide) (.zero h.2.1 (by decide) hrest)
          · rw [heard, if_neg hten]
            by_cases hfive : ones = 5
            · subst hfive
              rw [ahead_five_true] at hlast
              have hrest := ih 6 (n + 2) (by decide)
                (by rw [← hlast, List.length_cons, List.length_cons]; omega) h.2.2
              exact .stuffed h.1 h.2.1 hrest
            · rw [ahead_true bits (by omega) hfive] at h hlast
              have hrest := ih (ones + 1) (n + 1) (by omega)
                (by rw [← hlast, List.length_cons]; omega) h.2
              have hcount : counted (ones + 1) = counted ones + 1 := by
                rw [counted, counted]
                split <;> split <;> omega
              rw [hcount] at hrest
              refine .one h.1 ?_ hrest
              rw [counted]
              split <;> omega

end Line

section Octet

variable {m : Memory} {last n d : Nat} {bits : List Bool}

/-- Bits of data are taken from the line. -/
theorem decodeBits_delivers (h : Delivers m last n d bits) (left i : Nat)
    (decodedByte : UInt8) (hleft : left ≤ bits.length) :
    ∃ n' d', n + left ≤ n' ∧ Delivers m last n' d' (bits.drop left) ∧
      decodeBits m left i decodedByte (.ofNat n) d =
        .ok (orBits decodedByte i (bits.take left)) (.ofNat n') d' := by
  induction h generalizing left i decodedByte with
  | stop hbit hnext =>
      cases left with
      | zero => exact ⟨_, _, Nat.le_refl _, .stop hbit hnext, rfl⟩
      | succ left => exact absurd hleft (Nat.not_succ_le_zero _)
  | one hbit hne hrest ih =>
      cases left with
      | zero => exact ⟨_, _, Nat.le_refl _, .one hbit hne hrest, rfl⟩
      | succ left =>
          rcases ih left (i + 1) (orBit decodedByte i true) (Nat.le_of_succ_le_succ hleft)
            with ⟨n', d', hle, hthere, hdecode⟩
          refine ⟨n', d', by omega, hthere, ?_⟩
          rw [decodeBits, decodeBit_ofNat, hbit, if_pos rfl, if_neg (by omega), hdecode]
          rfl
  | zero hbit hne hrest ih =>
      cases left with
      | zero => exact ⟨_, _, Nat.le_refl _, .zero hbit hne hrest, rfl⟩
      | succ left =>
          rcases ih left (i + 1) decodedByte (Nat.le_of_succ_le_succ hleft)
            with ⟨n', d', hle, hthere, hdecode⟩
          refine ⟨n', d', by omega, hthere, ?_⟩
          rw [decodeBits, decodeBit_ofNat, hbit, if_neg Bool.false_ne_true, if_neg hne, hdecode]
          rfl
  | stuffed hbit hnext hrest ih =>
      cases left with
      | zero => exact ⟨_, _, Nat.le_refl _, .stuffed hbit hnext hrest, rfl⟩
      | succ left =>
          rcases ih left (i + 1) (orBit decodedByte i _) (Nat.le_of_succ_le_succ hleft)
            with ⟨n', d', hle, hthere, hdecode⟩
          refine ⟨n', d', by omega, hthere, ?_⟩
          rw [decodeBits, decodeBit_ofNat, hbit, if_neg Bool.false_ne_true, if_pos rfl,
            decodeBit_ofNat, hnext, hdecode]
          rfl

/-- The closing flag is recognised where an octet begins, and it is an error
elsewhere. -/
theorem decodeBits_closing (h : Delivers m last n d bits) (left i : Nat)
    (decodedByte : UInt8) (hleft : bits.length < left) :
    decodeBits m left i decodedByte (.ofNat n) d =
      if i + bits.length = 6 then .flag else .error := by
  induction h generalizing left i decodedByte with
  | stop hbit hnext =>
      cases left with
      | zero => exact absurd hleft (Nat.not_lt_zero _)
      | succ left =>
          rw [decodeBits, decodeBit_ofNat, hbit, if_pos rfl, if_pos rfl, decodeBit_ofNat, hnext,
            List.length_nil, Nat.add_zero]
          simp only [and_true, Nat.add_zero]
  | one hbit hne _ ih =>
      cases left with
      | zero => exact absurd hleft (Nat.not_lt_zero _)
      | succ left =>
          rw [decodeBits, decodeBit_ofNat, hbit, if_pos rfl, if_neg (by omega),
            ih _ _ _ (Nat.lt_of_succ_lt_succ hleft), List.length_cons, Nat.add_assoc, Nat.add_comm 1]
  | zero hbit hne _ ih =>
      cases left with
      | zero => exact absurd hleft (Nat.not_lt_zero _)
      | succ left =>
          rw [decodeBits, decodeBit_ofNat, hbit, if_neg Bool.false_ne_true, if_neg hne,
            ih _ _ _ (Nat.lt_of_succ_lt_succ hleft), List.length_cons, Nat.add_assoc, Nat.add_comm 1]
  | stuffed hbit hnext _ ih =>
      cases left with
      | zero => exact absurd hleft (Nat.not_lt_zero _)
      | succ left =>
          rw [decodeBits, decodeBit_ofNat, hbit, if_neg Bool.false_ne_true, if_pos rfl,
            decodeBit_ofNat, hnext, ih _ _ _ (Nat.lt_of_succ_lt_succ hleft), List.length_cons,
            Nat.add_assoc, Nat.add_comm 1]

/-- An octet of data is taken from the line. -/
theorem decodeOctet_lowFirst {octet : UInt8} (h : Delivers m last n d (lowFirst octet ++ bits)) :
    ∃ n' d', n + 8 ≤ n' ∧ Delivers m last n' d' bits ∧
      decodeOctet m (.ofNat n) d = .ok octet (.ofNat n') d' := by
  have hlen := Lib.length_lowFirst octet
  rcases decodeBits_delivers h 8 0 0
    (by rw [List.length_append, hlen]; exact Nat.le_add_right _ _) with ⟨n', d', hle, hrest, hdecode⟩
  rw [List.drop_left' hlen] at hrest
  rw [List.take_left' hlen, Lib.orBits_lowFirst] at hdecode
  exact ⟨n', d', hle, hrest, hdecode⟩

end Octet

section Loop

variable {m : Memory} {last size : Nat}

theorem ofNat_octetIndex_lt {n : Nat} (h : n ≤ last) (hlast : last < 8 * size) :
    (BitPosition.ofNat n).octetIndex < size := by
  show n / 8 < size
  omega

/-- Whatever the loop makes of the rest of the line, it has counted its octets. -/
theorem decodeLoop_size {fuel arrayIndex n d : Nat} {bits : List Bool} {theArray : Octets}
    {firstOctet secondOctet : UInt8} {h : Q922Frame} (hbits : Delivers m last n d bits)
    (hdecode : Q922Frame.decodeLoop m size fuel theArray arrayIndex firstOctet secondOctet
      (.ofNat n) d = some h) :
    8 * (h.informationFieldSize + q922HeaderSize) + 6 = 8 * arrayIndex + bits.length := by
  induction fuel generalizing theArray arrayIndex firstOctet secondOctet n d bits with
  | zero => cases hdecode
  | succ fuel ih =>
      rw [Q922Frame.decodeLoop] at hdecode
      split at hdecode
      · by_cases hmore : 8 ≤ bits.length
        · rcases decodeBits_delivers hbits 8 0 0 hmore with ⟨n', d', _, hrest, hoctet⟩
          rw [decodeOctet, hoctet] at hdecode
          simp only at hdecode
          split at hdecode
          · cases hdecode
          · have hlater := ih hrest hdecode
            rw [List.length_drop] at hlater
            omega
        · have hoctet := decodeBits_closing hbits 8 0 0 (by omega)
          rw [decodeOctet, hoctet] at hdecode
          by_cases hflag : 0 + bits.length = 6
          · rw [if_pos hflag] at hdecode
            simp only at hdecode
            split at hdecode
            · rename_i hgood
              rw [← Option.some.inj hdecode]
              simp only [Q922Frame.setInformationFieldSize]
              omega
            · cases hdecode
          · rw [if_neg hflag] at hdecode
            cases hdecode
      · cases hdecode

/-- Octets with the right checksum are put together. -/
theorem decodeLoop_octets (octets before rest : Octets) (fuel : Nat) {n d : Nat} {content : Octets}
    {firstOctet secondOctet lo hi : UInt8} (hlast : last < 8 * size)
    (h : Delivers m last n d (sentBits octets ++ false :: List.replicate 5 true))
    (hcontent : firstOctet :: secondOctet :: octets = content ++ [lo, hi])
    (hfcs : (hi.toUInt16 <<< 8) ||| lo.toUInt16 = calculateFcs (before ++ content))
    (hfuel : octets.length < fuel) (hrest : octets.length ≤ rest.length)
    (hsome : q922HeaderSize < (before ++ content).length)
    (hmost : (before ++ content).length < 260 + q922HeaderSize) :
    ∃ behind, Q922Frame.decodeLoop m size fuel (before ++ rest) before.length firstOctet secondOctet
      (.ofNat n) d = some (Q922Frame.setInformationFieldSize (before ++ content ++ behind)
        ((before ++ content).length - q922HeaderSize)) := by
  induction octets generalizing fuel n d before rest content firstOctet secondOctet with
  | nil =>
      have hle := h.le_last
      have hflag := decodeBits_closing h 8 0 0 (by decide)
      rw [if_pos (by decide)] at hflag
      have hnone : content = [] := by
        have hlen := congrArg List.length hcontent
        simp only [List.length_cons, List.length_append, List.length_nil] at hlen
        exact List.eq_nil_of_length_eq_zero (by omega)
      subst hnone
      rw [List.append_nil] at hfcs hsome ⊢
      simp only [List.nil_append, List.cons.injEq, and_true] at hcontent
      cases fuel with
      | zero => exact absurd hfuel (Nat.not_lt_zero _)
      | succ fuel =>
          refine ⟨rest, ?_⟩
          rw [Q922Frame.decodeLoop, if_pos (ofNat_octetIndex_lt (by omega) hlast), decodeOctet, hflag]
          simp only
          rw [hcontent.1, hcontent.2, List.take_left' rfl, if_pos ⟨hfcs, hsome⟩]
  | cons octet octets ih =>
      have hle := h.le_last
      rw [sentBits, List.flatMap_cons, List.append_assoc] at h
      rcases decodeOctet_lowFirst h with ⟨n', d', hn, hthere, hoctet⟩
      cases content with
      | nil =>
          have hlen := congrArg List.length hcontent
          simp only [List.length_cons, List.length_append, List.length_nil] at hlen
          omega
      | cons first content =>
          rw [List.cons_append, List.cons.injEq] at hcontent
          have hlen := congrArg List.length hcontent.2
          simp only [List.length_cons, List.length_append, List.length_nil] at hlen
          rw [List.append_cons] at hfcs hsome hmost ⊢
          cases fuel with
          | zero => exact absurd hfuel (Nat.not_lt_zero _)
          | succ fuel =>
              cases rest with
              | nil => exact absurd hrest (Nat.not_succ_le_zero _)
              | cons old rest =>
                  have hafter := ih (before ++ [first]) rest fuel hthere
                    hcontent.2 hfcs (Nat.lt_of_succ_lt_succ hfuel)
                    (Nat.le_of_succ_le_succ hrest) hsome hmost
                  have hlength : (before ++ [first]).length = before.length + 1 := by
                    rw [List.length_append, List.length_singleton]
                  rw [hlength] at hafter
                  rw [List.length_append, hlength] at hmost
                  rw [Q922Frame.decodeLoop, if_pos (ofNat_octetIndex_lt (by omega) hlast), hoctet]
                  simp only
                  rw [if_neg (by omega), List.set_append_right _ _ (Nat.le_refl _), Nat.sub_self,
                    List.set_cons_zero, List.append_cons, hcontent.1]
                  exact hafter

end Loop

section Search

variable {m : Memory} {size : Nat}

/-- The bits that the search for a flag takes to find the end of the first one. -/
def firstFlagBits : Nat → List Bool → Option Nat
  | _, [] => none
  | positionsCorrect, bit :: bits =>
    if positionsCorrect = 0 then
      (firstFlagBits (if bit then 0 else 1) bits).map (· + 1)
    else if positionsCorrect = 7 then
      if bit then none else some 1
    else
      (firstFlagBits (if bit then positionsCorrect + 1 else 1) bits).map (· + 1)

theorem firstFlagEnd_reads {bits : List Bool} {fuel positionsCorrect n k : Nat}
    (h : Reads m n bits) (hfound : firstFlagBits positionsCorrect bits = some k)
    (hfuel : bits.length ≤ fuel) (hsize : n + bits.length ≤ 8 * size) :
    firstFlagEnd m size fuel positionsCorrect (.ofNat n) = some (.ofNat (n + k)) := by
  induction bits generalizing fuel positionsCorrect n k with
  | nil => cases hfound
  | cons bit bits ih =>
      rw [List.length_cons] at hsize
      -- What comes behind this bit is found one bit later.
      have hlater : ∀ {fuel' positionsCorrect' : Nat}, bits.length ≤ fuel' →
          (firstFlagBits positionsCorrect' bits).map (· + 1) = some k →
          firstFlagEnd m size fuel' positionsCorrect' (.ofNat (n + 1)) =
            some (.ofNat (n + k)) := by
        intro fuel' positionsCorrect' hle hthere
        rcases Option.map_eq_some_iff.mp hthere with ⟨k', hk', rfl⟩
        rw [ih h.2 hk' hle (by omega), Nat.add_assoc, Nat.add_comm 1]
      cases fuel with
      | zero => exact absurd hfuel (Nat.not_succ_le_zero _)
      | succ fuel =>
          rw [firstFlagEnd, if_pos (ofNat_octetIndex_lt (Nat.le_refl n) (by omega)),
            decodeBit_ofNat, h.1]
          rw [firstFlagBits] at hfound
          have hle := Nat.le_of_succ_le_succ hfuel
          by_cases hnone : positionsCorrect = 0
          · rw [if_pos hnone] at hfound ⊢
            exact hlater hle hfound
          · rw [if_neg hnone] at hfound ⊢
            by_cases hseven : positionsCorrect = 7
            · rw [if_pos hseven] at hfound ⊢
              cases bit with
              | false => rw [← Option.some.inj hfound]; rfl
              | true => cases hfound
            · rw [if_neg hseven] at hfound ⊢
              exact hlater hle hfound

/-- The end of the first flag is found behind the end of the flag before it. -/
theorem firstFlagBits_opening (bitIndex : Fin 8) :
    firstFlagBits 0 (flagBits.drop (bitIndex + 1) ++ flagBits) = some (15 - (bitIndex : Nat)) := by
  revert bitIndex
  decide

theorem matchFlag_flag {n : Nat} (h : Reads m n flagBits) :
    matchFlag m 8 0 (.ofNat n) = .flag (.ofNat (n + 8)) := by
  rcases h with ⟨h0, h1, h2, h3, h4, h5, h6, h7, -⟩
  simp only [matchFlag, decodeBit_ofNat, h0, h1, h2, h3, h4, h5, h6, h7]
  rfl

/-- What is taken for a flag, or for an aborted line, has all the ones. -/
theorem ones_of_matchFlag {left positionsCorrect n : Nat} (hleft : left + positionsCorrect = 8)
    (hpos : 0 < positionsCorrect)
    (h : matchFlag m left positionsCorrect (.ofNat n) ≠ .other) (i : Nat)
    (hi : positionsCorrect + i ≤ 6) : bitAt m (n + i) = true := by
  induction left generalizing positionsCorrect n i with
  | zero => omega
  | succ left ih =>
      rw [matchFlag, decodeBit_ofNat, if_neg (by omega), if_neg (by omega)] at h
      cases hbit : bitAt m n with
      | false =>
          rw [hbit] at h
          exact absurd rfl h
      | true =>
          rw [hbit, if_pos rfl] at h
          cases i with
          | zero => exact hbit
          | succ i =>
              have hlater := ih (by omega) (by omega) h i (by omega)
              rwa [Nat.add_assoc, Nat.add_comm 1] at hlater

/-- Data is not taken for a flag. -/
theorem matchFlag_delivers {last n : Nat} {bits : List Bool} (h : Delivers m last n 0 bits)
    (hlen : 6 < bits.length) : matchFlag m 8 0 (.ofNat n) = .other := by
  by_contra hflag
  rw [matchFlag, decodeBit_ofNat, if_pos rfl] at hflag
  cases h with
  | one hbit _ _ =>
      rw [hbit] at hflag
      exact hflag rfl
  | zero hbit _ hrest =>
      rw [hbit] at hflag
      have hsix := hrest.six_ones (Nat.zero_le 5) fun i hi =>
        ones_of_matchFlag (by decide) (by decide) hflag i (by omega)
      rw [List.length_cons] at hlen
      omega

/-- The first octet that is no flag is found. -/
theorem findFlagEnd_opening {last : Nat} {bits : List Bool} (bitIndex : Fin 8)
    (hopen : Reads m 0 (opening bitIndex))
    (hdata : Delivers m last (opening bitIndex).length 0 bits) (hlen : 6 < bits.length)
    (hsize : last < 8 * size) :
    findFlagEnd m size ⟨0, 7⟩ = some (.ofNat (opening bitIndex).length) := by
  have hle := hdata.le_last
  have hlength := length_opening bitIndex
  have hfirst := length_flagEnd bitIndex
  have hparts := reads_append.mp hopen
  have hflags := reads_append.mp hparts.2
  have hfound : firstFlagEnd m size (8 * size) 0 (.ofNat 0) =
      some (.ofNat (0 + (15 - (bitIndex : Nat)))) :=
    firstFlagEnd_reads hparts.1 (firstFlagBits_opening bitIndex) (by omega) (by omega)
  rw [hfirst, show flagBits.length = 8 from rfl] at hflags
  have hsecond := matchFlag_flag hflags.1
  have hthird := matchFlag_flag hflags.2
  have hother := matchFlag_delivers hdata hlen
  rw [show 0 + (15 - (bitIndex : Nat)) + 8 + 8 = (opening bitIndex).length by omega] at hthird
  obtain ⟨fuel, hfuel⟩ : ∃ fuel, 8 * size = fuel + 3 := ⟨8 * size - 3, by omega⟩
  rw [findFlagEnd, show (⟨0, 7⟩ : BitPosition) = .ofNat 0 from rfl, hfound, Option.bind_some,
    hfuel]
  rw [skipFlags, if_pos (ofNat_octetIndex_lt (by omega) hsize), hsecond]
  simp only
  rw [skipFlags, if_pos (ofNat_octetIndex_lt (by omega) hsize), hthird]
  simp only
  rw [skipFlags, if_pos (ofNat_octetIndex_lt (by omega) hsize), hother]

end Search

section RoundTrip

theorem bits_octets (x : BitVec 16) :
    (((x >>> 8).setWidth 8).setWidth 16 <<< 8) ||| (x.setWidth 8).setWidth 16 = x := by
  apply BitVec.eq_of_getLsbD_eq
  intro i hi
  simp only [BitVec.getLsbD_or, BitVec.getLsbD_shiftLeft, BitVec.getLsbD_setWidth,
    BitVec.getLsbD_ushiftRight, decide_eq_true hi, Bool.true_and]
  by_cases hlow : i < 8
  · rw [decide_eq_true hlow, Bool.not_true, Bool.false_and, Bool.false_or, Bool.true_and]
  · rw [decide_eq_false hlow, decide_eq_true (show i - 8 < 16 by omega),
      decide_eq_true (show i - 8 < 8 by omega), show 8 + (i - 8) = i by omega]
    simp only [Bool.not_false, Bool.true_and, Bool.false_and, Bool.or_false]

/-- The checksum is read as it was sent. -/
theorem octets_fcs (fcs : UInt16) :
    ((fcs >>> 8).toUInt8.toUInt16 <<< 8) ||| fcs.toUInt8.toUInt16 = fcs :=
  UInt16.toBitVec_inj.mp (bits_octets fcs.toBitVec)

namespace Q922Frame

variable {m : Memory} {last size n : Nat} {bits : List Bool}

/-- The size of what is read is the size of what is heard. -/
theorem decodeFrom_size {theArray : Octets} {h : Q922Frame} (hbits : Delivers m last n 0 bits)
    (hlen : 16 ≤ bits.length) (hdecode : decodeFrom m size theArray (.ofNat n) = some h) :
    8 * (h.informationFieldSize + q922HeaderSize + 2) + 6 = bits.length := by
  rcases decodeBits_delivers hbits 8 0 0 (by omega) with ⟨n', d', _, hrest, hfirst⟩
  rcases decodeBits_delivers hrest 8 0 0 (by rw [List.length_drop]; omega)
    with ⟨n'', d'', _, hthere, hsecond⟩
  rw [decodeFrom, decodeOctet, hfirst] at hdecode
  simp only at hdecode
  rw [decodeOctet, hsecond] at hdecode
  split at hdecode
  · split at hdecode
    · have hloop := decodeLoop_size hthere hdecode
      rw [List.length_drop, List.length_drop] at hloop
      omega
    · cases hdecode
  · cases hdecode

/-- Octets with the right checksum are read. -/
theorem decodeFrom_octets {theArray content : Octets} {lo hi : UInt8} (hlast : last < 8 * size)
    (h : Delivers m last n 0 (sentBits (content ++ [lo, hi]) ++ false :: List.replicate 5 true))
    (hfcs : (hi.toUInt16 <<< 8) ||| lo.toUInt16 = calculateFcs content)
    (harray : size ≤ theArray.length) (hsome : q922HeaderSize < content.length)
    (hmost : content.length < 260 + q922HeaderSize) :
    ∃ behind, decodeFrom m size theArray (.ofNat n) =
      some (setInformationFieldSize (content ++ behind) (content.length - q922HeaderSize)) := by
  have hle := h.le_last
  rw [List.length_append, length_sentBits, List.length_append] at hle
  obtain ⟨firstOctet, secondOctet, octets, hsent⟩ :
      ∃ firstOctet secondOctet octets, content ++ [lo, hi] = firstOctet :: secondOctet :: octets := by
    cases content with
    | nil => exact ⟨_, _, _, rfl⟩
    | cons first content =>
        cases content with
        | nil => exact ⟨_, _, _, rfl⟩
        | cons second content => exact ⟨_, _, _, rfl⟩
  have hlen := congrArg List.length hsent
  simp only [List.length_append, List.length_cons, List.length_nil] at hlen hle
  rw [hsent, sentBits, List.flatMap_cons, List.flatMap_cons, List.append_assoc,
    List.append_assoc] at h
  rcases decodeOctet_lowFirst h with ⟨n', d', _, hrest, hfirst⟩
  rcases decodeOctet_lowFirst hrest with ⟨n'', d'', _, hthere, hsecond⟩
  have hrestle := hrest.le_last
  have hloop := decodeLoop_octets octets [] theArray size hlast
    hthere hsent.symm hfcs (by omega) (by omega) hsome hmost
  rcases hloop with ⟨behind, hloop⟩
  refine ⟨behind, ?_⟩
  rw [decodeFrom, if_pos (ofNat_octetIndex_lt (by omega) hlast), hfirst]
  simp only
  rw [if_pos (ofNat_octetIndex_lt (by omega) hlast), hsecond]
  exact hloop

/-- The fields of a frame that was put together from its data. -/
theorem setInformationFieldSize_fields (data behind : Octets) (size : Nat)
    (h : data.length = q922HeaderSize + size) :
    (setInformationFieldSize (data ++ behind) size).header = data.take q922HeaderSize ∧
      (setInformationFieldSize (data ++ behind) size).informationField =
        data.drop q922HeaderSize := by
  refine ⟨?_, ?_⟩
  · show (data ++ behind ++ List.replicate _ 0).take q922HeaderSize = _
    rw [List.append_assoc, List.take_append_of_le_length (by omega)]
  · show ((data ++ behind ++ List.replicate _ 0).drop q922HeaderSize).take size = _
    rw [List.append_assoc, List.drop_append_of_le_length (by omega),
      List.take_left' (by rw [List.length_drop]; omega)]

variable (f g : Q922Frame)

theorem header_eq_data : f.header = f.data.take q922HeaderSize := by
  rw [header, data, List.take_take, Nat.min_eq_left (Nat.le_add_right _ _)]

theorem informationField_eq_data : f.informationField = f.data.drop q922HeaderSize := by
  rw [informationField, data, Lib.slice, List.drop_take, Nat.add_sub_cancel_left]

theorem length_informationField : f.informationField.length = f.informationFieldSize := by
  rw [informationField_eq_data, List.length_drop, length_data, Nat.add_sub_cancel_left]

/-- What `encodeHdlc` writes is read by `decodeHdlc` as a frame with the same
header and information field, whatever is behind it. -/
def RoundTrips (buffer dummy : Memory) (bitIndex : Fin 8) : Prop :=
  ∃ m size last, f.encodeHdlc buffer dummy bitIndex = some (m, size, last) ∧
    ∀ octets : Memory, (∀ k < size, octets k = m k) →
      ∃ h, g.decodeHdlc octets size = some h ∧ h.header = f.header ∧
        h.informationField = f.informationField

theorem length_sentOctets : f.sentOctets.length = f.informationFieldSize + q922HeaderSize + 2 := by
  rw [sentOctets, List.length_append, length_data, Nat.add_comm q922HeaderSize]
  rfl

/-- The line is heard from the end of the opening flags on. -/
theorem decodeHdlc_line {octets : Memory} {bitIndex : Fin 8} (size : Nat)
    (hreads : Reads octets 0 (opening bitIndex ++ (stuff 0 (sentBits f.sentOctets) ++ flagBits)))
    (hsize : (opening bitIndex).length + (stuff 0 (sentBits f.sentOctets)).length + 8 ≤ 8 * size) :
    ∃ last n theArray, last < 8 * size ∧ size ≤ theArray.length ∧
      Delivers octets last n 0
        (heard 0 (sentBits f.sentOctets) ++ false :: List.replicate 5 true) ∧
      g.decodeHdlc octets size = decodeFrom octets size theArray (.ofNat n) := by
  have hparts := reads_append.mp hreads
  rw [Nat.zero_add] at hparts
  have hbits := delivers_ahead (sentBits f.sentOctets) 0 _ (Nat.zero_le 9) rfl hparts.2
  have hlast : (opening bitIndex).length + (ahead 0 (sentBits f.sentOctets)).length + 6 <
      8 * size := by
    rw [show ahead 0 (sentBits f.sentOctets) = stuff 0 (sentBits f.sentOctets) from rfl]
    omega
  have hthree : q922HeaderSize = 3 := rfl
  have hle := hbits.le_last
  have hheard := length_le_heard (sentBits f.sentOctets) 0
  have hopening := length_opening bitIndex
  rw [length_sentBits, length_sentOctets] at hheard
  have hmore : (heard 0 (sentBits f.sentOctets) ++ false :: List.replicate 5 true).length =
      (heard 0 (sentBits f.sentOctets)).length + 6 := by
    rw [List.length_append]
    rfl
  refine ⟨_, _, g.theArray ++ List.replicate (size - g.theArray.length) 0, hlast, ?_, hbits, ?_⟩
  · rw [List.length_append, List.length_replicate]
    omega
  · rw [decodeHdlc, if_neg (by omega),
      findFlagEnd_opening bitIndex hparts.1 hbits (by omega) hlast, Option.bind_some]

/-- A frame comes back if and only if nothing is heard that was not sent. -/
theorem roundTrips_iff_heard (hsome : 1 ≤ f.informationFieldSize)
    (hmost : f.informationFieldSize ≤ 259) (buffer dummy : Memory) (bitIndex : Fin 8) :
    RoundTrips f g buffer dummy bitIndex ↔
      (heard 0 (sentBits f.sentOctets)).length = (sentBits f.sentOctets).length := by
  rcases f.encodeHdlc_eq (by omega) buffer dummy bitIndex with ⟨m, size, last, hencode, hwritten,
    hin, hout⟩
  have hclosing : (flagBits ++ flagBits ++ flagBits).length = 24 := rfl
  have hline : f.line bitIndex = opening bitIndex ++
      (stuff 0 (sentBits f.sentOctets) ++ flagBits) ++ (flagBits ++ flagBits) := by
    simp only [line, List.append_assoc]
  have hlength : (f.line bitIndex).length =
      (opening bitIndex).length + (stuff 0 (sentBits f.sentOctets)).length + 24 := by
    rw [line, List.length_append, List.length_append, hclosing]
  -- What is behind the size is the last flag at most.
  have hreads : ∀ octets : Memory, (∀ k < size, octets k = m k) →
      Reads octets 0 (opening bitIndex ++ (stuff 0 (sentBits f.sentOctets) ++ flagBits)) := by
    intro octets hsame
    refine reads_of_getD ?_
    intro i hi
    rw [List.length_append, List.length_append, show flagBits.length = 8 from rfl] at hi
    have hbit := hwritten i (by omega)
    rw [hline, List.getD_append _ _ _ _ (by
      rw [List.length_append, List.length_append, show flagBits.length = 8 from rfl]
      exact hi)] at hbit
    rw [Nat.zero_add, ← hbit, bitAt, bitAt, hsame _ (by omega)]
  constructor
  · rintro ⟨m', size', last', hencode', hback⟩
    rw [hencode] at hencode'
    cases hencode'
    rcases hback m (fun _ _ => rfl) with ⟨h, hdecode, -, hfield⟩
    rcases decodeHdlc_line f g size (hreads m (fun _ _ => rfl)) (by omega) with
      ⟨_, _, theArray, _, _, hbits, hfrom⟩
    have hle := length_le_heard (sentBits f.sentOctets) 0
    have hsent := length_sentBits f.sentOctets
    rw [length_sentOctets] at hsent
    rw [hfrom] at hdecode
    have hsize := decodeFrom_size hbits (by rw [List.length_append]; omega) hdecode
    rw [List.length_append, ← h.length_informationField, hfield, length_informationField,
      List.length_cons, List.length_replicate] at hsize
    omega
  · intro hsame
    have heq := heard_of_length _ _ hsame
    refine ⟨m, size, last, hencode, ?_⟩
    intro octets hoctets
    rcases decodeHdlc_line f g size (hreads octets hoctets) (by omega) with
      ⟨_, _, theArray, hlast, harray, hbits, hfrom⟩
    rw [heq] at hbits
    have hdata := f.length_data
    have hthree : q922HeaderSize = 3 := rfl
    rcases decodeFrom_octets hlast hbits (octets_fcs _) harray (by omega) (by omega) with
      ⟨behind, hdecode⟩
    have hfields := setInformationFieldSize_fields f.data behind
      (f.data.length - q922HeaderSize) (by omega)
    refine ⟨_, by rw [hfrom, hdecode], ?_, ?_⟩
    · rw [hfields.1, header_eq_data]
    · rw [hfields.2, informationField_eq_data]

/-- A frame comes back if and only if there are nowhere ten ones in a row. -/
theorem decodeHdlc_roundTrips_iff (hsome : 1 ≤ f.informationFieldSize)
    (hmost : f.informationFieldSize ≤ 259) (buffer dummy : Memory) (bitIndex : Fin 8) :
    RoundTrips f g buffer dummy bitIndex ↔
      ¬ List.replicate 10 true <:+: sentBits f.sentOctets := by
  have hheard := heard_eq_iff (sentBits f.sentOctets) (Nat.zero_le 9)
  rw [List.replicate_zero, List.nil_append] at hheard
  rw [roundTrips_iff_heard f g hsome hmost, hheard]

/-- A text comes back. -/
theorem decodeHdlc_roundTrips_text : RoundTrips ⟨[0, 6, 0x13, 0x4f, 0x4b], 2, by decide⟩
    ⟨[0, 0, 0], 0, by decide⟩ (fun _ => 0xff) (fun _ => 0xff) 3 :=
  (decodeHdlc_roundTrips_iff _ _ (by decide) (by decide) _ _ _).mpr (by decide +kernel)

/-- Two octets of ones do not come back. -/
theorem not_roundTrips_ones : ¬ RoundTrips ⟨[0, 6, 0x13, 0xff, 0xff], 2, by decide⟩
    ⟨[0, 0, 0], 0, by decide⟩ (fun _ => 0) (fun _ => 0) 7 := by
  rw [roundTrips_iff_heard _ _ (by decide) (by decide)]
  decide +kernel

end Q922Frame

end RoundTrip

end H224

end CryptoOpal

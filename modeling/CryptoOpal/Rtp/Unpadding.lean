import CryptoOpal.Rtp.AudioPadding

/-!
# Padding That the Sender Did Not Add

The receiver takes the last octet of a decrypted packet for the length of the padding,
whatever it is, and goes backwards over as many octets less one. Nothing in
`check_Dec_pad` knows where the payload begins, or that there are at most sixteen octets
of padding.

So the removal stays inside the payload if the padding does, or if an octet that is not
zero stops it there (`UnpadsInside`). An empty payload never goes well: the octet that is
taken for the length of the padding is the last one of the header.

## Main definitions

* `decPadRead`: How many octets `check_Dec_pad` looks at.
* `UnpadSafe`: The removal is safe.
* `UnpadsInside`: The condition on the payload.

## Theorems

* `zerosBackRead_le_iff`: When the loop stays in the first part of what it goes over.
* `unpadding_safe_iff`: When the removal is safe.
-/

namespace CryptoOpal

namespace Rtp

open Lib (Octets)
open Srtp (SrtpErrStatus Stop orStop)

/-- How many octets the loop of `check_Dec_pad` reads. -/
def zerosBackRead : Nat → Octets → Nat
  | 0, _ => 0
  | _ + 1, [] => 1
  | k + 1, b :: bs => if b ≠ 0 then 1 else 1 + zerosBackRead k bs

/-- How many octets `check_Dec_pad` reads, which are the last ones of the packet. -/
def decPadRead (packet : Octets) : Nat :=
  match packet.reverse with
  | [] => 1
  | last :: before => 1 + zerosBackRead (last.toNat - 1) before

/-- In the receive path with this decrypted packet, the removal of padding reads octets
of the payload only, strips at most sixteen, and leaves a payload size. -/
structure UnpadSafe (unprotect : Octets → Except SrtpErrStatus Octets) (frame : DataFrame)
    (packet : Octets) : Prop where
  reads : frame.headerSize + decPadRead packet ≤ packet.length
  strips : ∃ received, onReceiveData unprotect frame = .ok received ∧
    (packet.length : Int) - frame.headerSize - 16 ≤ received.payloadSize ∧
      0 ≤ received.payloadSize

/-- The padding that the last octet of the payload announces is at most sixteen octets of
it, or one of them is not zero. -/
def UnpadsInside (payload : Octets) : Prop :=
  match payload.reverse with
  | [] => False
  | last :: before =>
    last.toNat ≤ 16 ∧ last.toNat ≤ payload.length ∨
      (before.take (last.toNat - 1)).any (· ≠ 0) = true

/-- The loop stays in the first part of what it goes over if that is long enough, or has
an octet that stops it. -/
theorem zerosBackRead_le_iff (k : Nat) (l l' : Octets) :
    zerosBackRead k (l ++ l') ≤ l.length ↔ k ≤ l.length ∨ (l.take k).any (· ≠ 0) = true := by
  induction l generalizing k with
  | nil =>
      rw [List.nil_append, List.take_nil, List.any_nil, List.length_nil]
      cases k with
      | zero => exact iff_of_true (Nat.le_refl 0) (.inl (Nat.le_refl 0))
      | succ k =>
          refine iff_of_false ?_ (fun h => h.elim (Nat.not_succ_le_zero k) Bool.noConfusion)
          cases l' with
          | nil => exact Nat.not_succ_le_zero 0
          | cons b bs =>
              rw [zerosBackRead]
              by_cases hb : b ≠ 0
              · rw [if_pos hb]
                exact Nat.not_succ_le_zero 0
              · rw [if_neg hb]
                omega
  | cons b l ih =>
      cases k with
      | zero => exact iff_of_true (Nat.zero_le _) (.inl (Nat.zero_le _))
      | succ k =>
          rw [List.cons_append, zerosBackRead, List.take_succ_cons, List.any_cons, List.length_cons]
          by_cases hb : b ≠ 0
          · rw [if_pos hb, decide_eq_true hb, Bool.true_or]
            exact iff_of_true (by omega) (.inr rfl)
          · rw [if_neg hb, decide_eq_false hb, Bool.false_or, Nat.add_le_add_iff_right,
              Nat.add_comm 1, Nat.add_le_add_iff_right]
            exact ih k

/-- What is stripped: nothing when an octet stops the loop, and else what the last octet
says. -/
theorem checkDecPad_append (header before : Octets) (last : UInt8) :
    checkDecPad (header ++ (last :: before).reverse) =
      (zerosBack (last.toNat - 1) (before ++ header.reverse)).map fun padded =>
        if padded then last.toNat else 0 := by
  rw [checkDecPad, List.reverse_append, List.reverse_reverse, List.cons_append]

/-- The loop runs through octets that are zero. -/
theorem zerosBack_zeros {k : Nat} {l l' : Octets} (hk : k ≤ l.length)
    (hzero : (l.take k).any (· ≠ 0) = false) : zerosBack k (l ++ l') = .ok true := by
  induction l generalizing k with
  | nil =>
      obtain rfl : k = 0 := Nat.le_zero.mp hk
      cases l' <;> rfl
  | cons b l ih =>
      cases k with
      | zero => rfl
      | succ k =>
          rw [List.take_succ_cons, List.any_cons, Bool.or_eq_false_iff] at hzero
          have hb : ¬ b ≠ 0 := of_decide_eq_false hzero.1
          rw [List.cons_append, zerosBack, if_neg hb]
          exact ih (by simpa only [List.length_cons, Nat.add_le_add_iff_right] using hk) hzero.2

theorem zerosBack_stopped {k : Nat} {l l' : Octets} (h : (l.take k).any (· ≠ 0) = true) :
    zerosBack k (l ++ l') = .ok false := by
  rw [zerosBack_eq_false]
  rw [List.take_append, List.any_append, h, Bool.true_or]

/-- The removal of padding in the receive path is safe exactly if the padding that the
payload announces is inside it, and at most a block, or an octet of it is not zero. -/
theorem unpadding_safe_iff (unprotect : Octets → Except SrtpErrStatus Octets) (frame : DataFrame)
    (header payload : Octets) (hun : unprotect frame.packet = .ok (header ++ payload))
    (hheader : header.length = frame.headerSize) :
    UnpadSafe unprotect frame (header ++ payload) ↔ UnpadsInside payload := by
  obtain ⟨backwards, rfl⟩ : ∃ backwards : Octets, payload = backwards.reverse :=
    ⟨payload.reverse, payload.reverse_reverse.symm⟩
  rw [UnpadsInside, List.reverse_reverse]
  cases backwards with
  | nil =>
      -- The octet that says how much to strip is not in the payload.
      refine iff_of_false (fun h => ?_) id
      have hreads := h.reads
      have hone : 1 ≤ decPadRead (header ++ ([] : Octets).reverse) := by
        rw [decPadRead]
        cases (header ++ ([] : Octets).reverse).reverse with
        | nil => exact Nat.le_refl 1
        | cons last before => exact Nat.le_add_right _ _
      rw [List.length_append, List.reverse_nil, List.length_nil] at hreads
      rw [List.reverse_nil] at hone
      omega
  | cons last before =>
      have hlen : (header ++ (last :: before).reverse).length =
          frame.headerSize + (before.length + 1) := by
        rw [List.length_append, List.length_reverse, List.length_cons, hheader]
      have hread : decPadRead (header ++ (last :: before).reverse) =
          1 + zerosBackRead (last.toNat - 1) (before ++ header.reverse) := by
        rw [decPadRead, List.reverse_append, List.reverse_reverse, List.cons_append]
      have hinside : frame.headerSize + decPadRead (header ++ (last :: before).reverse) ≤
          (header ++ (last :: before).reverse).length ↔
            last.toNat - 1 ≤ before.length ∨
              (before.take (last.toNat - 1)).any (· ≠ 0) = true := by
        rw [hread, hlen, ← zerosBackRead_le_iff _ before header.reverse]
        omega
      have hreceive : ∀ stripped, checkDecPad (header ++ (last :: before).reverse) = .ok stripped →
          ∃ received, onReceiveData unprotect frame = .ok received ∧
            received.payloadSize = (before.length : Int) + 1 - stripped := by
        intro stripped hcheck
        refine ⟨(frame.withPacket (header ++ (last :: before).reverse)).setPayloadSize
          ((header ++ (last :: before).reverse).length - stripped - frame.headerSize), ?_, ?_⟩
        · rw [onReceiveData, hun]
          show (checkDecPad _ >>= _) = _
          rw [hcheck]
          rfl
        · show ((header ++ (last :: before).reverse).length : Int) - stripped - frame.headerSize = _
          rw [hlen]
          omega
      rw [List.length_reverse, List.length_cons]
      by_cases hstop : (before.take (last.toNat - 1)).any (· ≠ 0) = true
      · -- The loop is stopped, and nothing is stripped.
        refine iff_of_true ⟨hinside.mpr (.inr hstop), ?_⟩ (.inr hstop)
        obtain ⟨received, hok, hsize⟩ := hreceive 0 (by
          rw [checkDecPad_append, zerosBack_stopped hstop]
          rfl)
        exact ⟨received, hok, by omega, by omega⟩
      · by_cases hin : last.toNat - 1 ≤ before.length
        · obtain ⟨received, hok, hsize⟩ := hreceive last.toNat (by
            rw [checkDecPad_append, zerosBack_zeros hin (Bool.eq_false_iff.mpr hstop)]
            rfl)
          constructor
          · intro h
            obtain ⟨received', hok', hsixteen, hnonneg⟩ := h.strips
            rw [hok] at hok'
            cases hok'
            exact .inl (by omega)
          · rintro (⟨hsixteen, hpayload⟩ | hnot)
            · exact ⟨hinside.mpr (.inl hin), received, hok, by omega, by omega⟩
            · exact absurd hnot hstop
        · refine iff_of_false (fun h => ?_) ?_
          · rcases hinside.mp h.reads with hle | hnot
            · exact hin hle
            · exact hstop hnot
          · rintro (⟨-, hpayload⟩ | hnot)
            · omega
            · exact hstop hnot

section Samples

/-- A frame with one octet of payload, behind a header that ends with zeros. -/
def sampleShort (last : UInt8) : DataFrame :=
  { theArray := [0x80, 0, 0, 1, 0, 0, 0, 1, 0, 0, 0, 0] ++ [last]
    headerSize := 12
    payloadSize := 1
    paddingSize := 0 }

theorem unpadding_safe_short :
    UnpadSafe Except.ok (sampleShort 1) (sampleShort 1).packet ↔ UnpadsInside [1] :=
  unpadding_safe_iff Except.ok (sampleShort 1) [0x80, 0, 0, 1, 0, 0, 0, 1, 0, 0, 0, 0] [1] rfl rfl

/-- A payload of one octet that says five: the rest of the padding is taken from the
header, and the payload size becomes negative. -/
theorem not_unpadSafe_short :
    ¬ UnpadSafe Except.ok (sampleShort 5) (sampleShort 5).packet ∧
      (onReceiveData Except.ok (sampleShort 5)).map DataFrame.payloadSize = .ok (-4) := by
  refine ⟨fun h => ?_, by decide +kernel⟩
  have hreads := h.reads
  revert hreads
  decide +kernel

end Samples

end Rtp

end CryptoOpal

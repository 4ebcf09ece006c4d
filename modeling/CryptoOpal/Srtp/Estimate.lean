import CryptoOpal.Srtp.Session

/-!
# The Index of a Packet on a Stream

How the packet functions find the index of a packet. Usually it is the
database's own guess. When the application has set a rollover counter and no
packet has used it yet, the counter is taken as given, and the index may then
lie far away from the stored one: too old, which refuses the packet, or far
ahead, which tells the caller to move the database there without a check.

Either way the packet's index is new to the database and known to it
afterwards. `remembers_record` and its companion `fresh_of_admits` say so for
any set of indices the database remembers, and they are all that the
statements about whole sessions use of the database. They need the index to
stay within its 48 bits (`Stream.InRange`): past that the guess starts over
at zero.

## Main definitions

* `srtpEstimateIndex`, `Stream.getEstPktIndex`: The estimate.
* `Stream.InRange`: The estimate does not pass 48 bits.
* `Stream.Admits`: The database takes the packet's index for a new one.

## Theorems

* `Stream.est_low`: The estimate ends with the sequence number.
* `Stream.est_eq`: The estimate and its distance agree.
* `Stream.fresh_of_admits`: The index of an admitted packet is new.
* `Stream.remembers_record`: Afterwards the database remembers it.
-/

namespace CryptoOpal

namespace Srtp

/-- `srtp_estimate_index`: the index under a rollover counter that is given.
    The distance is cast to `int`, which changes it only where it is then set
    to zero. -/
def srtpEstimateIndex (rdbx : Rdbx) (roc : UInt32) (seq : UInt16) : SrtpErrStatus × Nat × Int :=
  let est := roc.toNat * 2 ^ 16 + seq.toNat
  if est > rdbx.index then
    if est - rdbx.index > seqNumMedian then (.pktIdxAdv, est, 0)
    else (.ok, est, (est : Int) - rdbx.index)
  else if est < rdbx.index then
    if rdbx.index - est > seqNumMedian then (.pktIdxOld, est, 0)
    else (.ok, est, (est : Int) - rdbx.index)
  else (.ok, est, (est : Int) - rdbx.index)

variable {C A : Type}

namespace Stream

/-- `srtp_get_est_pkt_index`. -/
def getEstPktIndex (str : Stream C A) (seq : UInt16) : SrtpErrStatus × Nat × Int :=
  if str.pendingRoc ≠ 0 then srtpEstimateIndex str.rtpRdbx str.pendingRoc seq
  else (.ok, str.rtpRdbx.estimateIndex seq)

/-- The stored index plus the packet's distance is still a 48-bit index. -/
def InRange (str : Stream C A) (seq : UInt16) : Prop :=
  str.rtpRdbx.index + (str.getEstPktIndex seq).2.2 < 2 ^ 48

instance (str : Stream C A) (seq : UInt16) : Decidable (str.InRange seq) :=
  inferInstanceAs (Decidable (_ < _))

/-- The database takes the packet for a new one: it is far ahead, or the check
    on its distance passes. -/
inductive Admits (str : Stream C A) (seq : UInt16) : Bool → Nat → Int → Prop where
  | ahead (est : Nat) (delta : Int) (h : str.getEstPktIndex seq = (.pktIdxAdv, est, delta)) :
      Admits str seq true est delta
  | checked (est : Nat) (delta : Int) (h : str.getEstPktIndex seq = (.ok, est, delta))
      (hcheck : str.rtpRdbx.check delta = .ok ()) : Admits str seq false est delta

/-- What the estimate under a given rollover counter can be. -/
theorem srtpEstimateIndex_cases (rdbx : Rdbx) (roc : UInt32) (seq : UInt16) :
    (∃ est, srtpEstimateIndex rdbx roc seq = (.pktIdxAdv, est, 0) ∧ est < 2 ^ 48 ∧
        rdbx.index + 0x8000 < est) ∨
      (∃ est, srtpEstimateIndex rdbx roc seq = (.pktIdxOld, est, 0)) ∨
      ∃ est delta, srtpEstimateIndex rdbx roc seq = (.ok, est, delta) ∧ est < 2 ^ 48 ∧
        (est : Int) = rdbx.index + delta ∧ delta < 2 ^ 16 := by
  have hroc := roc.toNat_lt
  have hseq := seq.toNat_lt
  have hmedian : seqNumMedian = 0x8000 := rfl
  rw [srtpEstimateIndex]
  by_cases hgt : roc.toNat * 2 ^ 16 + seq.toNat > rdbx.index
  · simp only [if_pos hgt]
    by_cases hfar : roc.toNat * 2 ^ 16 + seq.toNat - rdbx.index > seqNumMedian
    · rw [if_pos hfar]
      exact Or.inl ⟨_, rfl, by omega, by omega⟩
    · rw [if_neg hfar]
      exact Or.inr (Or.inr ⟨_, _, rfl, by omega, by omega, by omega⟩)
  simp only [if_neg hgt]
  by_cases hlt : roc.toNat * 2 ^ 16 + seq.toNat < rdbx.index
  · rw [if_pos hlt]
    by_cases hfar : rdbx.index - (roc.toNat * 2 ^ 16 + seq.toNat) > seqNumMedian
    · rw [if_pos hfar]
      exact Or.inr (Or.inl ⟨_, rfl⟩)
    · rw [if_neg hfar]
      exact Or.inr (Or.inr ⟨_, _, rfl, by omega, by omega, by omega⟩)
  · rw [if_neg hlt]
    exact Or.inr (Or.inr ⟨_, _, rfl, by omega, by omega, by omega⟩)

/-- An estimate is a 48-bit index. -/
theorem est_lt {str : Stream C A} {seq : UInt16} {status : SrtpErrStatus} {est : Nat} {delta : Int}
    (h : str.getEstPktIndex seq = (status, est, delta)) (hold : status ≠ .pktIdxOld) :
    est < 2 ^ 48 := by
  rw [getEstPktIndex] at h
  by_cases hroc : str.pendingRoc ≠ 0
  · rw [if_pos hroc] at h
    rcases srtpEstimateIndex_cases str.rtpRdbx str.pendingRoc seq with
      ⟨e, he, hlt, -⟩ | ⟨e, he⟩ | ⟨e, d, he, hlt, -, -⟩
    · rw [he] at h
      simp only [Prod.mk.injEq] at h
      omega
    · rw [he] at h
      simp only [Prod.mk.injEq] at h
      exact absurd h.1.symm hold
    · rw [he] at h
      simp only [Prod.mk.injEq] at h
      omega
  · rw [if_neg hroc] at h
    simp only [Prod.mk.injEq] at h
    have hlt := Rdbx.estimateIndex_lt str.rtpRdbx seq
    rw [h.2] at hlt
    exact hlt

/-- An estimate ends with the packet's sequence number. -/
theorem est_low (str : Stream C A) (seq : UInt16) :
    (str.getEstPktIndex seq).2.1 % 2 ^ 16 = seq.toNat := by
  have hseq := seq.toNat_lt
  rw [getEstPktIndex]
  by_cases hroc : str.pendingRoc ≠ 0
  · have hlow : (str.pendingRoc.toNat * 2 ^ 16 + seq.toNat) % 2 ^ 16 = seq.toNat := by omega
    rw [if_pos hroc]
    simp only [srtpEstimateIndex]
    split
    · split <;> exact hlow
    split
    · split <;> exact hlow
    · exact hlow
  · rw [if_neg hroc]
    exact Rdbx.estimateIndex_low str.rtpRdbx seq

/-- An estimate that is not refused is the stored index plus its distance. -/
theorem est_eq {str : Stream C A} {seq : UInt16} {est : Nat} {delta : Int}
    (h : str.getEstPktIndex seq = (.ok, est, delta)) (hrange : str.InRange seq) :
    (est : Int) = str.rtpRdbx.index + delta ∧ delta < 2 ^ 16 := by
  rw [InRange, h] at hrange
  rw [getEstPktIndex] at h
  by_cases hroc : str.pendingRoc ≠ 0
  · rw [if_pos hroc] at h
    rcases srtpEstimateIndex_cases str.rtpRdbx str.pendingRoc seq with
      ⟨e, he, -⟩ | ⟨e, he⟩ | ⟨e, d, he, -, heq, hd⟩
    · rw [he] at h
      simp only [Prod.mk.injEq, reduceCtorEq, false_and] at h
    · rw [he] at h
      simp only [Prod.mk.injEq, reduceCtorEq, false_and] at h
    · rw [he] at h
      simp only [Prod.mk.injEq, true_and] at h
      rw [← h.1, ← h.2]
      exact ⟨heq, hd⟩
  · rw [if_neg hroc] at h
    simp only [Prod.mk.injEq, true_and] at h
    have hfst : (str.rtpRdbx.estimateIndex seq).1 = est := by rw [h]
    have hsnd : (str.rtpRdbx.estimateIndex seq).2 = delta := by rw [h]
    rw [← hfst, ← hsnd]
    rw [← hsnd] at hrange
    exact ⟨Rdbx.estimateIndex_eq _ _ hrange, (Rdbx.estimateIndex_range _ _).2⟩

/-- An estimate far ahead is far ahead. -/
theorem est_ahead {str : Stream C A} {seq : UInt16} {est : Nat} {delta : Int}
    (h : str.getEstPktIndex seq = (.pktIdxAdv, est, delta)) :
    str.rtpRdbx.index + 0x8000 < est := by
  rw [getEstPktIndex] at h
  by_cases hroc : str.pendingRoc ≠ 0
  · rw [if_pos hroc] at h
    rcases srtpEstimateIndex_cases str.rtpRdbx str.pendingRoc seq with
      ⟨e, he, -, hfar⟩ | ⟨e, he⟩ | ⟨e, d, he, -⟩
    · rw [he] at h
      simp only [Prod.mk.injEq, true_and] at h
      omega
    · rw [he] at h
      simp only [Prod.mk.injEq, reduceCtorEq, false_and] at h
    · rw [he] at h
      simp only [Prod.mk.injEq, reduceCtorEq, false_and] at h
  · rw [if_neg hroc] at h
    simp only [Prod.mk.injEq, reduceCtorEq, false_and] at h

/-- Claiming a direction changes nothing the database goes by. -/
theorem Admits.claimDirection {str : Stream C A} {seq : UInt16} {advance : Bool} {est : Nat}
    {delta : Int} (h : str.Admits seq advance est delta) (dir : StreamDirection) :
    (str.claimDirection dir).Admits seq advance est delta := by
  rw [Stream.claimDirection]
  split
  · cases h with
    | ahead _ _ h => exact .ahead _ _ h
    | checked _ _ h hcheck => exact .checked _ _ h hcheck
  · exact h

theorem InRange.claimDirection {str : Stream C A} {seq : UInt16} (h : str.InRange seq)
    (dir : StreamDirection) : (str.claimDirection dir).InRange seq := by
  rw [Stream.claimDirection]
  split <;> exact h

theorem Admits.est_lt {str : Stream C A} {seq : UInt16} {advance : Bool} {est : Nat} {delta : Int}
    (h : str.Admits seq advance est delta) : est < 2 ^ 48 := by
  cases h with
  | ahead _ _ h => exact Stream.est_lt h (by decide)
  | checked _ _ h _ => exact Stream.est_lt h (by decide)

theorem Admits.est_low {str : Stream C A} {seq : UInt16} {advance : Bool} {est : Nat}
    {delta : Int} (h : str.Admits seq advance est delta) : est % 2 ^ 16 = seq.toNat := by
  have hlow := Stream.est_low str seq
  cases h with
  | ahead _ _ h => rw [h] at hlow; exact hlow
  | checked _ _ h _ => rw [h] at hlow; exact hlow

/-- The index of an admitted packet is none of those remembered. -/
theorem fresh_of_admits {str : Stream C A} {seq : UInt16} {advance : Bool} {est : Nat}
    {delta : Int} {acc : Set Nat} (hmem : str.rtpRdbx.Remembers acc) (hrange : str.InRange seq)
    (h : str.Admits seq advance est delta) : est ∉ acc := by
  cases h with
  | ahead _ _ h =>
      have hahead := est_ahead h
      exact hmem.fresh_above (by omega)
  | checked _ _ h hcheck => exact Rdbx.fresh_of_check hmem (est_eq h hrange).1 hcheck

/-- Adding an index inside the window leaves it remembered. -/
theorem remembers_addIndex {str : Stream C A} {seq : UInt16} {est : Nat} {delta : Int}
    {acc : Set Nat} (hmem : str.rtpRdbx.Remembers acc) (hrange : str.InRange seq)
    (h : str.getEstPktIndex seq = (.ok, est, delta))
    (hwin : 0 ≤ (str.rtpRdbx.bitmask.length : Int) - 1 + delta) :
    (str.addIndex delta).rtpRdbx.Remembers (insert est acc) :=
  Rdbx.remembers_addIndex hmem (est_eq h hrange).1 (est_eq h hrange).2
    (est_lt h (by decide)) hwin

/-- A jump to an index far ahead leaves it remembered, and nothing forgotten
    that could still be accepted. -/
theorem remembers_record_ahead {str : Stream C A} {seq : UInt16} {est : Nat} {delta : Int}
    {acc : Set Nat} (hmem : str.rtpRdbx.Remembers acc)
    (h : str.getEstPktIndex seq = (.pktIdxAdv, est, delta)) :
    (str.record true est delta).rtpRdbx.Remembers (insert est acc) := by
  have hahead := est_ahead h
  have hlt := est_lt h (by decide)
  have hwin := str.window_le
  have hsplit : est / 2 ^ 16 % 2 ^ 32 * 2 ^ 16 + est % 2 ^ 16 = est := by omega
  simp only [record, if_true]
  cases hset : str.rtpRdbx.setRocSeq (est / 2 ^ 16 % 2 ^ 32) (est % 2 ^ 16) with
  | error e =>
      -- The rollover counter only moves forward, so the call does not refuse.
      simp only [Rdbx.setRocSeq] at hset
      rw [if_neg (by omega)] at hset
      exact absurd hset (by simp only [reduceCtorEq, not_false_eq_true])
  | ok rdbx =>
      have hjump := Rdbx.remembers_setRocSeq hmem hset (by omega) (by omega)
      rw [hsplit] at hjump
      simp only [addIndex, withRdbx, rtpRdbx_setRocSeq hset]
      exact hjump

/-- Once an admitted packet is recorded, the database remembers its index. -/
theorem remembers_record {str : Stream C A} {seq : UInt16} {advance : Bool} {est : Nat}
    {delta : Int} {acc : Set Nat} (hmem : str.rtpRdbx.Remembers acc) (hrange : str.InRange seq)
    (h : str.Admits seq advance est delta) :
    (str.record advance est delta).rtpRdbx.Remembers (insert est acc) := by
  cases h with
  | ahead _ _ h => exact remembers_record_ahead hmem h
  | checked _ _ h hcheck =>
      exact remembers_addIndex hmem hrange h (Rdbx.window_of_check hcheck)

end Stream

end Srtp

end CryptoOpal

import CryptoOpal.Srtp.Bitvector
import CryptoOpal.Srtp.Status
import CryptoOpal.Lib.ReplayWindow
import Mathlib.Algebra.Group.Nat.Defs
import Mathlib.Algebra.Group.Int.Defs

/-!
# The SRTP Replay Database

`srtp_rdbx_t` of `crypto/replay/rdbx.c`: the highest packet index accepted so
far and a window of bits below it. A packet carries only the low 16 bits of
its index, so the first thing the database does is guess the rest
(`srtp_index_guess`, `srtp_rdbx_estimate_index`). It returns the guess
together with its signed distance from the stored index, and the later calls
work with the distance alone.

Two things about these functions carry everything built on them. The guess
and the distance agree: the guess is the stored index plus the distance, up
to the 48 bits an index has (`estimateIndex_mod`). And the window is a
replay window in the sense of `Lib.ReplayWindow`, with the two branches of
`srtp_rdbx_add_index` as two of its moves (`Rdbx.remembers_addIndex`,
`Rdbx.tracks_addIndex`).

An index is kept as a number. The code keeps it in 64 bits, so the one
addition to it is taken modulo `2 ^ 64`; the rollover counter has 32 bits,
and so has the guess for it.

## Main definitions

* `Rdbx`: The database.
* `indexGuess`, `Rdbx.estimateIndex`: The index of a packet.
* `Rdbx.check`, `Rdbx.addIndex`: The replay check and its update.
* `Rdbx.setRocSeq`: Moving the index forward.

## Theorems

* `estimateIndex_mod`: The guess is the stored index plus the distance.
* `Rdbx.check_ok_iff`: What the check looks at.
* `Rdbx.remembers_addIndex`, `Rdbx.tracks_addIndex`: Adding an index.
-/

namespace CryptoOpal

namespace Srtp

/-- `seq_num_median`. -/
def seqNumMedian : Nat := 0x8000

/-- `seq_num_max`. -/
def seqNumMax : Nat := 0x10000

/-- `srtp_rdbx_t`. A database is only ever built by `srtp_rdbx_init`, which
    refuses an empty window. -/
structure Rdbx where
  index : Nat
  bitmask : Bitvector
  pos : 0 < bitmask.length
  deriving DecidableEq

/-- `srtp_index_advance`: the index is an unsigned 64-bit number. -/
def indexAdvance (index s : Nat) : Nat := (index + s) % 2 ^ 64

/-- `srtp_index_guess`: the guess and its distance from `index`. -/
def indexGuess (index : Nat) (s : UInt16) : Nat × Int :=
  let localRoc := index / 2 ^ 16 % 2 ^ 32
  let localSeq := index % 2 ^ 16
  let seq := s.toNat
  if localSeq < seqNumMedian then
    if (seq : Int) - localSeq > seqNumMedian then
      ((localRoc + (2 ^ 32 - 1)) % 2 ^ 32 * 2 ^ 16 + seq, (seq : Int) - localSeq - seqNumMax)
    else
      (localRoc * 2 ^ 16 + seq, (seq : Int) - localSeq)
  else
    if (localSeq : Int) - seqNumMedian > seq then
      ((localRoc + 1) % 2 ^ 32 * 2 ^ 16 + seq, (seq : Int) - localSeq + seqNumMax)
    else
      (localRoc * 2 ^ 16 + seq, (seq : Int) - localSeq)

/-- The guess is `index` plus the distance, in the 48 bits of an index, and
    the distance is at most half a rollover counter's worth either way. -/
theorem indexGuess_spec (index : Nat) (s : UInt16) :
    ((indexGuess index s).1 : Int) = (index + (indexGuess index s).2) % 2 ^ 48 ∧
      -0x8000 ≤ (indexGuess index s).2 ∧ (indexGuess index s).2 ≤ 0x8000 := by
  have hs := s.toNat_lt
  have hmedian : seqNumMedian = 0x8000 := rfl
  have hmax : seqNumMax = 0x10000 := rfl
  simp only [indexGuess]
  by_cases hlow : index % 2 ^ 16 < seqNumMedian
  · rw [if_pos hlow]
    by_cases hback : (s.toNat : Int) - (index % 2 ^ 16 : Nat) > seqNumMedian
    · rw [if_pos hback]
      omega
    · rw [if_neg hback]
      omega
  · rw [if_neg hlow]
    by_cases hover : ((index % 2 ^ 16 : Nat) : Int) - seqNumMedian > s.toNat
    · rw [if_pos hover]
      omega
    · rw [if_neg hover]
      omega

/-- The guess ends with the sequence number it is for. -/
theorem indexGuess_low (index : Nat) (s : UInt16) : (indexGuess index s).1 % 2 ^ 16 = s.toNat := by
  have hs := s.toNat_lt
  simp only [indexGuess]
  split <;> split <;> omega

namespace Rdbx

/-- `srtp_rdbx_init`. -/
def init (ws : Nat) : Except SrtpErrStatus Rdbx :=
  if h : ws = 0 then .error .badParam
  else .ok
    { index := 0
      bitmask := Bitvector.alloc ws
      pos := Bitvector.length_alloc_pos (Nat.pos_of_ne_zero h) }

/-- `srtp_rdbx_estimate_index`: near the start the rollover counter is zero,
    so that the guess does not fall below it. -/
def estimateIndex (rdbx : Rdbx) (s : UInt16) : Nat × Int :=
  if rdbx.index > seqNumMedian then indexGuess rdbx.index s
  else (s.toNat, (s.toNat : Int) - (rdbx.index % 2 ^ 16 : Nat))

/-- `srtp_rdbx_check`. -/
def check (rdbx : Rdbx) (delta : Int) : Except SrtpErrStatus Unit :=
  if delta > 0 then .ok ()
  else if (rdbx.bitmask.length : Int) - 1 + delta < 0 then .error .replayOld
  else if rdbx.bitmask.getBit ((rdbx.bitmask.length : Int) - 1 + delta).toNat = true then
    .error .replayFail
  else .ok ()

/-- `srtp_rdbx_add_index`. The distance is cut to the 16 bits of
    `srtp_sequence_number_t` on its way to `srtp_index_advance`. -/
def addIndex (rdbx : Rdbx) (delta : Int) : Rdbx :=
  if delta > 0 then
    { index := indexAdvance rdbx.index (delta.toNat % 2 ^ 16)
      bitmask := (rdbx.bitmask.leftShift delta.toNat).setBit (rdbx.bitmask.length - 1)
      pos := by simpa only [Bitvector.length_setBit, Bitvector.length_leftShift] using rdbx.pos }
  else
    { index := rdbx.index
      bitmask := rdbx.bitmask.setBit ((rdbx.bitmask.length : Int) - 1 + delta).toNat
      pos := by simpa only [Bitvector.length_setBit] using rdbx.pos }

/-- `srtp_rdbx_set_roc_seq`: the index only moves forward. -/
def setRocSeq (rdbx : Rdbx) (roc seq : Nat) : Except SrtpErrStatus Rdbx :=
  if roc < rdbx.index / 2 ^ 16 then .error .replayOld
  else .ok
    { index := roc * 2 ^ 16 + seq
      bitmask := rdbx.bitmask.setToZero
      pos := by simpa only [Bitvector.length_setToZero] using rdbx.pos }

/-- The database remembers a set of indices. -/
def Remembers (rdbx : Rdbx) (acc : Set Nat) : Prop :=
  Lib.Remembers rdbx.bitmask.length rdbx.index rdbx.bitmask.getBit acc

/-- The database's bits are exactly a set of indices. -/
def Tracks (rdbx : Rdbx) (acc : Set Nat) : Prop :=
  Lib.Tracks rdbx.bitmask.length rdbx.index rdbx.bitmask.getBit acc

@[simp] theorem length_addIndex (rdbx : Rdbx) (delta : Int) :
    (rdbx.addIndex delta).bitmask.length = rdbx.bitmask.length := by
  by_cases h : delta > 0
  · simp only [addIndex, if_pos h, Bitvector.length_setBit, Bitvector.length_leftShift]
  · simp only [addIndex, if_neg h, Bitvector.length_setBit]

theorem length_setRocSeq {rdbx rdbx' : Rdbx} {roc seq : Nat}
    (h : rdbx.setRocSeq roc seq = .ok rdbx') : rdbx'.bitmask.length = rdbx.bitmask.length := by
  rw [setRocSeq] at h
  by_cases hroc : roc < rdbx.index / 2 ^ 16
  · rw [if_pos hroc] at h
    exact absurd h (by simp only [reduceCtorEq, not_false_eq_true])
  · rw [if_neg hroc, Except.ok.injEq] at h
    rw [← h]
    rfl

/-- The guess is the stored index plus the distance, in 48 bits. -/
theorem estimateIndex_mod (rdbx : Rdbx) (s : UInt16) :
    ((rdbx.estimateIndex s).1 : Int) = (rdbx.index + (rdbx.estimateIndex s).2) % 2 ^ 48 := by
  have hs := s.toNat_lt
  have hmedian : seqNumMedian = 0x8000 := rfl
  by_cases hnear : rdbx.index > seqNumMedian
  · rw [estimateIndex, if_pos hnear]
    exact (indexGuess_spec rdbx.index s).1
  · rw [estimateIndex, if_neg hnear]
    omega

theorem estimateIndex_low (rdbx : Rdbx) (s : UInt16) :
    (rdbx.estimateIndex s).1 % 2 ^ 16 = s.toNat := by
  rw [estimateIndex]
  split
  · exact indexGuess_low rdbx.index s
  · exact Nat.mod_eq_of_lt s.toNat_lt

/-- The distance is never more than a rollover counter's worth, and never
    takes the index below zero. -/
theorem estimateIndex_range (rdbx : Rdbx) (s : UInt16) :
    0 ≤ rdbx.index + (rdbx.estimateIndex s).2 ∧ (rdbx.estimateIndex s).2 < 2 ^ 16 := by
  have hs := s.toNat_lt
  have hmedian : seqNumMedian = 0x8000 := rfl
  by_cases hnear : rdbx.index > seqNumMedian
  · have hspec := indexGuess_spec rdbx.index s
    rw [estimateIndex, if_pos hnear]
    omega
  · rw [estimateIndex, if_neg hnear]
    omega

theorem estimateIndex_lt (rdbx : Rdbx) (s : UInt16) : (rdbx.estimateIndex s).1 < 2 ^ 48 := by
  have := estimateIndex_mod rdbx s
  omega

/-- As long as the index does not pass its 48 bits, the guess is the stored
    index plus the distance. -/
theorem estimateIndex_eq (rdbx : Rdbx) (s : UInt16)
    (h : rdbx.index + (rdbx.estimateIndex s).2 < 2 ^ 48) :
    ((rdbx.estimateIndex s).1 : Int) = rdbx.index + (rdbx.estimateIndex s).2 := by
  have hmod := estimateIndex_mod rdbx s
  have hrange := estimateIndex_range rdbx s
  omega

/-- The estimate is exact. It ends with the sequence number and lies its distance away
    from the stored index, and it is the true index of every packet that is less than
    half a rollover counter's worth away. -/
theorem estimateIndex_exact (rdbx : Rdbx) (hlt : rdbx.index < 2 ^ 48 - 2 ^ 16) :
    (∀ s : UInt16, (rdbx.estimateIndex s).1 % 2 ^ 16 = s.toNat ∧
      ((rdbx.estimateIndex s).1 : Int) - rdbx.index = (rdbx.estimateIndex s).2) ∧
      ∀ i : Nat, ((i : Int) - rdbx.index).natAbs < 2 ^ 15 →
        (rdbx.estimateIndex (UInt16.ofNat i)).1 = i := by
  refine ⟨fun s => ⟨estimateIndex_low rdbx s, ?_⟩, ?_⟩
  · have hmod := estimateIndex_mod rdbx s
    have hrange := estimateIndex_range rdbx s
    omega
  · intro i hnear
    have hmedian : seqNumMedian = 0x8000 := rfl
    have hlow := estimateIndex_low rdbx (UInt16.ofNat i)
    have hseq : (UInt16.ofNat i).toNat = i % 2 ^ 16 := rfl
    rw [hseq] at hlow
    by_cases hstart : rdbx.index > seqNumMedian
    · -- Two indices with the same low bits, both near the stored one.
      have hspec := indexGuess_spec rdbx.index (UInt16.ofNat i)
      rw [estimateIndex, if_pos hstart] at hlow ⊢
      omega
    · rw [estimateIndex, if_neg hstart, hseq]
      omega

/-- Around the first rollover. -/
theorem estimateIndex_exact_rollover :
    (estimateIndex ⟨0x10005, Bitvector.alloc 128, by decide⟩ (UInt16.ofNat 0x8006)).1 = 0x8006 :=
  (estimateIndex_exact ⟨0x10005, Bitvector.alloc 128, by decide⟩ (by decide)).2 0x8006 (by decide)

/-- The check passes for an index above the stored one, and for one inside
    the window whose bit is clear. -/
theorem check_ok_iff (rdbx : Rdbx) (delta : Int) :
    rdbx.check delta = .ok () ↔
      0 < delta ∨ 0 ≤ (rdbx.bitmask.length : Int) - 1 + delta ∧
        rdbx.bitmask.getBit ((rdbx.bitmask.length : Int) - 1 + delta).toNat = false := by
  have hpos := rdbx.pos
  rw [check]
  by_cases hd : delta > 0
  · rw [if_pos hd]
    exact ⟨fun _ => Or.inl hd, fun _ => rfl⟩
  rw [if_neg hd]
  by_cases hold : (rdbx.bitmask.length : Int) - 1 + delta < 0
  · rw [if_pos hold]
    simp only [reduceCtorEq, false_iff]
    omega
  rw [if_neg hold]
  by_cases hbit : rdbx.bitmask.getBit ((rdbx.bitmask.length : Int) - 1 + delta).toNat = true
  · rw [if_pos hbit, hbit]
    simp only [reduceCtorEq, Bool.true_eq_false, and_false, or_false, false_iff]
    omega
  · rw [if_neg hbit]
    exact ⟨fun _ => Or.inr ⟨by omega, Bool.eq_false_iff.mpr hbit⟩, fun _ => rfl⟩

/-- A passed check leaves the distance inside the window. -/
theorem window_of_check {rdbx : Rdbx} {delta : Int} (h : rdbx.check delta = .ok ()) :
    0 ≤ (rdbx.bitmask.length : Int) - 1 + delta := by
  have hpos := rdbx.pos
  rcases (check_ok_iff rdbx delta).mp h with hd | hd
  · omega
  · exact hd.1

/-- A check that finds a replay has found a bit inside the window. -/
theorem marked_of_replayFail {rdbx : Rdbx} {delta : Int}
    (h : rdbx.check delta = .error .replayFail) :
    delta ≤ 0 ∧ 0 ≤ (rdbx.bitmask.length : Int) - 1 + delta ∧
      rdbx.bitmask.getBit ((rdbx.bitmask.length : Int) - 1 + delta).toNat = true := by
  rw [check] at h
  split at h
  · exact absurd h (by simp only [reduceCtorEq, not_false_eq_true])
  split at h
  · exact absurd h (by simp only [Except.error.injEq, reduceCtorEq, not_false_eq_true])
  split at h
  · rename_i hbit
    exact ⟨by omega, by omega, hbit⟩
  · exact absurd h (by simp only [reduceCtorEq, not_false_eq_true])

/-- The bit the database keeps for an index at a given distance. -/
theorem place_eq {rdbx : Rdbx} {delta : Int} {a : Nat} (ha : (a : Int) = rdbx.index + delta)
    (hwin : 0 ≤ (rdbx.bitmask.length : Int) - 1 + delta) :
    ((rdbx.bitmask.length : Int) - 1 + delta).toNat =
      Lib.place rdbx.bitmask.length rdbx.index a := by
  have hpos := rdbx.pos
  simp only [Lib.place]
  omega

/-- An index that passes the check is not among those remembered. -/
theorem fresh_of_check {rdbx : Rdbx} {acc : Set Nat} (h : rdbx.Remembers acc) {delta : Int}
    {a : Nat} (ha : (a : Int) = rdbx.index + delta) (hcheck : rdbx.check delta = .ok ()) :
    a ∉ acc := by
  have hwin := window_of_check hcheck
  rcases (check_ok_iff rdbx delta).mp hcheck with hd | ⟨-, hbit⟩
  · exact h.fresh_above (by omega)
  · rw [place_eq ha hwin] at hbit
    exact h.fresh (by omega) hbit

theorem index_addIndex {rdbx : Rdbx} {delta : Int} {a : Nat}
    (ha : (a : Int) = rdbx.index + delta) (hd : delta < 2 ^ 16) (hlt : a < 2 ^ 48) :
    (rdbx.addIndex delta).index = max rdbx.index a := by
  by_cases h : delta > 0
  · simp only [addIndex, if_pos h, indexAdvance]
    omega
  · simp only [addIndex, if_neg h]
    omega

/-- What adding an index ahead of the stored one does to the bits. -/
theorem getBit_addIndex_pos (rdbx : Rdbx) {delta : Int} (h : delta > 0) (i : Nat) :
    (rdbx.addIndex delta).bitmask.getBit i =
      (decide (i + delta.toNat < rdbx.bitmask.length) &&
        rdbx.bitmask.getBit (i + delta.toNat) || decide (i = rdbx.bitmask.length - 1)) := by
  have hpos := rdbx.pos
  simp only [addIndex, if_pos h]
  rw [Bitvector.getBit_setBit _ _ _ (by rw [Bitvector.length_leftShift]; omega),
    Bitvector.getBit_leftShift]

/-- What adding an index inside the window does to the bits. -/
theorem getBit_addIndex_nonpos {rdbx : Rdbx} {delta : Int} {a : Nat} (h : ¬ delta > 0)
    (ha : (a : Int) = rdbx.index + delta)
    (hwin : 0 ≤ (rdbx.bitmask.length : Int) - 1 + delta) (i : Nat) :
    (rdbx.addIndex delta).bitmask.getBit i =
      (rdbx.bitmask.getBit i ||
        decide (i = Lib.place rdbx.bitmask.length rdbx.index a)) := by
  have hpos := rdbx.pos
  simp only [addIndex, if_neg h]
  rw [Bitvector.getBit_setBit _ _ _ (by omega), place_eq ha hwin]

/-- Adding an index that is not below the window marks it. -/
theorem remembers_addIndex {rdbx : Rdbx} {acc : Set Nat} (h : rdbx.Remembers acc) {delta : Int}
    {a : Nat} (ha : (a : Int) = rdbx.index + delta) (hd : delta < 2 ^ 16) (hlt : a < 2 ^ 48)
    (hwin : 0 ≤ (rdbx.bitmask.length : Int) - 1 + delta) :
    (rdbx.addIndex delta).Remembers (insert a acc) := by
  rw [Remembers, length_addIndex, index_addIndex ha hd hlt]
  by_cases hpos : delta > 0
  · have htop : max rdbx.index a = rdbx.index + delta.toNat := by omega
    have haeq : a = rdbx.index + delta.toNat := by omega
    rw [htop, haeq]
    exact Lib.Remembers.advance h rdbx.pos (by omega)
      (fun i _ => getBit_addIndex_pos rdbx hpos i)
  · rw [Nat.max_eq_left (by omega)]
    exact Lib.Remembers.mark h (by omega) (fun i _ => getBit_addIndex_nonpos hpos ha hwin i)

/-- An index that is refused as a replay counts as remembered. -/
theorem remembers_replayFail {rdbx : Rdbx} {acc : Set Nat} (h : rdbx.Remembers acc) {delta : Int}
    {a : Nat} (ha : (a : Int) = rdbx.index + delta)
    (hcheck : rdbx.check delta = .error .replayFail) : rdbx.Remembers (insert a acc) := by
  rcases marked_of_replayFail hcheck with ⟨hd, hwin, hbit⟩
  rw [place_eq ha hwin] at hbit
  exact Lib.Remembers.insert_marked h (by omega) hbit

/-- Adding an index that is not below the window keeps the bits exact. -/
theorem tracks_addIndex {rdbx : Rdbx} {acc : Set Nat} (h : rdbx.Tracks acc) {delta : Int}
    {a : Nat} (ha : (a : Int) = rdbx.index + delta) (hd : delta < 2 ^ 16) (hlt : a < 2 ^ 48)
    (hwin : 0 ≤ (rdbx.bitmask.length : Int) - 1 + delta) :
    (rdbx.addIndex delta).Tracks (insert a acc) := by
  rw [Tracks, length_addIndex, index_addIndex ha hd hlt]
  by_cases hpos : delta > 0
  · have htop : max rdbx.index a = rdbx.index + delta.toNat := by omega
    have haeq : a = rdbx.index + delta.toNat := by omega
    rw [htop, haeq]
    exact Lib.Tracks.advance h rdbx.pos (by omega)
      (fun i _ => getBit_addIndex_pos rdbx hpos i)
  · rw [Nat.max_eq_left (by omega)]
    exact Lib.Tracks.mark h (by omega) (by omega)
      (fun i _ => getBit_addIndex_nonpos hpos ha hwin i)

/-- A forward jump past the whole window leaves the new index marked. -/
theorem remembers_setRocSeq {rdbx rdbx' : Rdbx} {acc : Set Nat} (h : rdbx.Remembers acc)
    {roc seq : Nat} (hset : rdbx.setRocSeq roc seq = .ok rdbx')
    (hjump : rdbx.index + rdbx.bitmask.length ≤ roc * 2 ^ 16 + seq)
    (hlt : roc * 2 ^ 16 + seq < 2 ^ 48) :
    (rdbx'.addIndex 0).Remembers (insert (roc * 2 ^ 16 + seq) acc) := by
  have hlen := length_setRocSeq hset
  have hpos := rdbx'.pos
  have hidx : rdbx'.index = roc * 2 ^ 16 + seq := by
    rw [setRocSeq] at hset
    by_cases hroc : roc < rdbx.index / 2 ^ 16
    · rw [if_pos hroc] at hset
      exact absurd hset (by simp only [reduceCtorEq, not_false_eq_true])
    · rw [if_neg hroc, Except.ok.injEq] at hset
      rw [← hset]
  have ha : ((roc * 2 ^ 16 + seq : Nat) : Int) = rdbx'.index + 0 := by omega
  rw [Remembers, length_addIndex, index_addIndex ha (by decide) hlt, hlen, hidx, Nat.max_self]
  refine Lib.Remembers.jump h (by omega) hjump ?_
  rw [getBit_addIndex_nonpos (by decide) ha (by omega), ← hidx, ← hlen, Lib.place_top hpos,
    decide_eq_true rfl, Bool.or_true]

end Rdbx

end Srtp

end CryptoOpal

import CryptoOpal.Srtp.Bounds
import CryptoOpal.Srtp.Ideal
import CryptoOpal.Lib.Transducer

/-!
# A Rollover Counter Set by the Application

What becomes of a rollover counter after `srtp_set_stream_roc`. The
application sets it once, sends packets with consecutive sequence numbers,
and expects the extended indices to start at the counter it set and to go up
by one from there, past every wrap of the sequence number.

The counter is consulted by every packet until something clears it, and only
the jump of a packet far ahead does. So there are three kinds of runs. A run
that starts far ahead jumps, the counter is cleared, and the database tracks
the indices on its own. A run that starts within half a wrap of the stored
index never jumps. Its counter stays set, and the run goes wrong at the first
wrap. And on the AES-GCM path, or with the counter zero, nothing is consulted
at all, and the run is right when the database would have guessed the counter
without being told.

`Stream.KeepsRoc` puts this together as a condition on the stream before the
run, and `roc_tracked` says that it is the exact one.

## Main definitions

* `srtpProtect`: The send function without an MKI.
* `sentIndices`: What a run of packets to send returns.
* `Stream.Numbers`: A stream numbers packets one after the other.
* `Rdbx.Guesses`: The database would guess an index by itself.
* `Stream.KeepsRoc`: The condition.

## Theorems

* `estimateIndex_succ`: The guess for the next sequence number.
* `sentIndices_iff`: A run of a session, as one of its stream.
* `numbers_guess`, `numbers_pending`, `numbers_jump`: The three kinds of runs.
* `roc_tracked`: Which runs keep the counter.
* `roc_lost`: A counter that is lost at the wrap.
-/

namespace CryptoOpal

namespace Srtp

open Lib (Octets)

namespace Rdbx

/-- The signed distance of an index from the stored one, in 48 bits. -/
def distance (rdbx : Rdbx) (e : Nat) : Int :=
  ((e : Int) - rdbx.index + 2 ^ 47) % 2 ^ 48 - 2 ^ 47

/-- The database would guess an index by itself. Near the start this is any
    index without a rollover counter, and later on any that is at most half a
    wrap away. An index exactly half a wrap away is guessed on the side of the
    stored index's own rollover counter. -/
def Guesses (rdbx : Rdbx) (e : Nat) : Prop :=
  if rdbx.index ≤ seqNumMedian then e < 2 ^ 16
  else if rdbx.index % 2 ^ 16 < seqNumMedian then
    -0x8000 < rdbx.distance e ∧ rdbx.distance e ≤ 0x8000
  else -0x8000 ≤ rdbx.distance e ∧ rdbx.distance e < 0x8000

instance (rdbx : Rdbx) (e : Nat) : Decidable (rdbx.Guesses e) := by
  unfold Guesses
  infer_instance

/-- What the guess for a sequence number is. -/
theorem guesses_iff (rdbx : Rdbx) {e : Nat} {s : UInt16} (hlow : e % 2 ^ 16 = s.toNat)
    (hlt : e < 2 ^ 48) : (rdbx.estimateIndex s).1 = e ↔ rdbx.Guesses e := by
  have hs := s.toNat_lt
  have hmedian : seqNumMedian = 0x8000 := rfl
  have hmax : seqNumMax = 0x10000 := rfl
  unfold Guesses distance estimateIndex
  by_cases hnear : rdbx.index > seqNumMedian
  · rw [if_pos hnear, if_neg (by omega)]
    simp only [indexGuess]
    by_cases hhalf : rdbx.index % 2 ^ 16 < seqNumMedian
    · rw [if_pos hhalf, if_pos hhalf]
      split <;> omega
    · rw [if_neg hhalf, if_neg hhalf]
      split <;> omega
  · rw [if_neg hnear, if_pos (by omega)]
    omega

/-- The distance that comes with a guess. -/
theorem distance_of_guess (rdbx : Rdbx) (s : UInt16) :
    (rdbx.estimateIndex s).2 = rdbx.distance (rdbx.estimateIndex s).1 := by
  have hmod := estimateIndex_mod rdbx s
  have hrange := estimateIndex_range rdbx s
  have hs := s.toNat_lt
  have hmedian : seqNumMedian = 0x8000 := rfl
  have hlow : -0x8000 ≤ (rdbx.estimateIndex s).2 := by
    unfold estimateIndex
    by_cases hnear : rdbx.index > seqNumMedian
    · rw [if_pos hnear]
      exact (indexGuess_spec rdbx.index s).2.1
    · rw [if_neg hnear]
      omega
  unfold distance
  omega

/-- A distance of less than half a wrap is the one that the guess finds. -/
theorem indexGuess_of_near {index : Nat} {s : UInt16} {d : Int} (hd : -0x8000 < d)
    (hd' : d < 0x8000) (hs : (s.toNat : Int) = (index + d) % 2 ^ 16) :
    (indexGuess index s).2 = d := by
  have hmedian : seqNumMedian = 0x8000 := rfl
  have hmax : seqNumMax = 0x10000 := rfl
  simp only [indexGuess]
  split <;> split <;> omega

/-- The guess for the next sequence number, once the index that was guessed
    is added: the next index. A database that has caught up stays caught
    up. -/
theorem estimateIndex_succ {rdbx rdbx' : Rdbx} {s : UInt16}
    (hindex : rdbx'.index = if 0 < (rdbx.estimateIndex s).2
      then indexAdvance rdbx.index ((rdbx.estimateIndex s).2.toNat % 2 ^ 16) else rdbx.index) :
    rdbx'.estimateIndex (s + 1) = (((rdbx.estimateIndex s).1 + 1) % 2 ^ 48,
      if 0 < (rdbx.estimateIndex s).2 then 1 else (rdbx.estimateIndex s).2 + 1) := by
  have hmod := estimateIndex_mod rdbx s
  have hmod' := estimateIndex_mod rdbx' (s + 1)
  have hrange := estimateIndex_range rdbx s
  have hlow := estimateIndex_low rdbx s
  have hs := s.toNat_lt
  have hs' : (s + 1).toNat = (s.toNat + 1) % 2 ^ 16 := UInt16.toNat_add s 1
  have hmedian : seqNumMedian = 0x8000 := rfl
  have hdist : (rdbx'.estimateIndex (s + 1)).2 =
      if 0 < (rdbx.estimateIndex s).2 then 1 else (rdbx.estimateIndex s).2 + 1 := by
    by_cases hpos : 0 < (rdbx.estimateIndex s).2
    · -- The index has moved to the packet's, so the next one is one ahead.
      rw [if_pos hpos] at hindex ⊢
      have hstored : rdbx'.index % 2 ^ 16 = s.toNat := by
        rw [hindex, indexAdvance]
        omega
      by_cases hnear : rdbx'.index > seqNumMedian
      · rw [estimateIndex, if_pos hnear]
        exact indexGuess_of_near (by decide) (by decide) (by omega)
      · rw [estimateIndex, if_neg hnear]
        simp only
        omega
    · -- The index has stayed, and the packet has moved one towards it.
      rw [if_neg hpos] at hindex ⊢
      have hback := indexGuess_spec rdbx.index s
      unfold estimateIndex at hmod hrange hlow hpos ⊢
      rw [hindex]
      by_cases hnear : rdbx.index > seqNumMedian
      · rw [if_pos hnear] at hmod hrange hlow hpos ⊢
        rw [if_pos hnear]
        exact indexGuess_of_near (by omega) (by omega) (by omega)
      · rw [if_neg hnear] at hpos ⊢
        rw [if_neg hnear]
        simp only at hpos ⊢
        omega
  refine Prod.ext ?_ hdist
  rw [hdist] at hmod'
  simp only
  by_cases hpos : 0 < (rdbx.estimateIndex s).2
  · rw [if_pos hpos] at hmod' hindex
    rw [hindex, indexAdvance] at hmod'
    omega
  · rw [if_neg hpos] at hmod' hindex
    rw [hindex] at hmod'
    omega

/-- The guess for the next sequence number after the stored one. -/
theorem estimateIndex_next {rdbx : Rdbx} {s : UInt16} (hnear : seqNumMedian < rdbx.index)
    (hs : rdbx.index % 2 ^ 16 = s.toNat) :
    rdbx.estimateIndex (s + 1) = ((rdbx.index + 1) % 2 ^ 48, 1) := by
  have hmod := estimateIndex_mod rdbx (s + 1)
  have hs' : (s + 1).toNat = (s.toNat + 1) % 2 ^ 16 := UInt16.toNat_add s 1
  have hdist : (rdbx.estimateIndex (s + 1)).2 = 1 := by
    unfold estimateIndex
    rw [if_pos hnear]
    exact indexGuess_of_near (by decide) (by decide) (by omega)
  rw [hdist] at hmod
  exact Prod.ext (by simp only; omega) hdist

/-- Marking one index leaves the check of a later one as it was. -/
theorem check_addIndex_later (rdbx : Rdbx) {delta d : Int} (hdelta : ¬ delta > 0)
    (hwin : 0 ≤ (rdbx.bitmask.length : Int) - 1 + delta) (hlater : delta < d) :
    (rdbx.addIndex delta).check d = rdbx.check d := by
  have hlen := length_addIndex rdbx delta
  unfold check
  rw [hlen]
  by_cases hd : d > 0
  · rw [if_pos hd, if_pos hd]
  · have hbit : (rdbx.addIndex delta).bitmask.getBit ((rdbx.bitmask.length : Int) - 1 + d).toNat =
        rdbx.bitmask.getBit ((rdbx.bitmask.length : Int) - 1 + d).toNat := by
      simp only [addIndex, if_neg hdelta]
      rw [Bitvector.getBit_setBit _ _ _ (by omega), decide_eq_false (by omega), Bool.or_false]
    rw [hbit]

end Rdbx

/-- Sequence numbers one after the other. -/
def consecutive (seq : UInt16) : Nat → List UInt16
  | 0 => []
  | n + 1 => seq :: consecutive (seq + 1) n

variable {C A : Type}

namespace Stream

/-- The replay check lets the stream send at a distance: the place is free, or
    it is taken and may be used again. -/
def Admissible (stream : Stream C A) (delta : Int) : Prop :=
  stream.rtpRdbx.check delta = .ok () ∨
    stream.rtpRdbx.check delta = .error .replayFail ∧ stream.allowRepeatTx = true

/-- The stream has sent at a distance: the rest of it is as before, and so are
    the places that come later. -/
structure Moved (stream stream' : Stream C A) (delta : Int) : Prop where
  keying : stream'.keying = stream.keying
  pendingRoc : stream'.pendingRoc = stream.pendingRoc
  index : stream'.rtpRdbx.index = if 0 < delta
    then indexAdvance stream.rtpRdbx.index (delta.toNat % 2 ^ 16) else stream.rtpRdbx.index
  later : ¬ 0 < delta → ∀ d, delta < d → stream'.rtpRdbx.check d = stream.rtpRdbx.check d

theorem firstKeys_congr {stream stream' : Stream C A} (h : stream'.keying = stream.keying) :
    stream'.firstKeys = stream.firstKeys := by
  have hkeys : stream'.sessionKeys = stream.sessionKeys := congrArg Keying.sessionKeys h
  unfold firstKeys
  simp only [hkeys]

theorem allowRepeatTx_congr {stream stream' : Stream C A} (h : stream'.keying = stream.keying) :
    stream'.allowRepeatTx = stream.allowRepeatTx :=
  congrArg Keying.allowRepeatTx h

/-- Later places are admissible as before. -/
theorem Moved.admissible {stream stream' : Stream C A} {delta d : Int}
    (h : Moved stream stream' delta) (hdelta : ¬ 0 < delta) (hd : delta < d) :
    stream'.Admissible d ↔ stream.Admissible d := by
  unfold Admissible
  rw [h.later hdelta d hd, allowRepeatTx_congr h.keying]

theorem Moved.addIndex {stream : Stream C A} {delta : Int}
    (hwin : ¬ 0 < delta → 0 ≤ (stream.rtpRdbx.bitmask.length : Int) - 1 + delta) :
    Moved stream (stream.addIndex delta) delta where
  keying := keying_addIndex stream delta
  pendingRoc := rfl
  index := by
    simp only [Stream.addIndex, withRdbx, Rdbx.addIndex]
    by_cases hpos : delta > 0
    · rw [if_pos hpos, if_pos hpos]
    · rw [if_neg hpos, if_neg hpos]
  later := fun hneg d hd => Rdbx.check_addIndex_later _ hneg (hwin hneg) hd

theorem admissible_of_pos {stream : Stream C A} {delta : Int} (h : 0 < delta) :
    stream.Admissible delta :=
  Or.inl ((Rdbx.check_ok_iff _ _).mpr (Or.inl h))

theorem admissible_claimDirection (stream : Stream C A) (dir : StreamDirection) (delta : Int) :
    (stream.claimDirection dir).Admissible delta ↔ stream.Admissible delta := by
  rcases claimDirection_eq stream dir with ⟨dir', h⟩
  rw [h]
  rfl

/-- The estimate under a pending rollover counter far ahead. -/
theorem est_pending_ahead {stream : Stream C A} {seq : UInt16} {e : Nat}
    (hroc : stream.pendingRoc ≠ 0) (he : e = stream.pendingRoc.toNat * 2 ^ 16 + seq.toNat)
    (hahead : stream.rtpRdbx.index + 0x8000 < e) :
    stream.getEstPktIndex seq = (.pktIdxAdv, e, 0) := by
  have hmedian : seqNumMedian = 0x8000 := rfl
  unfold getEstPktIndex srtpEstimateIndex
  rw [if_pos hroc]
  simp only [← he]
  rw [if_pos (by omega), if_pos (by omega)]

/-- The estimate under a pending rollover counter far behind. -/
theorem est_pending_old {stream : Stream C A} {seq : UInt16} {e : Nat}
    (hroc : stream.pendingRoc ≠ 0) (he : e = stream.pendingRoc.toNat * 2 ^ 16 + seq.toNat)
    (hback : e + 0x8000 < stream.rtpRdbx.index) :
    stream.getEstPktIndex seq = (.pktIdxOld, e, 0) := by
  have hmedian : seqNumMedian = 0x8000 := rfl
  unfold getEstPktIndex srtpEstimateIndex
  rw [if_pos hroc]
  simp only [← he]
  rw [if_neg (by omega), if_pos (by omega), if_pos (by omega)]

/-- A jump ahead stores the index it jumps to. -/
theorem index_record_ahead {stream : Stream C A} {e : Nat} (hahead : stream.rtpRdbx.index < e)
    (hlt : e < 2 ^ 48) : (stream.record true e 0).rtpRdbx.index = e := by
  have hset : ∃ rdbx, stream.rtpRdbx.setRocSeq (e / 2 ^ 16 % 2 ^ 32) (e % 2 ^ 16) = .ok rdbx ∧
      rdbx.index = e := by
    rw [Rdbx.setRocSeq, if_neg (by omega)]
    exact ⟨_, rfl, by simp only; omega⟩
  rcases hset with ⟨rdbx, hset, hindex⟩
  simp only [record, if_true, addIndex, withRdbx, rtpRdbx_setRocSeq hset, Rdbx.addIndex,
    gt_iff_lt, Int.lt_irrefl, if_false, hindex]

/-- A place that the check refuses is inadmissible under the condition that
    the send functions test. -/
theorem not_admissible_iff {stream : Stream C A} {delta : Int} {e : SrtpErrStatus}
    (hcheck : stream.rtpRdbx.check delta = .error e) :
    ¬ stream.Admissible delta ↔ e ≠ .replayFail ∨ stream.allowRepeatTx = false := by
  unfold Admissible
  rw [hcheck, Except.error.injEq]
  simp only [reduceCtorEq, false_or, not_and_or, Bool.not_eq_true, ne_eq]

/-- Every place of a run of `n` packets that lies at or below the stored index
    is admissible. -/
def Free (stream : Stream C A) (delta : Int) (n : Nat) : Prop :=
  ∀ k : Nat, k < n → delta + k ≤ 0 → stream.Admissible (delta + k)

/-- The places of a run are that of its first packet and those of the rest. -/
theorem free_succ (stream : Stream C A) (delta : Int) (n : Nat) :
    stream.Free delta (n + 1) ↔
      stream.Admissible delta ∧ (0 < delta ∨ stream.Free (delta + 1) n) := by
  unfold Free
  constructor
  · intro h
    by_cases hpos : 0 < delta
    · exact ⟨admissible_of_pos hpos, Or.inl hpos⟩
    · have hfirst := h 0 (by omega) (by omega)
      rw [Int.natCast_zero, Int.add_zero] at hfirst
      refine ⟨hfirst, Or.inr fun k hk hle => ?_⟩
      have hlater := h (k + 1) (by omega) (by omega)
      rwa [Int.natCast_add, Int.natCast_one, Int.add_comm (k : Int) 1, ← Int.add_assoc] at hlater
  · rintro ⟨hfirst, hrest⟩ k hk hle
    rcases Nat.eq_zero_or_pos k with rfl | hk'
    · rwa [Int.natCast_zero, Int.add_zero]
    · rcases hrest with hpos | hrest
      · omega
      · have hlater := hrest (k - 1) (by omega) (by omega)
        rwa [show delta + 1 + ((k - 1 : Nat) : Int) = delta + k by omega] at hlater

/-- The places of the rest of a run, seen from the stream that has sent the
    first packet. -/
theorem Moved.free {stream stream' : Stream C A} {delta : Int} (h : Moved stream stream' delta)
    (n : Nat) : stream'.Free (if 0 < delta then 1 else delta + 1) n ↔
      0 < delta ∨ stream.Free (delta + 1) n := by
  unfold Free
  by_cases hpos : 0 < delta
  · rw [if_pos hpos]
    exact ⟨fun _ => Or.inl hpos, fun _ k _ hle => by omega⟩
  · rw [if_neg hpos]
    constructor
    · intro hfree
      exact Or.inr fun k hk hle => (h.admissible hpos (by omega)).mp (hfree k hk hle)
    · rintro (hd | hfree) k hk hle
      · exact absurd hd hpos
      · exact (h.admissible hpos (by omega)).mpr (hfree k hk hle)

variable [CipherType C]

/-- The keys in use do not look at a pending rollover counter, or there is
    none. -/
def PlainGuess (stream : Stream C A) : Prop :=
  stream.firstKeys.isGcm = true ∨ stream.pendingRoc = 0

/-- The index of the next packet, by the path of the first keys. -/
def takeNext (stream : Stream C A) (seq : UInt16) : Except SrtpErrStatus (Stream C A × Nat) :=
  if stream.firstKeys.isGcm then stream.takeIndexAead seq else stream.takeIndex seq

/-- The estimate for the next packet, by the path of the first keys. -/
def nextEst (stream : Stream C A) (seq : UInt16) : SrtpErrStatus × Nat × Int :=
  if stream.firstKeys.isGcm then (.ok, stream.rtpRdbx.estimateIndex seq)
  else stream.getEstPktIndex seq

/-- A packet that is not far off is sent exactly when its place is
    admissible. -/
theorem takeNext_of_est {stream : Stream C A} {seq : UInt16} {est : Nat} {delta : Int}
    (hest : stream.nextEst seq = (.ok, est, delta)) :
    (stream.Admissible delta →
        ∃ stream', stream.takeNext seq = .ok (stream', est) ∧ Moved stream stream' delta) ∧
      (¬ stream.Admissible delta → ∃ e, stream.takeNext seq = .error e) := by
  unfold nextEst at hest
  unfold takeNext
  cases hcheck : stream.rtpRdbx.check delta with
  | ok u =>
      refine ⟨fun _ => ⟨stream.addIndex delta, ?_, ?_⟩, fun h => absurd (Or.inl hcheck) h⟩
      · by_cases hgcm : stream.firstKeys.isGcm = true
        · rw [if_pos hgcm] at hest ⊢
          simp only [Prod.mk.injEq, true_and] at hest
          simp only [takeIndexAead, hest, hcheck]
        · rw [if_neg hgcm] at hest ⊢
          simp only [takeIndex, hest, hcheck]
      · exact Moved.addIndex fun _ => Rdbx.window_of_check hcheck
  | error e =>
  have hadm := not_admissible_iff hcheck
  -- The AEAD path leaves the stream alone where the other sets the bit again.
  by_cases hgcm : stream.firstKeys.isGcm = true
  · rw [if_pos hgcm] at hest ⊢
    simp only [Prod.mk.injEq, true_and] at hest
    simp only [takeIndexAead, hest, hcheck]
    refine ⟨fun h => ?_, fun h => ⟨e, by rw [if_pos (hadm.mp h)]⟩⟩
    have hrefuse : ¬ (e ≠ .replayFail ∨ stream.allowRepeatTx = false) := fun hr => hadm.mpr hr h
    rw [if_neg hrefuse]
    obtain rfl : e = .replayFail := by
      by_contra hne
      exact hrefuse (Or.inl hne)
    have hneg := (Rdbx.marked_of_replayFail hcheck).1
    exact ⟨stream, rfl, rfl, rfl, by rw [if_neg (by omega)], fun _ _ _ => rfl⟩
  · rw [if_neg hgcm] at hest ⊢
    simp only [takeIndex, hest, hcheck]
    refine ⟨fun h => ?_, fun h => ⟨e, by rw [if_pos (hadm.mp h)]⟩⟩
    have hrefuse : ¬ (e ≠ .replayFail ∨ stream.allowRepeatTx = false) := fun hr => hadm.mpr hr h
    rw [if_neg hrefuse]
    obtain rfl : e = .replayFail := by
      by_contra hne
      exact hrefuse (Or.inl hne)
    exact ⟨_, rfl, Moved.addIndex fun _ => (Rdbx.marked_of_replayFail hcheck).2.1⟩

/-- A stream numbers packets one after the other, from an index on. -/
def Numbers : Stream C A → List UInt16 → Nat → Prop
  | _, [], _ => True
  | stream, seq :: seqs, e =>
    ∃ stream', (stream.claimDirection .srtpSender).takeNext seq = .ok (stream', e) ∧
      stream'.Numbers seqs (e + 1)

/-- The direction plays no part in the numbering. -/
theorem nextEst_claimDirection (stream : Stream C A) (dir : StreamDirection) (seq : UInt16) :
    (stream.claimDirection dir).nextEst seq = stream.nextEst seq := by
  rcases claimDirection_eq stream dir with ⟨dir', h⟩
  rw [h]
  rfl

/-- One packet, and then the rest: the packet's index is the estimate, its
    place is admissible, and the moved stream numbers the rest. -/
theorem numbers_cons {stream : Stream C A} {seq : UInt16} {seqs : List UInt16} {est e : Nat}
    {delta : Int} {Q : Prop} (hest : stream.nextEst seq = (.ok, est, delta))
    (hrest : ∀ stream', Moved stream stream' delta → (stream'.Numbers seqs (e + 1) ↔ Q)) :
    stream.Numbers (seq :: seqs) e ↔ est = e ∧ stream.Admissible delta ∧ Q := by
  have htake := takeNext_of_est ((nextEst_claimDirection stream .srtpSender seq).trans hest)
  rw [admissible_claimDirection] at htake
  have hmoved {stream' : Stream C A} (h : Moved (stream.claimDirection .srtpSender) stream' delta) :
      Moved stream stream' delta := by
    rcases claimDirection_eq stream .srtpSender with ⟨dir', hdir⟩
    rw [hdir] at h
    exact ⟨h.keying, h.pendingRoc, h.index, h.later⟩
  unfold Numbers
  constructor
  · rintro ⟨stream', hok, hnum⟩
    by_cases hadm : stream.Admissible delta
    · rcases htake.1 hadm with ⟨stream'', hok', hmove⟩
      rw [hok', Except.ok.injEq, Prod.mk.injEq] at hok
      rw [← hok.1] at hnum
      exact ⟨hok.2, hadm, (hrest stream'' (hmoved hmove)).mp hnum⟩
    · rcases htake.2 hadm with ⟨err, herr⟩
      rw [herr] at hok
      exact absurd hok (by simp only [reduceCtorEq, not_false_eq_true])
  · rintro ⟨rfl, hadm, hq⟩
    rcases htake.1 hadm with ⟨stream', hok, hmove⟩
    exact ⟨stream', hok, (hrest stream' (hmoved hmove)).mpr hq⟩

/-- A run that goes by the database's own guesses. It keeps its numbers as long
    as the first guess is right and the indices stay within 48 bits. -/
theorem numbers_guess (n : Nat) : ∀ {stream : Stream C A} {seq : UInt16} {e : Nat},
    stream.PlainGuess → (stream.Numbers (consecutive seq n) e ↔
      n = 0 ∨ ((stream.rtpRdbx.estimateIndex seq).1 = e ∧ e + n ≤ 2 ^ 48 ∧
        stream.Free (stream.rtpRdbx.estimateIndex seq).2 n)) := by
  induction n with
  | zero => exact fun _ => ⟨fun _ => Or.inl rfl, fun _ => trivial⟩
  | succ n ih =>
      intro stream seq e hplain
      have hest : stream.nextEst seq = (.ok, (stream.rtpRdbx.estimateIndex seq).1,
          (stream.rtpRdbx.estimateIndex seq).2) := by
        unfold nextEst getEstPktIndex
        by_cases hgcm : stream.firstKeys.isGcm = true
        · rw [if_pos hgcm]
        · rw [if_neg hgcm, if_neg (not_not.mpr (hplain.resolve_left hgcm))]
      have hlt := Rdbx.estimateIndex_lt stream.rtpRdbx seq
      rw [consecutive, numbers_cons hest
        (Q := n = 0 ∨ ((stream.rtpRdbx.estimateIndex seq).1 + 1) % 2 ^ 48 = e + 1 ∧
          e + 1 + n ≤ 2 ^ 48 ∧ (0 < (stream.rtpRdbx.estimateIndex seq).2 ∨
            stream.Free ((stream.rtpRdbx.estimateIndex seq).2 + 1) n))]
      · rw [free_succ]
        simp only [Nat.add_eq_zero_iff, Nat.one_ne_zero, and_false, false_or]
        constructor
        · rintro ⟨hfirst, hadm, hzero | ⟨-, hle, hrest⟩⟩
          · refine ⟨hfirst, by omega, hadm, ?_⟩
            refine Or.inr fun k hk => ?_
            omega
          · exact ⟨hfirst, by omega, hadm, hrest⟩
        · rintro ⟨hfirst, hle, hadm, hrest⟩
          refine ⟨hfirst, hadm, ?_⟩
          rcases Nat.eq_zero_or_pos n with hzero | hpos
          · exact Or.inl hzero
          · exact Or.inr ⟨by omega, by omega, hrest⟩
      · intro stream' hmove
        have hplain' : stream'.PlainGuess := by
          unfold PlainGuess
          rw [firstKeys_congr hmove.keying, hmove.pendingRoc]
          exact hplain
        rw [ih hplain', Rdbx.estimateIndex_succ hmove.index]
        simp only
        rw [hmove.free]

/-- An index under a pending rollover counter that is not more than half a wrap
    away. -/
theorem nextEst_pending {stream : Stream C A} {seq : UInt16} {e : Nat}
    (hplain : stream.firstKeys.isGcm = false) (hroc : stream.pendingRoc ≠ 0)
    (he : e = stream.pendingRoc.toNat * 2 ^ 16 + seq.toNat)
    (hahead : e ≤ stream.rtpRdbx.index + 0x8000) (hback : stream.rtpRdbx.index ≤ e + 0x8000) :
    stream.nextEst seq = (.ok, e, (e : Int) - stream.rtpRdbx.index) := by
  have hmedian : seqNumMedian = 0x8000 := rfl
  unfold nextEst getEstPktIndex srtpEstimateIndex
  rw [hplain, if_neg (by decide), if_pos hroc]
  simp only [← he]
  by_cases hgt : e > stream.rtpRdbx.index
  · rw [if_pos hgt, if_neg (by omega)]
  rw [if_neg hgt]
  by_cases hlt : e < stream.rtpRdbx.index
  · rw [if_pos hlt, if_neg (by omega)]
  · rw [if_neg hlt]

/-- Under a pending rollover counter, no packet gets an index of another
    one. -/
theorem roc_of_takeNext {stream stream' : Stream C A} {seq : UInt16} {e : Nat}
    (hplain : stream.firstKeys.isGcm = false) (hroc : stream.pendingRoc ≠ 0)
    (h : stream.takeNext seq = .ok (stream', e)) :
    e = stream.pendingRoc.toNat * 2 ^ 16 + seq.toNat := by
  have hest : (stream.getEstPktIndex seq).2.1 =
      stream.pendingRoc.toNat * 2 ^ 16 + seq.toNat := by
    unfold getEstPktIndex
    rw [if_pos hroc]
    simp only [srtpEstimateIndex]
    split
    · split <;> rfl
    · split
      · split <;> rfl
      · rfl
  unfold takeNext takeIndex at h
  rw [hplain, if_neg (by decide)] at h
  rw [← hest]
  split at h
  · rename_i heq
    rw [Except.ok.injEq, Prod.mk.injEq] at h
    rw [heq, ← h.2]
  · rename_i heq
    rw [heq]
    split at h
    · rw [Except.ok.injEq, Prod.mk.injEq] at h
      exact h.2.symm
    · split at h
      · exact absurd h (by simp only [reduceCtorEq, not_false_eq_true])
      · rw [Except.ok.injEq, Prod.mk.injEq] at h
        exact h.2.symm
  · exact absurd h (by simp only [reduceCtorEq, not_false_eq_true])

/-- The first packet of a run after the sequence number has wrapped goes back
    to the counter's first index. -/
theorem not_numbers_wrapped {stream : Stream C A} {seq : UInt16} {n e : Nat}
    (hplain : stream.firstKeys.isGcm = false) (hroc : stream.pendingRoc ≠ 0)
    (he : e ≠ stream.pendingRoc.toNat * 2 ^ 16 + seq.toNat) (hn : 0 < n) :
    ¬ stream.Numbers (consecutive seq n) e := by
  obtain ⟨n, rfl⟩ := Nat.exists_eq_succ_of_ne_zero (by omega : n ≠ 0)
  rintro ⟨stream', htake, -⟩
  rw [← firstKeys_congr (keying_claimDirection stream .srtpSender)] at hplain
  rw [← pendingRoc_claimDirection stream .srtpSender] at hroc he
  exact he (roc_of_takeNext hplain hroc htake)

/-- A run that starts at most half a wrap from the stored index. The counter
    stays pending, and the run keeps its numbers up to the wrap. -/
theorem numbers_pending (n : Nat) : ∀ {stream : Stream C A} {seq : UInt16} {e : Nat},
    stream.firstKeys.isGcm = false → stream.pendingRoc ≠ 0 →
    e = stream.pendingRoc.toNat * 2 ^ 16 + seq.toNat →
    e ≤ stream.rtpRdbx.index + 0x8000 → stream.rtpRdbx.index ≤ e + 0x8000 →
    (stream.Numbers (consecutive seq n) e ↔ n = 0 ∨
      (seq.toNat + n ≤ 2 ^ 16 ∧ stream.Free ((e : Int) - stream.rtpRdbx.index) n)) := by
  induction n with
  | zero => exact fun _ _ _ _ _ => ⟨fun _ => Or.inl rfl, fun _ => trivial⟩
  | succ n ih =>
      intro stream seq e hplain hroc he hahead hback
      have hseq := seq.toNat_lt
      have hseq' : (seq + 1).toNat = (seq.toNat + 1) % 2 ^ 16 := UInt16.toNat_add seq 1
      have hroclt := stream.pendingRoc.toNat_lt
      rw [consecutive, numbers_cons (nextEst_pending hplain hroc he hahead hback)
        (Q := n = 0 ∨ (seq.toNat + 1 + n ≤ 2 ^ 16 ∧ (0 < (e : Int) - stream.rtpRdbx.index ∨
          stream.Free ((e : Int) - stream.rtpRdbx.index + 1) n)))]
      · rw [free_succ]
        simp only [true_and, Nat.add_eq_zero_iff, Nat.one_ne_zero, and_false, false_or]
        constructor
        · rintro ⟨hadm, hzero | ⟨hle, hrest⟩⟩
          · exact ⟨by omega, hadm, Or.inr fun k hk => by omega⟩
          · exact ⟨by omega, hadm, hrest⟩
        · rintro ⟨hle, hadm, hrest⟩
          exact ⟨hadm, Or.inr ⟨by omega, hrest⟩⟩
      · intro stream' hmove
        have hplain' : stream'.firstKeys.isGcm = false := by
          rw [firstKeys_congr hmove.keying]
          exact hplain
        have hroc' : stream'.pendingRoc ≠ 0 := by
          rw [hmove.pendingRoc]
          exact hroc
        have hindex := hmove.index
        by_cases hwrap : seq.toNat + 1 < 2 ^ 16
        · have hnext : (e + 1 : Nat) - (stream'.rtpRdbx.index : Int) =
              if 0 < (e : Int) - stream.rtpRdbx.index then 1
              else (e : Int) - stream.rtpRdbx.index + 1 := by
            rw [hindex]
            unfold indexAdvance
            split <;> omega
          have hdist : -0x8000 ≤ (e + 1 : Nat) - (stream'.rtpRdbx.index : Int) ∧
              (e + 1 : Nat) - (stream'.rtpRdbx.index : Int) ≤ 0x8000 := by
            rw [hnext]
            split <;> omega
          rw [ih hplain' hroc' (by rw [hmove.pendingRoc]; omega) (by omega) (by omega), hnext,
            hmove.free, hseq', Nat.mod_eq_of_lt hwrap]
        · -- The next sequence number is zero, under the same counter.
          rcases Nat.eq_zero_or_pos n with hzero | hpos
          · rw [hzero]
            exact ⟨fun _ => Or.inl rfl, fun _ => trivial⟩
          · refine ⟨fun hnum => absurd hnum (not_numbers_wrapped hplain' hroc' ?_ hpos),
              fun hle => by omega⟩
            rw [hmove.pendingRoc]
            omega

/-- A run that starts far ahead. The first packet moves the database there and
    clears the counter. -/
theorem numbers_jump {stream : Stream C A} {seq : UInt16} {e n : Nat}
    (hplain : stream.firstKeys.isGcm = false) (hroc : stream.pendingRoc ≠ 0)
    (he : e = stream.pendingRoc.toNat * 2 ^ 16 + seq.toNat)
    (hahead : stream.rtpRdbx.index + 0x8000 < e) :
    stream.Numbers (consecutive seq n) e ↔ n = 0 ∨ e + n ≤ 2 ^ 48 := by
  have hseq := seq.toNat_lt
  have hroclt := stream.pendingRoc.toNat_lt
  cases n with
  | zero => exact ⟨fun _ => Or.inl rfl, fun _ => trivial⟩
  | succ n =>
      rcases claimDirection_eq stream .srtpSender with ⟨dir, hdir⟩
      have hplain' := hplain
      rw [← firstKeys_congr (keying_claimDirection stream .srtpSender)] at hplain'
      have hest : (stream.claimDirection .srtpSender).getEstPktIndex seq = (.pktIdxAdv, e, 0) := by
        rw [hdir]
        exact est_pending_ahead hroc he hahead
      have htake : (stream.claimDirection .srtpSender).takeNext seq =
          .ok ((stream.claimDirection .srtpSender).record true e 0, e) := by
        unfold takeNext takeIndex
        rw [hplain', if_neg (by decide), hest]
      generalize hnew : (stream.claimDirection .srtpSender).record true e 0 = new at htake
      have hindex : new.rtpRdbx.index = e := by
        rw [← hnew, index_record_ahead (by rw [rtpRdbx_claimDirection]; omega) (by omega)]
      have hpending : new.PlainGuess := by
        rw [← hnew]
        exact Or.inr rfl
      -- From here on the database guesses by itself.
      have hnear : seqNumMedian < new.rtpRdbx.index := by
        rw [hindex]
        exact Nat.lt_of_le_of_lt (Nat.le_add_left _ _) hahead
      have hlow : new.rtpRdbx.index % 2 ^ 16 = seq.toNat := by omega
      have hnext := Rdbx.estimateIndex_next hnear hlow
      have hfree : new.Free 1 n := fun k _ hle => by omega
      have hrest := @numbers_guess _ _ _ n new (seq + 1) (e + 1) hpending
      rw [hnext, hindex] at hrest
      simp only [hfree, and_true] at hrest
      rw [consecutive]
      constructor
      · rintro ⟨stream', htake', hnum⟩
        rw [htake, Except.ok.injEq, Prod.mk.injEq] at htake'
        rw [← htake'.1] at hnum
        right
        rcases hrest.mp hnum with hzero | hle
        · omega
        · omega
      · intro hle
        refine ⟨new, htake, hrest.mpr ?_⟩
        rcases Nat.eq_zero_or_pos n with hzero | hpos
        · exact Or.inl hzero
        · exact Or.inr ⟨by omega, by omega⟩

/-- A run that starts far behind. -/
theorem numbers_old {stream : Stream C A} {seq : UInt16} {e n : Nat}
    (hplain : stream.firstKeys.isGcm = false) (hroc : stream.pendingRoc ≠ 0)
    (he : e = stream.pendingRoc.toNat * 2 ^ 16 + seq.toNat)
    (hback : e + 0x8000 < stream.rtpRdbx.index) :
    stream.Numbers (consecutive seq n) e ↔ n = 0 := by
  cases n with
  | zero => exact ⟨fun _ => rfl, fun _ => trivial⟩
  | succ n =>
      refine ⟨?_, fun h => absurd h (Nat.succ_ne_zero n)⟩
      rintro ⟨stream', htake, -⟩
      rcases claimDirection_eq stream .srtpSender with ⟨dir, hdir⟩
      have hest : (stream.claimDirection .srtpSender).getEstPktIndex seq = (.pktIdxOld, e, 0) := by
        rw [hdir]
        exact est_pending_old hroc he hback
      unfold takeNext takeIndex at htake
      rw [firstKeys_congr (keying_claimDirection stream .srtpSender), hplain,
        if_neg (by decide), hest] at htake
      exact absurd htake (by simp only [reduceCtorEq, not_false_eq_true])

/-- A run of `n` packets keeps the rollover counter `roc` set before it, if the
    first one has the sequence number `seq`. -/
def KeepsRoc (stream : Stream C A) (roc : UInt32) (seq : UInt16) (n : Nat) : Prop :=
  let e := roc.toNat * 2 ^ 16 + seq.toNat
  n = 0 ∨
    if stream.firstKeys.isGcm = false ∧ roc ≠ 0 then
      -- far ahead, where the counter is used and cleared
      stream.rtpRdbx.index + 0x8000 < e ∧ e + n ≤ 2 ^ 48 ∨
      -- near the stored index, where it stays pending
      e ≤ stream.rtpRdbx.index + 0x8000 ∧ stream.rtpRdbx.index ≤ e + 0x8000 ∧
        seq.toNat + n ≤ 2 ^ 16 ∧ stream.Free ((e : Int) - stream.rtpRdbx.index) n
    else
      -- not looked at
      stream.rtpRdbx.Guesses e ∧ e + n ≤ 2 ^ 48 ∧ stream.Free (stream.rtpRdbx.distance e) n

/-- The three kinds of runs together. -/
theorem numbers_iff (stream : Stream C A) (roc : UInt32) (seq : UInt16) (n : Nat) :
    ({ stream with pendingRoc := roc } : Stream C A).Numbers (consecutive seq n)
      (roc.toNat * 2 ^ 16 + seq.toNat) ↔ stream.KeepsRoc roc seq n := by
  have hseq := seq.toNat_lt
  have hroclt := roc.toNat_lt
  unfold KeepsRoc
  simp only
  by_cases hused : stream.firstKeys.isGcm = false ∧ roc ≠ 0
  · rw [if_pos hused]
    by_cases hahead : stream.rtpRdbx.index + 0x8000 < roc.toNat * 2 ^ 16 + seq.toNat
    · have hjump := @numbers_jump C A _ { stream with pendingRoc := roc } seq
        (roc.toNat * 2 ^ 16 + seq.toNat) n hused.1 hused.2 rfl hahead
      rw [hjump]
      omega
    by_cases hback : roc.toNat * 2 ^ 16 + seq.toNat + 0x8000 < stream.rtpRdbx.index
    · have hold := @numbers_old C A _ { stream with pendingRoc := roc } seq
        (roc.toNat * 2 ^ 16 + seq.toNat) n hused.1 hused.2 rfl hback
      rw [hold]
      omega
    · have hnear := @numbers_pending C A _ n { stream with pendingRoc := roc } seq
        (roc.toNat * 2 ^ 16 + seq.toNat) hused.1 hused.2 rfl (Nat.le_of_not_lt hahead)
        (Nat.le_of_not_lt hback)
      rw [hnear]
      simp only [hahead, false_and, false_or, Nat.le_of_not_lt hahead, Nat.le_of_not_lt hback,
        true_and]
      rfl
  · rw [if_neg hused]
    have hplain : ({ stream with pendingRoc := roc } : Stream C A).PlainGuess := by
      rcases not_and_or.mp hused with hgcm | hroc
      · exact Or.inl ((Bool.not_eq_false _).mp hgcm)
      · exact Or.inr (not_not.mp hroc)
    have hlow : (roc.toNat * 2 ^ 16 + seq.toNat) % 2 ^ 16 = seq.toNat := by omega
    have hguess := Rdbx.guesses_iff stream.rtpRdbx hlow (by omega)
    have hdist := Rdbx.distance_of_guess stream.rtpRdbx seq
    rw [numbers_guess n hplain, ← hguess]
    refine or_congr_right ⟨?_, ?_⟩
    · rintro ⟨hfirst, hle, hfree⟩
      simp only [hfirst] at hdist
      exact ⟨hfirst, hle, hdist ▸ hfree⟩
    · rintro ⟨hfirst, hle, hfree⟩
      rw [hfirst] at hdist
      exact ⟨hfirst, hle, hdist.symm ▸ hfree⟩

end Stream

variable [CipherType C] [AuthType A]

/-- `srtp_protect`. -/
def srtpProtect (s : Session C A) (pkt : Octets) :
    Session C A × Except SrtpErrStatus (Protected C) :=
  srtpProtectMki s pkt false 0

/-- What a run of packets to send returns: the index of each packet, or the
    status it was refused with. -/
def sentIndices (s : Session C A) (pkts : List Octets) : List (Except SrtpErrStatus Nat) :=
  (Lib.run srtpProtect s pkts).map fun call => call.output.map Protected.est

/-- Nothing but its index can be wrong with a packet: its header is valid, and
    ciphers and authentication functions do their work. -/
structure Sendable (stream : Stream C A) (ssrc : UInt32) (pkt : Octets) : Prop where
  ssrc_eq : hdrSsrc pkt = ssrc
  valid : validateRtpHeader pkt = .ok ()
  sealed : ∀ est, ∃ o, sealPacket stream.keying stream.firstKeys pkt false est = .ok o

section Runs

variable {s : Session C A} {stream stream' : Stream C A} {ssrc : UInt32} {pkt : Octets}

/-- A packet to send whose index is refused. -/
theorem srtpProtect_refused {e : SrtpErrStatus} (hget : s.getStream ssrc = some stream)
    (hsend : Sendable stream ssrc pkt)
    (hlimit : (s.limits stream.firstKeys.ref).update.2 ≠ .hardLimit)
    (htake : (stream.claimDirection .srtpSender).takeNext (hdrSeq pkt) = .error e) :
    (srtpProtect s pkt).2 = .error e := by
  have hkeys := Stream.firstKeys_congr (Stream.keying_claimDirection stream .srtpSender)
  have hstart := Nat.not_lt.mpr (encStart_le hsend.valid)
  unfold Stream.takeNext at htake
  unfold srtpProtect srtpProtectMki Session.outgoing
  simp only [hsend.valid, hsend.ssrc_eq, hget, Stream.keysAt, Bool.false_eq_true, if_false]
  rw [hkeys] at htake ⊢
  by_cases hgcm : stream.firstKeys.isGcm = true
  · rw [if_pos hgcm] at htake ⊢
    unfold protectAead finishProtect
    rw [htake]
    simp only [Session.useKey, hstart, and_false, if_false]
    rw [if_neg (show ¬ ((s.putStream _).limits _).update.2 = .hardLimit from hlimit)]
  · rw [if_neg hgcm] at htake ⊢
    unfold protectPlain finishProtect
    rw [htake]
    simp only [Session.useKey, hstart, and_false, if_false]
    rw [if_neg (show ¬ ((s.putStream _).limits _).update.2 = .hardLimit from hlimit)]

/-- A packet to send whose index is taken. -/
theorem srtpProtect_sent {est : Nat} (hget : s.getStream ssrc = some stream)
    (hsend : Sendable stream ssrc pkt)
    (hlimit : (s.limits stream.firstKeys.ref).update.2 ≠ .hardLimit)
    (htake : (stream.claimDirection .srtpSender).takeNext (hdrSeq pkt) = .ok (stream', est)) :
    (srtpProtect s pkt).2.map Protected.est = .ok est ∧
      (srtpProtect s pkt).1.getStream ssrc = some stream' ∧
      (srtpProtect s pkt).1.limits stream.firstKeys.ref =
        (s.limits stream.firstKeys.ref).update.1 := by
  have hkeys := Stream.firstKeys_congr (Stream.keying_claimDirection stream .srtpSender)
  have hout : s.outgoing (hdrSsrc pkt) true =
      .ok (s.putStream (stream.claimDirection .srtpSender), stream.claimDirection .srtpSender) := by
    unfold Session.outgoing
    rw [hsend.ssrc_eq, hget]
  have htaken := getStream_taken hout htake ssrc
  rw [if_pos hsend.ssrc_eq] at htaken
  have hstart := Nat.not_lt.mpr (encStart_le hsend.valid)
  rcases hsend.sealed est with ⟨o, ho⟩
  have hfinish : ∀ portion build, build est = Except.ok o →
      finishProtect (s.putStream (stream.claimDirection .srtpSender)) stream.firstKeys pkt portion
        (.ok (stream', est)) build =
      (((s.putStream (stream.claimDirection .srtpSender)).useKey
          stream.firstKeys).1.putStream stream',
        .ok { packet := o.packet, est := est, ref := stream.firstKeys.ref, iv := o.iv
              cipher := o.cipher }) := by
    intro portion build hbuild
    unfold finishProtect
    simp only [Session.useKey, hstart, and_false, if_false, hbuild]
    rw [if_neg (show ¬ ((s.putStream _).limits _).update.2 = .hardLimit from hlimit)]
  have hstep : srtpProtect s pkt =
      (((s.putStream (stream.claimDirection .srtpSender)).useKey
          stream.firstKeys).1.putStream stream',
        .ok { packet := o.packet, est := est, ref := stream.firstKeys.ref, iv := o.iv
              cipher := o.cipher }) := by
    unfold Stream.takeNext at htake
    unfold sealPacket at ho
    unfold srtpProtect srtpProtectMki
    simp only [hsend.valid, hout, Stream.keysAt, Bool.false_eq_true, if_false]
    rw [hkeys] at htake ⊢
    by_cases hgcm : stream.firstKeys.isGcm = true
    · rw [if_pos hgcm] at htake ho ⊢
      unfold protectAead
      rw [htake, Stream.keying_claimDirection]
      exact hfinish _ _ ho
    · rw [if_neg hgcm] at htake ho ⊢
      unfold protectPlain
      rw [htake, Stream.keying_claimDirection]
      exact hfinish _ _ ho
  rw [hstep]
  refine ⟨rfl, ?_, ?_⟩
  · exact htaken
  · exact if_pos rfl

theorem Sendable.congr (h : Sendable stream ssrc pkt) (hkeying : stream'.keying = stream.keying) :
    Sendable stream' ssrc pkt where
  ssrc_eq := h.ssrc_eq
  valid := h.valid
  sealed := by
    rw [hkeying, Stream.firstKeys_congr hkeying]
    exact h.sealed

omit [AuthType A] in
/-- Taking an index changes no keying. -/
theorem keying_takeNext {est : Nat}
    (h : (stream.claimDirection .srtpSender).takeNext (hdrSeq pkt) = .ok (stream', est)) :
    stream'.keying = stream.keying :=
  (takesIndex_frame h).2.trans (Stream.keying_claimDirection stream _)

/-- A run of a session is a run of the stream, if nothing but the indices can
    be wrong and the key lasts. -/
theorem sentIndices_iff (pkts : List Octets) : ∀ {s : Session C A} {stream : Stream C A} {e : Nat},
    s.getStream ssrc = some stream → (∀ pkt ∈ pkts, Sendable stream ssrc pkt) →
    pkts.length < (s.limits stream.firstKeys.ref).numLeft.toNat →
    (sentIndices s pkts = (List.range' e pkts.length).map .ok ↔
      stream.Numbers (pkts.map hdrSeq) e) := by
  induction pkts with
  | nil => exact fun _ _ _ => ⟨fun _ => trivial, fun _ => rfl⟩
  | cons pkt pkts ih =>
      intro s stream e hget hsend hleft
      rw [List.length_cons] at hleft
      have hpkt := hsend pkt List.mem_cons_self
      have hlimit : (s.limits stream.firstKeys.ref).update.2 ≠ .hardLimit := by
        rw [ne_eq, KeyLimit.update_hard_iff]
        omega
      have hcons : sentIndices s (pkt :: pkts) = (srtpProtect s pkt).2.map Protected.est ::
          sentIndices (srtpProtect s pkt).1 pkts := rfl
      rw [hcons, List.length_cons, List.range'_succ, List.map_cons, List.map_cons,
        List.cons.injEq, Stream.Numbers]
      cases htake : (stream.claimDirection .srtpSender).takeNext (hdrSeq pkt) with
      | error err =>
          rw [srtpProtect_refused hget hpkt hlimit htake]
          simp only [Except.map, reduceCtorEq, false_and, exists_false]
      | ok r =>
          have hsent := srtpProtect_sent hget hpkt hlimit htake
          have hkeying := keying_takeNext htake
          have hkeys := Stream.firstKeys_congr hkeying
          have hcount := KeyLimit.toNat_update (s.limits stream.firstKeys.ref)
          have hlt := (s.limits stream.firstKeys.ref).numLeft.toNat_lt
          have hrest := @ih (srtpProtect s pkt).1 r.1 (e + 1) hsent.2.1
            (fun p hp => (hsend p (List.mem_cons_of_mem _ hp)).congr hkeying)
            (by rw [hkeys, hsent.2.2, hcount]; omega)
          rw [hsent.1, hrest]
          simp only [Except.ok.injEq]
          constructor
          · rintro ⟨he, hnum⟩
            exact ⟨r.1, by rw [← he], hnum⟩
          · rintro ⟨stream', hr, hnum⟩
            rw [hr]
            exact ⟨rfl, hnum⟩

end Runs

/-- Which runs keep a rollover counter that was set before them: they get the
    indices that follow it, one by one, and no packet is refused. -/
theorem roc_tracked {s s₁ : Session C A} {stream : Stream C A} {ssrc roc : UInt32} {seq : UInt16}
    {pkts : List Octets} (hget : s.getStream ssrc = some stream)
    (hset : s.setStreamRoc ssrc roc = (s₁, .ok ()))
    (hseqs : pkts.map hdrSeq = consecutive seq pkts.length)
    (hsend : ∀ pkt ∈ pkts, Sendable stream ssrc pkt)
    (hleft : pkts.length < (s.limits stream.firstKeys.ref).numLeft.toNat) :
    sentIndices s₁ pkts =
        (List.range' (roc.toNat * 2 ^ 16 + seq.toNat) pkts.length).map .ok ↔
      stream.KeepsRoc roc seq pkts.length := by
  have hset' : s₁ = s.putStream { stream with pendingRoc := roc } := by
    unfold Session.setStreamRoc at hset
    rw [hget] at hset
    exact (Prod.mk.inj hset).1.symm
  have hpending := Session.getStream_setStreamRoc s ssrc roc ssrc
  rw [if_pos rfl, hget, Option.map_some, hset] at hpending
  have hrun := @sentIndices_iff C A _ _ ssrc pkts s₁ { stream with pendingRoc := roc }
    (roc.toNat * 2 ^ 16 + seq.toNat) hpending (fun pkt hpkt => (hsend pkt hpkt).congr rfl)
    (by rw [hset']; exact hleft)
  rw [hrun, hseqs]
  exact stream.numbers_iff roc seq pkts.length

section Samples

/-- Two packets on either side of a wrap. -/
def wrapPackets : List Octets := [samplePacket 0xff 0xff [], samplePacket 0 0 []]

theorem sendable_wrapPackets :
    ∀ pkt ∈ wrapPackets, Sendable (sampleStream .aesIcm128) 1 pkt := by
  intro pkt hpkt
  simp only [wrapPackets, List.mem_cons, List.not_mem_nil, or_false] at hpkt
  rcases hpkt with rfl | rfl
  · exact ⟨by decide, by decide, fun est => ⟨_, rfl⟩⟩
  · exact ⟨by decide, by decide, fun est => ⟨_, rfl⟩⟩

/-- A counter far ahead is kept past the wrap. -/
theorem roc_tracked_jump :
    sentIndices ((sampleSession .aesIcm128).setStreamRoc 1 1).1 wrapPackets =
        (List.range' ((1 : UInt32).toNat * 2 ^ 16 + (0xffff : UInt16).toNat)
          wrapPackets.length).map .ok ↔
      (sampleStream .aesIcm128).KeepsRoc 1 0xffff wrapPackets.length :=
  @roc_tracked _ _ _ _ (sampleSession .aesIcm128) _ (sampleStream .aesIcm128) 1 1 0xffff
    wrapPackets rfl rfl (by decide) sendable_wrapPackets (by decide)

/-- A session whose stream has sent index `0x1fff0`. -/
def advancedSession : Session KeystreamCipher FixedAuth :=
  (srtpProtect ((sampleSession .aesIcm128).setStreamRoc 1 1).1 (samplePacket 0xff 0xf0 [])).1

/-- A counter near the stored index is not cleared, and is in the way when the
    sequence number wraps. -/
theorem roc_lost :
    ¬ ∀ (s s₁ : Session KeystreamCipher FixedAuth) (stream : Stream KeystreamCipher FixedAuth)
      (ssrc roc : UInt32) (seq : UInt16) (pkts : List Octets), s.getStream ssrc = some stream →
      s.setStreamRoc ssrc roc = (s₁, .ok ()) → pkts.map hdrSeq = consecutive seq pkts.length →
      (∀ pkt ∈ pkts, Sendable stream ssrc pkt) →
      pkts.length < (s.limits stream.firstKeys.ref).numLeft.toNat →
      sentIndices s₁ pkts =
        (List.range' (roc.toNat * 2 ^ 16 + seq.toNat) pkts.length).map .ok := by
  intro h
  have hget : ∃ stream, advancedSession.getStream 1 = some stream ∧
      stream.keying = (sampleStream .aesIcm128).keying := ⟨_, rfl, rfl⟩
  rcases hget with ⟨stream, hget, hkeying⟩
  have hrun := h advancedSession (advancedSession.setStreamRoc 1 1).1 stream 1 1 0xffff wrapPackets hget rfl
    (by decide)
    (fun pkt hpkt => (sendable_wrapPackets pkt hpkt).congr hkeying)
    (by rw [Stream.firstKeys_congr hkeying]; decide +kernel)
  have hlost : sentIndices (advancedSession.setStreamRoc 1 1).1 wrapPackets =
      [.ok 0x1ffff, .error .pktIdxOld] := by decide +kernel
  rw [hlost] at hrun
  exact absurd hrun (by decide)

end Samples

end Srtp

end CryptoOpal

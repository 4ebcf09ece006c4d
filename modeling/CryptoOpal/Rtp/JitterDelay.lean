import CryptoOpal.Rtp.JitterOrder

/-!
# The Limits of the Jitter Delay

`SetDelay` gives the jitter buffer a minimum and a maximum for its delay, in
units of timestamps. All changes of the delay go through
`AdjustCurrentJitterDelay`, which keeps it at two average frame times or more,
even where that is more than the maximum. The frame time is the difference of
two timestamps. A long one takes the delay over the maximum. A negative one,
of frames that come out of order, is taken for a large number; two of it are
then a negative delay again, and what is to shrink the delay goes down to
there.

So the delay stays in its limits when no frame time is taken over of which two
are more than the maximum (`FrameTimeFits`), and nothing shrinks the delay
below the minimum while the frame time is negative (`ReadsInside`).

## Main definitions

* `setDelay`: `SetDelay`.
* `DelayCall`, `delayStep`: A call of the buffer, or of `SetDelay`.
* `InLimits`: The delay is in its limits.
* `DelaysFit`: The condition on a buffer and a call.

## Theorems

* `bounded_adjust`: One adjustment.
* `bounded_write`, `bounded_read`: One call.
* `delay_in_limits`: Every run.
-/

namespace CryptoOpal

namespace Rtp

open Lib (run Along)

namespace JitterBuffer

/-- `SetDelay`. -/
def setDelay (s : JitterBuffer) (minJitter maxJitter : UInt32) : JitterBuffer :=
  ({ s with
      minJitterDelay := minJitter
      maxJitterDelay := maxJitter
      currentJitterDelay := minJitter.toInt32
      packetsTooLate := 0
      bufferOverruns := 0
      consecutiveMarkerBits := 0
      lastSyncSource := 0 } : JitterBuffer).reset

/-- The larger of the configured delays. -/
def upperDelay (s : JitterBuffer) : Nat := max s.minJitterDelay.toNat s.maxJitterDelay.toNat

/-- The delay is in its limits. -/
def InLimits (s : JitterBuffer) : Prop :=
  (s.minJitterDelay.toNat : Int) ≤ s.currentJitterDelay.toInt ∧
    s.currentJitterDelay.toInt ≤ s.upperDelay

instance (s : JitterBuffer) : Decidable s.InLimits := inferInstanceAs (Decidable (_ ∧ _))

/-- The frame time that a frame shows is taken over. -/
def TakesFrameTime (s : JitterBuffer) (frame : Frame) : Prop :=
  s.Takes frame ∧ ¬ s.MarkerResets frame ∧ s.lastTimestamp ≠ noTimestamp ∧
    ¬ s.TimestampResets frame ∧ (s.averageFrameTime = 0 ∨
      s.averageFrameTime > (frame.timestamp - s.lastTimestamp).toInt32.toUInt32)

instance (s : JitterBuffer) (frame : Frame) : Decidable (s.TakesFrameTime frame) :=
  inferInstanceAs (Decidable (_ ∧ _))

/-- Two of a frame time that is taken over are not more than the larger one of the delays. -/
def FrameTimeFits (s : JitterBuffer) (frame : Frame) : Prop :=
  s.TakesFrameTime frame → 2 * (frame.timestamp - s.lastTimestamp).toInt32.toInt ≤ s.upperDelay

instance (s : JitterBuffer) (frame : Frame) : Decidable (s.FrameTimeFits frame) :=
  inferInstanceAs (Decidable (_ → _))

/-- An adjustment does not go below the minimum while the frame time is negative. -/
def AdjustsInside (s : JitterBuffer) (delta : Int32) : Prop :=
  s.leastDelay < 0 → (s.minJitterDelay.toNat : Int) ≤ (s.currentJitterDelay + delta).toInt

instance (s : JitterBuffer) (delta : Int32) : Decidable (s.AdjustsInside delta) :=
  inferInstanceAs (Decidable (_ → _))

/-- The buffer has been empty for so long that the delay is to shrink. -/
def EmptyShrinks (s : JitterBuffer) (playOut : UInt32) : Prop :=
  s.frames = [] ∧ playOut - s.bufferEmptiedTime > s.silenceShrinkPeriod

instance (s : JitterBuffer) (playOut : UInt32) : Decidable (s.EmptyShrinks playOut) :=
  inferInstanceAs (Decidable (_ ∧ _))

/-- The buffer has been full for so long that the delay is to shrink. -/
def FilledShrinks (s : JitterBuffer) (playOut : UInt32) : Prop :=
  s.frames ≠ [] ∧ (s.afterLow playOut).2 = false ∧
    ¬ (s.bufferFilledTime = 0 ∨ s.frames.length < s.framesInBuffer) ∧
    playOut - s.bufferFilledTime > s.jitterShrinkPeriod

instance (s : JitterBuffer) (playOut : UInt32) : Decidable (s.FilledShrinks playOut) :=
  inferInstanceAs (Decidable (_ ∧ _))

/-- A reading keeps the delay in its limits while the frame time is negative: where it shrinks the
delay, and in that it lets it grow for late frames. -/
structure ReadsInside (s : JitterBuffer) (playOut : UInt32) : Prop where
  empty : s.EmptyShrinks playOut → s.AdjustsInside s.silenceShrinkTime
  filled : s.FilledShrinks playOut → s.AdjustsInside s.jitterShrinkTime
  late : s.frames ≠ [] → s.leastDelay < 0 → 0 ≤ s.jitterGrowTime.toInt ∧
    s.upperDelay + s.jitterGrowTime.toInt < 2147483648

instance (s : JitterBuffer) (playOut : UInt32) : Decidable (s.ReadsInside playOut) :=
  decidable_of_iff
    ((s.EmptyShrinks playOut → s.AdjustsInside s.silenceShrinkTime) ∧
      (s.FilledShrinks playOut → s.AdjustsInside s.jitterShrinkTime) ∧
      (s.frames ≠ [] → s.leastDelay < 0 → 0 ≤ s.jitterGrowTime.toInt ∧
        s.upperDelay + s.jitterGrowTime.toInt < 2147483648))
    ⟨fun h => ⟨h.1, h.2.1, h.2.2⟩, fun h => ⟨h.empty, h.filled, h.late⟩⟩

end JitterBuffer

/-- A call of the jitter buffer, or a change of its limits. -/
inductive DelayCall where
  | setDelay (minJitter maxJitter : UInt32)
  | call (call : JitterCall)
  deriving DecidableEq

namespace JitterBuffer

/-- The buffer after a call. -/
def delayStep (s : JitterBuffer) : DelayCall → JitterBuffer × Unit
  | .setDelay minJitter maxJitter => (s.setDelay minJitter maxJitter, ())
  | .call call => ((s.step call).1, ())

/-- The condition on a buffer and a call. Delays are `int`s. -/
def DelaysFit (s : JitterBuffer) : DelayCall → Prop
  | .setDelay minJitter maxJitter => max minJitter.toNat maxJitter.toNat < 2147483648
  | .call (.write frame) => s.FrameTimeFits frame
  | .call (.read playOut) => s.ReadsInside playOut

instance (s : JitterBuffer) (call : DelayCall) : Decidable (s.DelaysFit call) := by
  rcases call with _ | (_ | _) <;> unfold DelaysFit <;> infer_instance

/-- The delay is in its limits, these are `int`s, and two frame times are no more than the upper
one. -/
structure Bounded (s : JitterBuffer) : Prop where
  small : s.upperDelay < 2147483648
  limits : s.InLimits
  least : s.leastDelay.toInt ≤ s.upperDelay

section Adjusting

variable {s t : JitterBuffer} {delta : Int32}

/-- An unsigned number, as an `int`. -/
theorem toInt_toInt32 (u : UInt32) : u.toInt32.toInt =
    if u.toNat < 2147483648 then (u.toNat : Int) else (u.toNat : Int) - 4294967296 := by
  have h := BitVec.toInt_eq_toNat_cond u.toBitVec
  change u.toInt32.toInt = _ at h
  rw [h]
  change (if 2 * u.toNat < 4294967296 then _ else _) = _
  split
  · rw [if_pos (by omega)]
    rfl
  · rw [if_neg (by omega)]
    rfl

theorem toNat_max (a b : UInt32) : (max a b).toNat = max a.toNat b.toNat := by
  change (if a ≤ b then b else a).toNat = _
  split
  · rename_i h
    rw [UInt32.le_iff_toNat_le] at h
    omega
  · rename_i h
    rw [UInt32.le_iff_toNat_le] at h
    omega

theorem toInt_greatestDelay (h : s.upperDelay < 2147483648) :
    s.greatestDelay.toInt = s.upperDelay := by
  rw [greatestDelay, toInt_toInt32, toNat_max]
  exact if_pos h

/-- The least delay is the minimum or more, unless it is negative. -/
theorem le_leastDelay (h : 0 ≤ s.leastDelay.toInt) :
    (s.minJitterDelay.toNat : Int) ≤ s.leastDelay.toInt := by
  have hmax := toInt_toInt32 (max s.minJitterDelay (2 * s.averageFrameTime))
  rw [toNat_max] at hmax
  change s.leastDelay.toInt = _ at hmax
  have hlt := UInt32.toNat_lt s.minJitterDelay
  split at hmax
  · omega
  · have hlt' := UInt32.toNat_lt (2 * s.averageFrameTime)
    omega

/-- Without a frame time, the least delay is the minimum. -/
theorem toInt_leastDelay_of_zero (h : s.averageFrameTime = 0)
    (hsmall : s.upperDelay < 2147483648) : s.leastDelay.toInt = s.minJitterDelay.toNat := by
  have hmin : s.minJitterDelay.toNat ≤ s.upperDelay := Nat.le_max_left _ _
  rw [leastDelay, h, toInt_toInt32, toNat_max]
  change (if max s.minJitterDelay.toNat 0 < 2147483648 then
    ((max s.minJitterDelay.toNat 0 : Nat) : Int) else _) = _
  rw [Nat.max_eq_left (Nat.zero_le _), if_pos (Nat.lt_of_le_of_lt hmin hsmall)]

/-- The bounds are about a part of the buffer. -/
theorem Bounded.congr (h : Bounded s) (hmin : t.minJitterDelay = s.minJitterDelay)
    (hmax : t.maxJitterDelay = s.maxJitterDelay)
    (hcurrent : t.currentJitterDelay = s.currentJitterDelay)
    (htime : t.averageFrameTime = s.averageFrameTime ∨ t.averageFrameTime = 0) : Bounded t := by
  have hupper : t.upperDelay = s.upperDelay := by rw [upperDelay, upperDelay, hmin, hmax]
  refine ⟨by rw [hupper]; exact h.small, ?_, ?_⟩
  · rw [InLimits, hupper, hcurrent, hmin]
    exact h.limits
  · rcases htime with hsame | hzero
    · rw [hupper, leastDelay, hmin, hsame]
      exact h.least
    · have hsmall : t.upperDelay < 2147483648 := by
        rw [hupper]
        exact h.small
      rw [toInt_leastDelay_of_zero hzero hsmall]
      exact Int.ofNat_le.2 (Nat.le_max_left _ _)

/-- The delay that an adjustment comes to. -/
theorem clamp_inside {d : Int32} (h : Bounded s)
    (hinside : s.leastDelay < 0 → (s.minJitterDelay.toNat : Int) ≤ d.toInt) :
    (s.minJitterDelay.toNat : Int) ≤ (if d < s.leastDelay then s.leastDelay
        else if d > s.greatestDelay then s.greatestDelay else d).toInt ∧
      (if d < s.leastDelay then s.leastDelay
        else if d > s.greatestDelay then s.greatestDelay else d).toInt ≤ s.upperDelay := by
  have hgreatest := toInt_greatestDelay h.small
  have hleast := h.least
  have hmin : s.minJitterDelay.toNat ≤ s.upperDelay := Nat.le_max_left _ _
  have hzero : (0 : Int32).toInt = 0 := rfl
  rw [Int32.lt_iff_toInt_lt, hzero] at hinside
  rcases Int.lt_or_le s.leastDelay.toInt 0 with hneg | hpos
  · -- The least delay is of no use: it is the sum that does not go below the minimum.
    have hd := hinside hneg
    split
    · rename_i hlt
      rw [Int32.lt_iff_toInt_lt] at hlt
      omega
    · split
      · omega
      · rename_i hle
        rw [gt_iff_lt, Int32.lt_iff_toInt_lt] at hle
        omega
  · have hlo := le_leastDelay hpos
    split
    · omega
    · rename_i hge
      rw [Int32.lt_iff_toInt_lt] at hge
      split
      · omega
      · rename_i hle
        rw [gt_iff_lt, Int32.lt_iff_toInt_lt] at hle
        omega

/-- One adjustment. -/
theorem bounded_adjust (h : Bounded s) (hinside : s.AdjustsInside delta) :
    Bounded (s.adjustCurrentJitterDelay delta).1 := by
  unfold adjustCurrentJitterDelay
  split
  · exact h
  · split
    · exact h
    · exact ⟨h.small, clamp_inside (s := s) h hinside, h.least⟩

end Adjusting

section Calls

variable {s : JitterBuffer}

theorem bounded_setDelay {minJitter maxJitter : UInt32}
    (h : max minJitter.toNat maxJitter.toNat < 2147483648) :
    Bounded (s.setDelay minJitter maxJitter) := by
  have hmin : minJitter.toInt32.toInt = minJitter.toNat := by
    rw [toInt_toInt32, if_pos (by omega)]
  have hleast : (s.setDelay minJitter maxJitter).leastDelay = minJitter.toInt32 := by
    rw [leastDelay]
    change (max minJitter (2 * 0)).toInt32 = _
    congr 1
    refine UInt32.toNat_inj.1 ?_
    rw [toNat_max]
    change max minJitter.toNat 0 = _
    omega
  refine ⟨h, ⟨?_, ?_⟩, ?_⟩
  · exact Int.le_of_eq hmin.symm
  · change minJitter.toInt32.toInt ≤ ((max minJitter.toNat maxJitter.toNat : Nat) : Int)
    omega
  · rw [hleast]
    change minJitter.toInt32.toInt ≤ ((max minJitter.toNat maxJitter.toNat : Nat) : Int)
    omega

/-- A marker: the buffer is reset before the delay shrinks. -/
theorem bounded_checkMarker {frame : Frame} (h : Bounded s) : Bounded (s.checkMarker frame) := by
  unfold checkMarker
  split
  · split
    · have hreset : Bounded ({ s with
          consecutiveMarkerBits := s.consecutiveMarkerBits + 1 } : JitterBuffer).reset :=
        h.congr rfl rfl rfl (Or.inr rfl)
      refine bounded_adjust hreset fun hneg => ?_
      -- There is no frame time now, so the least delay is not negative.
      have hleast := toInt_leastDelay_of_zero (s := ({ s with
        consecutiveMarkerBits := s.consecutiveMarkerBits + 1 } : JitterBuffer).reset) rfl h.small
      rw [Int32.lt_iff_toInt_lt, hleast] at hneg
      exact absurd hneg (Int.not_lt.2 (Int.natCast_nonneg _))
    · exact h.congr rfl rfl rfl (Or.inl rfl)
  · split
    · exact h.congr rfl rfl rfl (Or.inl rfl)
    · exact h

/-- The least delay with a new frame time. A negative one gives a negative delay again. -/
theorem leastDelay_le_of_frameTime {frameTime : Int32}
    (htime : s.averageFrameTime = frameTime.toUInt32) (hsmall : s.upperDelay < 2147483648)
    (hlo : -16000 ≤ frameTime.toInt) (hhi : 2 * frameTime.toInt ≤ s.upperDelay) :
    s.leastDelay.toInt ≤ s.upperDelay := by
  have hmin : s.minJitterDelay.toNat ≤ s.upperDelay := Nat.le_max_left _ _
  have hwrap := toInt_toInt32 frameTime.toUInt32
  rw [Int32.toInt32_toUInt32] at hwrap
  have hdouble : (2 * frameTime.toUInt32).toNat = 2 * frameTime.toUInt32.toNat % 4294967296 :=
    UInt32.toNat_mul _ _
  have hlt := UInt32.toNat_lt frameTime.toUInt32
  rw [leastDelay, htime, toInt_toInt32, toNat_max, hdouble]
  split at hwrap
  · split
    · omega
    · omega
  · -- A negative time, of which two are negative too.
    rw [if_neg (by omega)]
    omega

theorem bounded_checkFrameTime {frameTime : Int32} (h : Bounded s)
    (hfits : ¬ (frameTime < -16000 ∨ frameTime > 4800000) →
      (s.averageFrameTime = 0 ∨ s.averageFrameTime > frameTime.toUInt32) →
      2 * frameTime.toInt ≤ s.upperDelay) : Bounded (s.checkFrameTime frameTime) := by
  unfold checkFrameTime
  split
  · exact h.congr rfl rfl rfl (Or.inr rfl)
  · rename_i hnear
    split
    · rename_i htakes
      have hlo : ¬ frameTime.toInt < -16000 := fun hlt =>
        hnear (Or.inl (Int32.lt_iff_toInt_lt.2 hlt))
      have hleast := leastDelay_le_of_frameTime (s := { s with
        averageFrameTime := frameTime.toUInt32 }) rfl h.small (Int.not_lt.1 hlo)
        (hfits hnear htakes)
      refine bounded_adjust ⟨h.small, h.limits, hleast⟩ fun _ => ?_
      -- The delay itself is not changed by this adjustment.
      have hsame : s.currentJitterDelay + 0 = s.currentJitterDelay := Int32.add_zero _
      change _ ≤ (s.currentJitterDelay + 0).toInt
      rw [hsame]
      exact h.limits.1
    · exact h

/-- The call of `WriteData` up to the insertion. -/
theorem bounded_beforeInsert {frame : Frame} (htakes : s.Takes frame) (h : Bounded s)
    (hfits : s.FrameTimeFits frame) : Bounded (s.beforeInsert frame) := by
  have hmarker := @bounded_checkMarker s frame h
  have htimestamp : Bounded ((s.checkMarker frame).checkTimestamp frame) := by
    by_cases hresets : s.MarkerResets frame
    · -- There is no timestamp to compare with after a reset.
      rw [checkTimestamp, if_pos (checkMarker_of_resets hresets).2.2.2]
      exact hmarker
    · rcases checkMarker_of_not hresets with ⟨n, hn⟩
      rw [hn] at hmarker ⊢
      unfold checkTimestamp
      split
      · exact hmarker
      · rename_i hlast
        exact bounded_checkFrameTime hmarker fun hnear hsmaller =>
          hfits ⟨htakes, hresets, hlast, fun habrupt => hnear habrupt.2, hsmaller⟩
  unfold beforeInsert checkSyncSource
  split
  · exact htimestamp.congr rfl rfl rfl (Or.inr rfl)
  · exact htimestamp.congr rfl rfl rfl (Or.inl rfl)

/-- A call of `WriteData`. -/
theorem bounded_write {frame : Frame} (h : Bounded s) (hfits : s.FrameTimeFits frame) :
    Bounded (s.writeData frame).1 := by
  unfold writeData
  split
  · exact h
  · rename_i hsize
    split
    · exact h
    · rename_i hroom
      have htakes : s.Takes frame := ⟨Nat.le_of_not_lt hsize, Nat.le_of_not_lt hroom⟩
      exact (bounded_beforeInsert htakes h hfits).congr rfl rfl rfl (Or.inl rfl)

theorem bounded_readEmpty {playOut : UInt32} (hempty : s.frames = []) (h : Bounded s)
    (hinside : s.EmptyShrinks playOut → s.AdjustsInside s.silenceShrinkTime) :
    Bounded (s.readEmpty playOut) := by
  unfold readEmpty
  split
  · rename_i hshrinks
    exact (bounded_adjust h (hinside ⟨hempty, hshrinks.1⟩)).congr rfl rfl rfl (Or.inl rfl)
  · exact h

theorem bounded_afterLow {playOut : UInt32} (h : Bounded s) :
    Bounded (s.afterLow playOut).1 := by
  rcases afterLow_spec s playOut with ⟨t, d, hlow⟩
  rw [hlow]
  exact h.congr rfl rfl rfl (Or.inl rfl)

theorem bounded_checkFilled {playOut : UInt32} (h : Bounded s)
    (hinside : ¬ (s.bufferFilledTime = 0 ∨ s.frames.length < s.framesInBuffer) →
      playOut - s.bufferFilledTime > s.jitterShrinkPeriod → s.AdjustsInside s.jitterShrinkTime) :
    Bounded (s.checkFilled playOut) := by
  unfold checkFilled
  split
  · exact h.congr rfl rfl rfl (Or.inl rfl)
  · rename_i hfull
    split
    · rename_i hlong
      have hfilled : Bounded { s with bufferFilledTime := playOut } :=
        h.congr rfl rfl rfl (Or.inl rfl)
      have hadjust := @bounded_adjust _ s.jitterShrinkTime hfilled (hinside hfull hlong)
      unfold shrinkDelay
      split
      · exact hadjust.congr rfl rfl rfl (Or.inl rfl)
      · exact hadjust
    · exact h

/-- The loop over the late frames lets the delay grow. -/
theorem bounded_dropLate {playOut : UInt32} {frames : List Frame} (h : Bounded s)
    (hgrow : s.leastDelay < 0 → 0 ≤ s.jitterGrowTime.toInt ∧
      s.upperDelay + s.jitterGrowTime.toInt < 2147483648) :
    Bounded (dropLate playOut s frames).1 := by
  induction frames generalizing s with
  | nil => exact h.congr rfl rfl rfl (Or.inl rfl)
  | cons oldest rest ih =>
      rw [dropLate]
      split
      · split
        · exact h.congr rfl rfl rfl (Or.inr rfl)
        · have hcount : Bounded s.countLate := by
            have hcounted : Bounded { s with
                consecutiveLatePackets := s.consecutiveLatePackets + 1
                packetsTooLate := s.packetsTooLate + 1 } := h.congr rfl rfl rfl (Or.inl rfl)
            refine bounded_adjust hcounted fun hneg => ?_
            -- The delay grows from inside of the limits, and an int holds the sum.
            rcases hgrow hneg with ⟨hpos, hfits⟩
            have hlimits := h.limits
            rw [InLimits] at hlimits
            change _ ≤ (s.currentJitterDelay + s.jitterGrowTime).toInt
            rw [Int32.toInt_add, Int.bmod_eq_of_le (by omega) (by omega)]
            change (s.minJitterDelay.toNat : Int) ≤ _
            omega
          rcases countLate_eq s with ⟨d, hd⟩
          refine ih hcount ?_
          rw [hd]
          exact hgrow
      · exact h.congr rfl rfl rfl (Or.inl rfl)

theorem bounded_deliver {playOut : UInt32} (h : Bounded s) : Bounded (s.deliver playOut).1 := by
  unfold deliver
  split
  · exact h
  · split
    · exact h
    · exact h.congr rfl rfl rfl (Or.inl rfl)

theorem bounded_fill {playOut : UInt32} {oldest : Frame} (h : Bounded s) :
    Bounded (s.fill playOut oldest).1 := by
  unfold fill
  split
  · exact h
  · exact bounded_deliver (h.congr rfl rfl rfl (Or.inl rfl))

theorem bounded_shrink {playOut : UInt32} (h : Bounded s) : Bounded (s.shrink playOut).1 := by
  unfold shrink
  split
  · exact h
  · split
    · exact bounded_deliver (h.congr rfl rfl rfl (Or.inl rfl))
    · exact bounded_deliver (h.congr rfl rfl rfl (Or.inl rfl))

/-- The part of `ReadData` that goes by the synchronisation state. -/
theorem bounded_synchronise {playOut : UInt32} {n : Nat} {oldest : Frame} (h : Bounded s)
    (hgrow : s.leastDelay < 0 → 0 ≤ s.jitterGrowTime.toInt ∧
      s.upperDelay + s.jitterGrowTime.toInt < 2147483648) :
    Bounded (s.synchronise playOut n oldest).1 := by
  unfold synchronise
  split
  · exact bounded_fill (h.congr rfl rfl rfl (Or.inl rfl))
  · exact bounded_fill h
  · exact bounded_shrink h
  · have hlate := @bounded_dropLate s playOut s.frames h hgrow
    generalize dropLate playOut s s.frames = r at hlate
    rcases r with ⟨t, goOn⟩
    cases goOn with
    | false => exact hlate
    | true =>
        change Bounded (t.checkOverrun playOut n).1
        unfold checkOverrun
        split
        · exact bounded_deliver hlate
        · exact bounded_shrink (hlate.congr rfl rfl rfl (Or.inl rfl))

/-- A call of `ReadData`. -/
theorem bounded_read {playOut : UInt32} (h : Bounded s) (hinside : s.ReadsInside playOut) :
    Bounded (s.readData playOut).1 := by
  -- The delay changes in a buffer that was empty for long, one that was full for long, and when frames
  -- are too late.
  cases hframes : s.frames with
  | nil =>
      rw [readData_nil hframes]
      exact bounded_readEmpty hframes h hinside.empty
  | cons oldest rest =>
      have hne : s.frames ≠ [] := by
        rw [hframes]
        exact List.cons_ne_nil _ _
      have hlow := @bounded_afterLow s playOut h
      rw [readData_cons hframes]
      cases hdrift : (s.afterLow playOut).2 with
      | true => exact hlow
      | false =>
          rw [if_neg Bool.false_ne_true]
          rcases afterLow_spec s playOut with ⟨t, d, hsame⟩
          rw [hsame] at hlow ⊢
          have hfilled := @bounded_checkFilled _ playOut hlow fun hfull hlong =>
            hinside.filled ⟨hne, hdrift, hfull, hlong⟩
          rcases checkFilled_spec { s with
              bufferEmptiedTime := playOut
              bufferLowTime := t
              timestampDelta := d } playOut with ⟨t', d', state, hsame', -⟩
          refine bounded_synchronise hfilled ?_
          rw [hsame']
          exact hinside.late hne

end Calls

section Runs

variable {s : JitterBuffer} {calls : List DelayCall}

theorem bounded_delayStep (call : DelayCall) (h : Bounded s) (hfits : s.DelaysFit call) :
    Bounded (s.delayStep call).1 := by
  cases call with
  | setDelay minJitter maxJitter => exact bounded_setDelay hfits
  | call call =>
      cases call with
      | write frame => exact bounded_write h hfits
      | read playOut => exact bounded_read h hfits

/-- The delay is in its limits after every call. -/
def KeepsLimits (s : JitterBuffer) (calls : List DelayCall) : Prop :=
  ∀ x ∈ run delayStep s calls, x.after.InLimits

instance (s : JitterBuffer) (calls : List DelayCall) : Decidable (KeepsLimits s calls) :=
  inferInstanceAs (Decidable (∀ x ∈ run delayStep s calls, x.after.InLimits))

/-- From the first setting of the limits on, the delay is in its limits in every run in which frame
times fit into them, and no reading shrinks the delay below while the frame time is negative. -/
theorem delay_in_limits {minJitter maxJitter : UInt32}
    (h : Along delayStep DelaysFit s (.setDelay minJitter maxJitter :: calls)) :
    KeepsLimits s (.setDelay minJitter maxJitter :: calls) := by
  rcases Lib.along_cons.1 h with ⟨hset, hcalls⟩
  have hfirst : Bounded (s.setDelay minJitter maxJitter) := bounded_setDelay hset
  intro x hx
  rw [run, List.mem_cons] at hx
  rcases hx with rfl | hx
  · exact hfirst.limits
  · exact Lib.run_invariant Bounded (fun t call ht hfits => bounded_delayStep call ht hfits)
      (Q := fun x => x.after.InLimits)
      (fun t call ht hfits => (bounded_delayStep call ht hfits).limits) _ _ hfirst hcalls x hx

/-- Three frames, and readings. The first frame only shows the source. -/
def framesApart (frameTime : UInt32) : List DelayCall :=
  [.setDelay 320 800, .call (.write (frameAt 1000)), .call (.write (frameAt (1000 + frameTime))),
    .call (.write (frameAt (1000 + 2 * frameTime))), .call (.read 5000), .call (.read 20000)]

/-- Frames of 20 ms keep the limits. -/
theorem near_frames_limits : KeepsLimits (new 0 0 8) (framesApart 160) :=
  delay_in_limits (by decide +kernel)

/-- Frames of 125 ms take the delay to 2000, over its maximum of 800. -/
theorem apart_frames_delay : ¬ KeepsLimits (new 0 0 8) (framesApart 1000) := by
  decide +kernel

end Runs

end JitterBuffer

end Rtp

end CryptoOpal

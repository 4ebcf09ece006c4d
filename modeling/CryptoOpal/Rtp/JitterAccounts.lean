import CryptoOpal.Lib.Transducer
import CryptoOpal.Rtp.Jitter

/-!
# The Accounts of the Jitter Buffer

Every frame that goes into the jitter buffer comes out once: it is played, or
is too late, or is one too many for the delay. The buffer keeps numbers of the
late ones and of the overruns. What it holds has to be what is left.

A reset empties the buffer and is counted nowhere. So the accounts start with
the last one (`Resets`), which can be in the middle of a call of `WriteData`:
the frame of the call is stored then.

`ReadData` looks at a frame behind the one that it drops for an overrun, and
there is one: it has just found at least two of them. And a buffer takes
another frame as long as there are no more than a hundred.

## Main definitions

* `WriteResets`, `ReadResets`, `Resets`: The calls that reset the buffer.
* `Tally`: Numbers of frames.
* `JitterBuffer.count`: The numbers after a call.
* `Ordered`: The frames are sorted by timestamp.
* `Accounted`: The numbers are right, and the buffer is not overfull.

## Theorems

* `length_insertFrame`: A frame is stored unless there is one with its timestamp.
* `dropLate_spec`: What the loop over the late frames does.
* `accounted_read`, `accounted_write`: One call.
* `jitter_accounts`: Every run since a reset.
-/

namespace CryptoOpal

namespace Rtp

open Lib (run)

namespace JitterBuffer

/-- A marker is taken for the start of a talk burst. -/
def MarkerResets (s : JitterBuffer) (frame : Frame) : Prop :=
  s.consecutiveMarkerBits < s.maxConsecutiveMarkerBits ∧ frame.marker = true

instance (s : JitterBuffer) (frame : Frame) : Decidable (s.MarkerResets frame) :=
  inferInstanceAs (Decidable (_ ∧ _))

/-- The timestamp has changed abruptly. -/
def TimestampResets (s : JitterBuffer) (frame : Frame) : Prop :=
  s.lastTimestamp ≠ noTimestamp ∧ ((frame.timestamp - s.lastTimestamp).toInt32 < -16000 ∨
    (frame.timestamp - s.lastTimestamp).toInt32 > 4800000)

instance (s : JitterBuffer) (frame : Frame) : Decidable (s.TimestampResets frame) :=
  inferInstanceAs (Decidable (_ ∧ _))

/-- The call of `WriteData` takes the frame. -/
def Takes (s : JitterBuffer) (frame : Frame) : Prop :=
  minHeaderSize ≤ frame.size ∧ s.frames.length ≤ 100

instance (s : JitterBuffer) (frame : Frame) : Decidable (s.Takes frame) :=
  inferInstanceAs (Decidable (_ ∧ _))

/-- The call of `WriteData` resets the buffer. -/
def WriteResets (s : JitterBuffer) (frame : Frame) : Prop :=
  s.Takes frame ∧
    (s.MarkerResets frame ∨ s.TimestampResets frame ∨ frame.syncSource ≠ s.lastSyncSource)

instance (s : JitterBuffer) (frame : Frame) : Decidable (s.WriteResets frame) :=
  inferInstanceAs (Decidable (_ ∧ _))

/-- Too many frames in a row are too late. -/
def lateResets (playOut : UInt32) : JitterBuffer → List Frame → Bool
  | _, [] => false
  | s, oldest :: rest =>
    decide (s.TooLate playOut oldest) &&
      (decide (s.consecutiveLatePackets + 1 > 10) || lateResets playOut s.countLate rest)

/-- The call of `ReadData` resets the buffer. -/
def ReadResets (s : JitterBuffer) (playOut : UInt32) : Prop :=
  s.frames ≠ [] ∧ (s.afterLow playOut).2 = false ∧
    ((s.afterLow playOut).1.checkFilled playOut).synchronisationState = .done ∧
    lateResets playOut ((s.afterLow playOut).1.checkFilled playOut) s.frames = true

instance (s : JitterBuffer) (playOut : UInt32) : Decidable (s.ReadResets playOut) :=
  inferInstanceAs (Decidable (_ ∧ _))

/-- The call resets the buffer. -/
def Resets (s : JitterBuffer) : JitterCall → Prop
  | .write frame => s.WriteResets frame
  | .read playOut => s.ReadResets playOut

instance (s : JitterBuffer) (call : JitterCall) : Decidable (s.Resets call) := by
  cases call <;> unfold Resets <;> infer_instance

end JitterBuffer

/-- What was played. -/
def JitterOutcome.played : JitterOutcome → List Frame
  | delivered frame => [frame]
  | _ => []

/-- Numbers of frames since a reset. -/
structure Tally where
  stored : Nat
  delivered : Nat
  tooLate : Nat
  overruns : Nat
  deriving DecidableEq

namespace Tally

/-- Nothing yet. -/
def zero : Tally := ⟨0, 0, 0, 0⟩

/-- Some frames more that were stored. -/
def store (t : Tally) (n : Nat) : Tally := { t with stored := t.stored + n }

end Tally

namespace JitterBuffer

/-- The numbers from which a call goes on. -/
def carried (s : JitterBuffer) (call : JitterCall) (t : Tally) : Tally :=
  if s.Resets call then Tally.zero else t

/-- The frame is stored: `m_frames.insert` finds no frame with its timestamp. -/
def Stores (s : JitterBuffer) (frame : Frame) : Prop :=
  s.Takes frame ∧ ∀ q ∈ (s.beforeInsert frame).frames, q.timestamp ≠ frame.timestamp

instance (s : JitterBuffer) (frame : Frame) : Decidable (s.Stores frame) :=
  inferInstanceAs (Decidable (_ ∧ _))

/-- The numbers after a call of `WriteData`. -/
def countWrite (s : JitterBuffer) (frame : Frame) (t : Tally) : Tally :=
  (s.carried (.write frame) t).store (if s.Stores frame then 1 else 0)

/-- The numbers after a call of `ReadData`. `m_packetsTooLate` and `m_bufferOverruns` go on over a
reset, so it is what they went up by that counts. -/
def countRead (s : JitterBuffer) (playOut : UInt32) (t : Tally) : Tally :=
  if s.Resets (.read playOut) then Tally.zero
  else
    { t with
      delivered := t.delivered + (s.readData playOut).2.played.length
      tooLate := t.tooLate + ((s.readData playOut).1.packetsTooLate - s.packetsTooLate).toNat
      overruns := t.overruns + ((s.readData playOut).1.bufferOverruns - s.bufferOverruns).toNat }

/-- The numbers after a call. -/
def count (s : JitterBuffer) : JitterCall → Tally → Tally
  | .write frame => s.countWrite frame
  | .read playOut => s.countRead playOut

/-- A call, with the numbers. -/
def countedStep (st : JitterBuffer × Tally) (call : JitterCall) :
    (JitterBuffer × Tally) × JitterOutcome :=
  (((st.1.step call).1, st.1.count call st.2), (st.1.step call).2)

/-- The frames are sorted by timestamp. -/
def Ordered (frames : List Frame) : Prop := frames.Pairwise fun p q => p.timestamp < q.timestamp

/-- The numbers are right, and the buffer is not overfull. Between calls, the state is never the one
in which a frame is dropped. -/
structure Accounted (s : JitterBuffer) (t : Tally) : Prop where
  sum : t.stored = t.delivered + t.tooLate + t.overruns + s.frames.length
  capacity : s.frames.length ≤ 101
  ordered : Ordered s.frames
  state : s.synchronisationState ≠ .shrink

section Insertion

variable {frame : Frame} {l : List Frame}

theorem mem_insertFrame {p : Frame} (h : p ∈ insertFrame frame l) : p = frame ∨ p ∈ l := by
  induction l with
  | nil => exact Or.inl (List.mem_singleton.1 h)
  | cons q l ih =>
      unfold insertFrame at h
      split at h
      · exact List.mem_cons.1 h
      · split at h
        · exact Or.inr h
        · rcases List.mem_cons.1 h with rfl | h
          · exact Or.inr List.mem_cons_self
          · exact (ih h).imp_right (List.mem_cons_of_mem _)

/-- The frames stay sorted. -/
theorem ordered_insertFrame (h : Ordered l) : Ordered (insertFrame frame l) := by
  induction l with
  | nil => exact List.pairwise_singleton _ _
  | cons q l ih =>
      rcases List.pairwise_cons.1 h with ⟨hq, hl⟩
      unfold insertFrame
      split
      · rename_i hlt
        refine List.pairwise_cons.2 ⟨fun p hp => ?_, h⟩
        rcases List.mem_cons.1 hp with rfl | hp
        · exact hlt
        · exact UInt32.lt_trans hlt (hq p hp)
      · split
        · exact h
        · rename_i hnlt hne
          refine List.pairwise_cons.2 ⟨fun p hp => ?_, ih hl⟩
          rcases mem_insertFrame hp with rfl | hp
          · exact UInt32.lt_of_le_of_ne (UInt32.not_lt.1 hnlt) (Ne.symm hne)
          · exact hq p hp

/-- A frame is stored unless there is one with its timestamp. -/
theorem length_insertFrame (h : Ordered l) : (insertFrame frame l).length =
    l.length + if ∀ q ∈ l, q.timestamp ≠ frame.timestamp then 1 else 0 := by
  induction l with
  | nil => rfl
  | cons q l ih =>
      rcases List.pairwise_cons.1 h with ⟨hq, hl⟩
      unfold insertFrame
      split
      · rename_i hlt
        -- All that follow are later still.
        have hall : ∀ p ∈ q :: l, p.timestamp ≠ frame.timestamp := by
          intro p hp heq
          rcases List.mem_cons.1 hp with rfl | hp
          · exact UInt32.lt_irrefl _ (heq ▸ hlt)
          · exact UInt32.lt_irrefl _ (UInt32.lt_trans hlt (heq ▸ hq p hp))
        rw [if_pos hall, List.length_cons]
      · split
        · rename_i heq
          rw [if_neg (fun hall => hall q List.mem_cons_self heq.symm), Nat.add_zero]
        · rename_i hne
          have hiff : (∀ p ∈ q :: l, p.timestamp ≠ frame.timestamp) ↔
              ∀ p ∈ l, p.timestamp ≠ frame.timestamp := by
            rw [List.forall_mem_cons]
            exact and_iff_right (Ne.symm hne)
          rw [List.length_cons, ih hl, List.length_cons]
          simp only [hiff]
          omega

end Insertion

section Writing

variable {s : JitterBuffer} {frame : Frame}

/-- An adjustment changes the delay and nothing else. -/
theorem adjust_eq (s : JitterBuffer) (delta : Int32) : (s.adjustCurrentJitterDelay delta).1 =
    { s with currentJitterDelay := (s.adjustCurrentJitterDelay delta).1.currentJitterDelay } := by
  unfold adjustCurrentJitterDelay
  split
  · rfl
  · split
    · rfl
    · rfl

/-- A marker for the start of a talk burst resets the buffer. -/
theorem checkMarker_of_resets (h : s.MarkerResets frame) :
    (s.checkMarker frame).lastSyncSource = s.lastSyncSource ∧
      (s.checkMarker frame).frames = [] ∧
      (s.checkMarker frame).synchronisationState = .start ∧
      (s.checkMarker frame).lastTimestamp = noTimestamp := by
  unfold checkMarker
  rw [if_pos h.1, if_pos h.2, adjust_eq]
  exact ⟨rfl, rfl, rfl, rfl⟩

theorem checkMarker_of_not (h : ¬ s.MarkerResets frame) :
    ∃ n, s.checkMarker frame = { s with consecutiveMarkerBits := n } := by
  unfold checkMarker
  split
  · rename_i hfew
    rw [if_neg (fun hmarker => h ⟨hfew, hmarker⟩)]
    exact ⟨0, rfl⟩
  · split
    · exact ⟨_, rfl⟩
    · exact ⟨s.consecutiveMarkerBits, rfl⟩

/-- An abrupt change of the timestamps resets the buffer. -/
theorem checkTimestamp_of_resets (h : s.TimestampResets frame) :
    s.checkTimestamp frame = s.reset := by
  rw [checkTimestamp, if_neg h.1, checkFrameTime, if_pos h.2]

theorem checkTimestamp_of_not (h : ¬ s.TimestampResets frame) :
    ∃ t d, s.checkTimestamp frame =
      { s with averageFrameTime := t, currentJitterDelay := d } := by
  unfold checkTimestamp checkFrameTime
  split
  · exact ⟨s.averageFrameTime, s.currentJitterDelay, rfl⟩
  · rename_i hlast
    rw [if_neg (fun habrupt => h ⟨hlast, habrupt⟩)]
    split
    · rw [adjust_eq]
      exact ⟨_, _, rfl⟩
    · exact ⟨s.averageFrameTime, s.currentJitterDelay, rfl⟩

/-- A call of `WriteData` that resets the buffer inserts the frame into an empty one. -/
theorem beforeInsert_of_resets (h : s.WriteResets frame) :
    (s.beforeInsert frame).frames = [] ∧ (s.beforeInsert frame).synchronisationState = .start := by
  unfold beforeInsert checkSyncSource
  split
  · exact ⟨rfl, rfl⟩
  · rename_i hsource
    rw [not_not] at hsource
    change frame.syncSource = ((s.checkMarker frame).checkTimestamp frame).lastSyncSource at hsource
    change ((s.checkMarker frame).checkTimestamp frame).frames = [] ∧
      ((s.checkMarker frame).checkTimestamp frame).synchronisationState = .start
    by_cases hmarker : s.MarkerResets frame
    · rcases checkMarker_of_resets hmarker with ⟨-, hframes, hstate, hlast⟩
      rw [checkTimestamp, if_pos hlast]
      exact ⟨hframes, hstate⟩
    · rcases checkMarker_of_not hmarker with ⟨n, hcheck⟩
      rw [hcheck] at hsource ⊢
      by_cases habrupt : s.TimestampResets frame
      · rw [checkTimestamp_of_resets (s := { s with consecutiveMarkerBits := n }) habrupt]
        exact ⟨rfl, rfl⟩
      · rcases checkTimestamp_of_not (s := { s with consecutiveMarkerBits := n }) habrupt with
          ⟨t, d, hcheck'⟩
        rw [hcheck'] at hsource
        exact absurd hsource ((h.2.resolve_left hmarker).resolve_left habrupt)

/-- Without a reset, the frames stay. -/
theorem beforeInsert_of_not (htakes : s.Takes frame) (h : ¬ s.WriteResets frame) :
    (s.beforeInsert frame).frames = s.frames ∧
      (s.beforeInsert frame).synchronisationState = s.synchronisationState := by
  have hmarker : ¬ s.MarkerResets frame := fun hyes => h ⟨htakes, Or.inl hyes⟩
  have habrupt : ¬ s.TimestampResets frame := fun hyes => h ⟨htakes, Or.inr (Or.inl hyes)⟩
  have hsource : ¬ frame.syncSource ≠ s.lastSyncSource :=
    fun hyes => h ⟨htakes, Or.inr (Or.inr hyes)⟩
  rcases checkMarker_of_not hmarker with ⟨n, hcheck⟩
  rcases checkTimestamp_of_not (s := { s with consecutiveMarkerBits := n }) habrupt with
    ⟨t, d, hcheck'⟩
  unfold beforeInsert checkSyncSource
  rw [hcheck, hcheck', if_neg hsource]
  exact ⟨rfl, rfl⟩

end Writing

section Reading

variable {s : JitterBuffer} {playOut : UInt32}

/-- What a call of `ReadData` does with the frames: some are too late, some are dropped, one is
played, and the others are left. -/
structure Passes (s : JitterBuffer) (late dropped : List Frame)
    (r : JitterBuffer × JitterOutcome) : Prop where
  frames : s.frames = late ++ dropped ++ r.2.played ++ r.1.frames
  tooLate : r.1.packetsTooLate = s.packetsTooLate + UInt32.ofNat late.length
  overruns : r.1.bufferOverruns = s.bufferOverruns + UInt32.ofNat dropped.length
  state : r.1.synchronisationState ≠ .shrink
  noFault : r.2 ≠ .fault

/-- Nothing is done with the frames. -/
theorem passes_silence {r : JitterBuffer} (hframes : r.frames = s.frames)
    (hlate : r.packetsTooLate = s.packetsTooLate) (hover : r.bufferOverruns = s.bufferOverruns)
    (hstate : r.synchronisationState ≠ .shrink) : Passes s [] [] (r, .silence) where
  frames := hframes.symm
  tooLate := hlate.trans (UInt32.add_zero _).symm
  overruns := hover.trans (UInt32.add_zero _).symm
  state := hstate
  noFault := fun h => nomatch h

/-- The oldest frame is played, or it is not time for it. -/
theorem passes_deliver (hframes : s.frames ≠ []) (hstate : s.synchronisationState ≠ .shrink) :
    Passes s [] [] (s.deliver playOut) := by
  unfold deliver
  split
  · rename_i hnil
    exact absurd hnil hframes
  · rename_i oldest rest hcons
    split
    · exact passes_silence rfl rfl rfl hstate
    · exact ⟨hcons, (UInt32.add_zero _).symm, (UInt32.add_zero _).symm, hstate,
        fun h => nomatch h⟩

/-- What was done before, with what is done then. -/
theorem Passes.after {t : JitterBuffer} {late dropped dropped' : List Frame}
    {r : JitterBuffer × JitterOutcome} (h : Passes t [] dropped' r)
    (hframes : s.frames = late ++ dropped ++ t.frames) (hnone : dropped = [] ∨ dropped' = [])
    (hlate : t.packetsTooLate = s.packetsTooLate + UInt32.ofNat late.length)
    (hover : t.bufferOverruns = s.bufferOverruns + UInt32.ofNat dropped.length) :
    Passes s late (dropped ++ dropped') r := by
  have hzero : UInt32.ofNat ([] : List Frame).length = 0 := rfl
  refine ⟨?_, ?_, ?_, h.state, h.noFault⟩
  · rw [hframes, h.frames]
    simp only [List.nil_append, List.append_assoc]
  · rw [h.tooLate, hlate, hzero, UInt32.add_zero]
  · rw [h.overruns, hover]
    rcases hnone with rfl | rfl
    · rw [hzero, UInt32.add_zero, List.nil_append]
    · rw [hzero, UInt32.add_zero, List.append_nil]

/-- One frame is dropped if it is too late, and there is another one. -/
theorem passes_shrink (hlen : 2 ≤ s.frames.length) :
    ∃ dropped, Passes s [] dropped (s.shrink playOut) := by
  unfold shrink
  split
  · rename_i hnil
    rw [hnil] at hlen
    exact absurd hlen (by decide)
  · rename_i oldest rest hcons
    split
    · have hrest : rest ≠ [] := by
        rintro rfl
        rw [hcons, List.length_singleton] at hlen
        exact absurd hlen (by decide)
      refine ⟨[oldest] ++ [], Passes.after (passes_deliver hrest (fun h => nomatch h)) hcons
        (Or.inr rfl) (UInt32.add_zero _).symm rfl⟩
    · have hframes : s.frames ≠ [] := by
        rw [hcons]
        exact List.cons_ne_nil _ _
      exact ⟨[] ++ [], Passes.after (passes_deliver hframes (fun h => nomatch h)) rfl (Or.inl rfl)
        (UInt32.add_zero _).symm (UInt32.add_zero _).symm⟩

theorem passes_fill {oldest : Frame} (hframes : s.frames ≠ [])
    (hstate : s.synchronisationState ≠ .shrink) : Passes s [] [] (s.fill playOut oldest) := by
  unfold fill
  split
  · exact passes_silence rfl rfl rfl hstate
  · have h := @passes_deliver { s with synchronisationState := .done } playOut hframes
      (fun h => nomatch h)
    exact ⟨h.frames, h.tooLate, h.overruns, h.state, h.noFault⟩

theorem countLate_eq (s : JitterBuffer) : ∃ d, s.countLate = { s with
    consecutiveLatePackets := s.consecutiveLatePackets + 1
    packetsTooLate := s.packetsTooLate + 1
    currentJitterDelay := d } := by
  unfold countLate
  rw [adjust_eq]
  exact ⟨_, rfl⟩

/-- The loop over the late frames, when it resets the buffer. -/
theorem dropLate_of_resets {frames : List Frame} (h : lateResets playOut s frames = true) :
    (dropLate playOut s frames).2 = false ∧ (dropLate playOut s frames).1.frames = [] ∧
      (dropLate playOut s frames).1.synchronisationState = .start := by
  induction frames generalizing s with
  | nil => exact (nomatch h)
  | cons oldest rest ih =>
      rw [lateResets, Bool.and_eq_true, Bool.or_eq_true, decide_eq_true_eq, decide_eq_true_eq] at h
      rw [dropLate, if_pos h.1]
      split
      · exact ⟨rfl, rfl, rfl⟩
      · rename_i hfew
        exact ih (h.2.resolve_left hfew)

/-- The loop over the late frames, when it does not. -/
theorem dropLate_spec {frames : List Frame} (h : lateResets playOut s frames = false) :
    ∃ late, frames = late ++ (dropLate playOut s frames).1.frames ∧
      (dropLate playOut s frames).1.packetsTooLate =
        s.packetsTooLate + UInt32.ofNat late.length ∧
      (dropLate playOut s frames).1.bufferOverruns = s.bufferOverruns ∧
      (dropLate playOut s frames).1.synchronisationState = s.synchronisationState ∧
      ((dropLate playOut s frames).2 = true → (dropLate playOut s frames).1.frames ≠ []) := by
  induction frames generalizing s with
  | nil => exact ⟨[], rfl, (UInt32.add_zero _).symm, rfl, rfl, fun hno => nomatch hno⟩
  | cons oldest rest ih =>
      rw [lateResets, Bool.and_eq_false_iff, Bool.or_eq_false_iff, decide_eq_false_iff_not,
        decide_eq_false_iff_not] at h
      rw [dropLate]
      by_cases hlate : s.TooLate playOut oldest
      · rcases h.resolve_left (not_not.2 hlate) with ⟨hfew, hrest⟩
        rw [if_pos hlate, if_neg hfew]
        rcases ih hrest with ⟨late, hframes, hcount, hover, hstate, hnonempty⟩
        rcases countLate_eq s with ⟨d, hcountLate⟩
        refine ⟨oldest :: late, ?_, ?_, ?_, ?_, hnonempty⟩
        · rw [List.cons_append, ← hframes]
        · rw [hcount, hcountLate, List.length_cons, UInt32.ofNat_add, UInt32.add_assoc,
            UInt32.add_comm 1]
          rfl
        · rw [hover, hcountLate]
        · rw [hstate, hcountLate]
      · rw [if_neg hlate]
        exact ⟨[], rfl, (UInt32.add_zero _).symm, rfl, rfl, fun _ => List.cons_ne_nil _ _⟩

theorem afterLow_spec (s : JitterBuffer) (playOut : UInt32) : ∃ t d,
    (s.afterLow playOut).1 = { s with
      bufferEmptiedTime := playOut
      bufferLowTime := t
      timestampDelta := d } := by
  unfold afterLow checkLow
  split
  · exact ⟨_, _, rfl⟩
  · split
    · exact ⟨_, _, rfl⟩
    · exact ⟨_, _, rfl⟩

/-- The delay is only reduced when the buffer holds two frames or more. -/
theorem checkFilled_spec (s : JitterBuffer) (playOut : UInt32) :
    ∃ t d state, s.checkFilled playOut = { s with
      bufferFilledTime := t
      currentJitterDelay := d
      synchronisationState := state } ∧
      (state = s.synchronisationState ∨ state = .shrink ∧ 2 ≤ s.frames.length) := by
  unfold checkFilled
  split
  · exact ⟨_, _, _, rfl, Or.inl rfl⟩
  · rename_i hfull
    split
    · -- A full buffer has two frames, and that is what the state `shrink` needs.
      have htwo : 2 ≤ s.frames.length := by
        have hleast : 2 ≤ s.framesInBuffer := Nat.le_max_left _ _
        omega
      unfold shrinkDelay
      split
      · rw [adjust_eq]
        exact ⟨_, _, _, rfl, Or.inr ⟨rfl, htwo⟩⟩
      · rw [adjust_eq]
        exact ⟨_, _, _, rfl, Or.inl rfl⟩
    · exact ⟨_, _, _, rfl, Or.inl rfl⟩

/-- The part of `ReadData` that goes by the state, when it does not reset the buffer. -/
theorem passes_synchronise {n : Nat} {oldest : Frame} (hn : 2 ≤ n) (hframes : s.frames ≠ [])
    (hshrink : s.synchronisationState = .shrink → 2 ≤ s.frames.length)
    (hresets : s.synchronisationState = .done → lateResets playOut s s.frames = false) :
    ∃ late dropped, Passes s late dropped (s.synchronise playOut n oldest) := by
  unfold synchronise
  split
  · have h := @passes_fill { s with
        timestampDelta := (oldest.timestamp - playOut).toInt32
        synchronisationState := .fill } playOut oldest hframes
      (fun h => nomatch h)
    exact ⟨[], [], h.frames, h.tooLate, h.overruns, h.state, h.noFault⟩
  · rename_i hfill
    exact ⟨[], [], passes_fill hframes (by rw [hfill]; exact fun h => nomatch h)⟩
  · rename_i hstate
    rcases passes_shrink (hshrink hstate) with ⟨dropped, h⟩
    exact ⟨[], dropped, h⟩
  · rename_i hdone
    rcases dropLate_spec (hresets hdone) with ⟨late, hlate, hcount, hover, hstate, hnonempty⟩
    have hover' : (dropLate playOut s s.frames).1.bufferOverruns =
        s.bufferOverruns + UInt32.ofNat ([] : List Frame).length :=
      hover.trans (UInt32.add_zero _).symm
    have hsplit : s.frames = late ++ [] ++ (dropLate playOut s s.frames).1.frames := by
      rw [List.append_nil]
      exact hlate
    rw [hdone] at hstate
    generalize dropLate playOut s s.frames = r at hcount hover' hsplit hstate hnonempty
    rcases r with ⟨t, goOn⟩
    cases goOn with
    | false =>
        -- The loop has left nothing.
        have h := passes_silence (s := t) (r := t) rfl rfl rfl
          (by rw [hstate]; exact fun h => nomatch h)
        exact ⟨late, [] ++ [], h.after hsplit (Or.inl rfl) hcount hover'⟩
    | true =>
        change ∃ late dropped, Passes s late dropped (t.checkOverrun playOut n)
        have hshr : t.synchronisationState ≠ .shrink := by
          rw [hstate]
          exact fun h => nomatch h
        unfold checkOverrun
        split
        · exact ⟨late, [] ++ [], (passes_deliver (hnonempty rfl) hshr).after hsplit (Or.inl rfl)
            hcount hover'⟩
        · rename_i hover
          rcases @passes_shrink { t with
              timestampDelta := (t.timestampDelta.toUInt32 + t.averageFrameTime).toInt32 }
            playOut (by change 2 ≤ t.frames.length; omega) with ⟨dropped, h⟩
          have h' : Passes t [] dropped _ := ⟨h.frames, h.tooLate, h.overruns, h.state, h.noFault⟩
          exact ⟨late, [] ++ dropped, h'.after hsplit (Or.inl rfl) hcount hover'⟩

/-- `ReadData` of a buffer that is not empty. -/
theorem readData_cons {oldest : Frame} {rest : List Frame} (h : s.frames = oldest :: rest) :
    s.readData playOut =
      if (s.afterLow playOut).2 then ((s.afterLow playOut).1, .silence)
      else ((s.afterLow playOut).1.checkFilled playOut).synchronise playOut
        (s.afterLow playOut).1.framesInBuffer oldest := by
  unfold readData
  rw [h]
  rcases s.afterLow playOut with ⟨t, low⟩
  cases low with
  | false => rfl
  | true => rfl

theorem readData_nil (h : s.frames = []) : s.readData playOut = (s.readEmpty playOut, .silence) := by
  unfold readData
  rw [h]

theorem readEmpty_spec (s : JitterBuffer) (playOut : UInt32) : ∃ t d,
    s.readEmpty playOut = { s with bufferEmptiedTime := t, currentJitterDelay := d } := by
  unfold readEmpty
  split
  · rw [adjust_eq]
    exact ⟨_, _, rfl⟩
  · exact ⟨_, _, rfl⟩

/-- A call of `ReadData` that does not reset the buffer. -/
theorem passes_readData (hstate : s.synchronisationState ≠ .shrink)
    (hresets : ¬ s.ReadResets playOut) :
    ∃ late dropped, Passes s late dropped (s.readData playOut) := by
  cases hframes : s.frames with
  | nil =>
      rcases readEmpty_spec s playOut with ⟨t, d, hempty⟩
      refine ⟨[], [], ?_⟩
      rw [readData_nil hframes, hempty]
      exact passes_silence rfl rfl rfl hstate
  | cons oldest rest =>
      have hne : s.frames ≠ [] := by
        rw [hframes]
        exact List.cons_ne_nil _ _
      rcases afterLow_spec s playOut with ⟨t, d, hlow⟩
      rw [readData_cons hframes]
      cases hdrift : (s.afterLow playOut).2 with
      | true =>
          rw [if_pos rfl, hlow]
          exact ⟨[], [], passes_silence rfl rfl rfl hstate⟩
      | false =>
          rw [if_neg Bool.false_ne_true]
          rcases checkFilled_spec (s.afterLow playOut).1 playOut with
            ⟨t', d', state, hfilled, hwhen⟩
          have hkept : (s.afterLow playOut).1.frames = s.frames := by rw [hlow]
          have hsame : ((s.afterLow playOut).1.checkFilled playOut).frames = s.frames := by
            rw [hfilled]
            exact hkept
          have hdone : ((s.afterLow playOut).1.checkFilled playOut).synchronisationState = .done →
              lateResets playOut ((s.afterLow playOut).1.checkFilled playOut)
                ((s.afterLow playOut).1.checkFilled playOut).frames = false := by
            intro hdone
            rw [hsame]
            exact Bool.eq_false_iff.2 fun hyes => hresets ⟨hne, hdrift, hdone, hyes⟩
          have hshrink : ((s.afterLow playOut).1.checkFilled playOut).synchronisationState =
              .shrink → 2 ≤ ((s.afterLow playOut).1.checkFilled playOut).frames.length := by
            rw [hfilled]
            intro hshr
            rcases hwhen with hold | ⟨-, htwo⟩
            · rw [hlow] at hold
              exact absurd (hold.symm.trans hshr) hstate
            · exact htwo
          have hn : 2 ≤ (s.afterLow playOut).1.framesInBuffer := Nat.le_max_left 2 _
          have hne' : ((s.afterLow playOut).1.checkFilled playOut).frames ≠ [] := by
            rw [hsame]
            exact hne
          rcases @passes_synchronise _ playOut _ oldest hn hne' hshrink hdone with
            ⟨late, dropped, h⟩
          refine ⟨late, dropped, ?_, ?_, ?_, h.state, h.noFault⟩
          · rw [← hsame]
            exact h.frames
          · exact h.tooLate.trans (by rw [hfilled, hlow])
          · exact h.overruns.trans (by rw [hfilled, hlow])

/-- A call of `ReadData` that does. -/
theorem readData_of_resets (hresets : s.ReadResets playOut) :
    (s.readData playOut).1.frames = [] ∧
      (s.readData playOut).1.synchronisationState = .start ∧
      (s.readData playOut).2 = .silence := by
  rcases hresets with ⟨hne, hdrift, hdone, hlate⟩
  have hsame : ((s.afterLow playOut).1.checkFilled playOut).frames = s.frames := by
    rcases afterLow_spec s playOut with ⟨t, d, hlow⟩
    rcases checkFilled_spec (s.afterLow playOut).1 playOut with ⟨t', d', state, hfilled, -⟩
    rw [hfilled, hlow]
  rw [← hsame] at hlate
  rcases dropLate_of_resets hlate with ⟨hfalse, hempty, hstart⟩
  cases hframes : s.frames with
  | nil => exact absurd hframes hne
  | cons oldest rest =>
      rw [readData_cons hframes, hdrift, if_neg Bool.false_ne_true]
      generalize (s.afterLow playOut).1.checkFilled playOut = f at *
      unfold synchronise
      rw [hdone]
      generalize dropLate playOut f f.frames = r at *
      rcases r with ⟨t, goOn⟩
      cases goOn with
      | true => exact (nomatch hfalse)
      | false => exact ⟨hempty, hstart, rfl⟩

end Reading

section Accounts

variable {s : JitterBuffer} {t : Tally}

/-- A counter goes up by a number of frames of the buffer. -/
theorem toNat_increase (a : UInt32) {n : Nat} (h : n < 4294967296) :
    (a + UInt32.ofNat n - a).toNat = n := by
  rw [UInt32.add_comm, UInt32.add_sub_cancel, UInt32.toNat_ofNat', Nat.mod_eq_of_lt h]

theorem accounted_write {frame : Frame} (h : Accounted s t) :
    Accounted (s.writeData frame).1 (s.countWrite frame t) := by
  have hrefused : ¬ s.Takes frame → s.countWrite frame t = t := by
    intro hno
    have hresets : ¬ s.Resets (.write frame) := fun hyes => hno hyes.1
    have hstores : ¬ s.Stores frame := fun hyes => hno hyes.1
    simp only [countWrite, carried, Tally.store, if_neg hresets, if_neg hstores, Nat.add_zero]
  unfold writeData
  split
  · rename_i hsmall
    rw [hrefused (fun htakes => Nat.not_le_of_lt hsmall htakes.1)]
    exact h
  · rename_i hsize
    split
    · rename_i hfull
      rw [hrefused (fun htakes => Nat.not_le_of_lt hfull htakes.2)]
      exact h
    · rename_i hroom
      have htakes : s.Takes frame := ⟨Nat.le_of_not_lt hsize, Nat.le_of_not_lt hroom⟩
      -- The frames to which this one is added are those of the numbers.
      have hbase : (s.carried (.write frame) t).stored = (s.carried (.write frame) t).delivered +
            (s.carried (.write frame) t).tooLate + (s.carried (.write frame) t).overruns +
            (s.beforeInsert frame).frames.length ∧
          (s.beforeInsert frame).frames.length ≤ 100 ∧
          Ordered (s.beforeInsert frame).frames ∧
          (s.beforeInsert frame).synchronisationState ≠ .shrink := by
        unfold carried
        by_cases hresets : s.Resets (.write frame)
        · rcases beforeInsert_of_resets hresets with ⟨hframes, hstate⟩
          rw [if_pos hresets, hframes, hstate]
          exact ⟨rfl, Nat.zero_le _, List.Pairwise.nil, fun hno => nomatch hno⟩
        · rcases beforeInsert_of_not htakes hresets with ⟨hframes, hstate⟩
          rw [if_neg hresets, hframes, hstate]
          exact ⟨h.sum, htakes.2, h.ordered, h.state⟩
      rcases hbase with ⟨hsum, hcapacity, hordered, hstate⟩
      have hlen := @length_insertFrame frame _ hordered
      have hstores : s.Stores frame ↔
          ∀ q ∈ (s.beforeInsert frame).frames, q.timestamp ≠ frame.timestamp :=
        and_iff_right htakes
      refine ⟨?_, ?_, ordered_insertFrame hordered, hstate⟩
      · simp only [countWrite, Tally.store, hlen, hsum, hstores]
        omega
      · simp only [hlen]
        split
        · omega
        · omega

theorem accounted_read {playOut : UInt32} (h : Accounted s t) :
    Accounted (s.readData playOut).1 (s.countRead playOut t) ∧
      (s.readData playOut).2 ≠ .fault := by
  unfold countRead
  by_cases hresets : s.Resets (.read playOut)
  · -- Everything starts anew.
    rcases readData_of_resets hresets with ⟨hframes, hstate, hsilence⟩
    rw [if_pos hresets, hsilence]
    refine ⟨⟨?_, ?_, ?_, ?_⟩, fun hno => nomatch hno⟩
    · rw [hframes]
      rfl
    · rw [hframes]
      exact Nat.zero_le _
    · rw [hframes]
      exact List.Pairwise.nil
    · rw [hstate]
      exact fun hno => nomatch hno
  · rcases passes_readData h.state hresets with ⟨late, dropped, hpasses⟩
    rw [if_neg hresets]
    have hlen := congrArg List.length hpasses.frames
    simp only [List.length_append] at hlen
    -- The counters have 32 bits, and a buffer has few frames.
    have hcapacity := h.capacity
    have hsum := h.sum
    have hlate : ((s.readData playOut).1.packetsTooLate - s.packetsTooLate).toNat = late.length := by
      rw [hpasses.tooLate]
      exact toNat_increase _ (by omega)
    have hover : ((s.readData playOut).1.bufferOverruns - s.bufferOverruns).toNat =
        dropped.length := by
      rw [hpasses.overruns]
      exact toNat_increase _ (by omega)
    refine ⟨⟨?_, by omega, ?_, hpasses.state⟩, hpasses.noFault⟩
    · simp only [hlate, hover]
      omega
    · have hordered := h.ordered
      rw [hpasses.frames] at hordered
      exact (List.pairwise_append.1 hordered).2.1

/-- After every call since a reset, the frames stored are those that were delivered, too late or
dropped for an overrun, and those in the buffer; there are at most 101 of these, and no call looks
behind the last one. -/
def KeepsAccounts (s : JitterBuffer) (calls : List JitterCall) : Prop :=
  ∀ x ∈ run countedStep (s.reset, Tally.zero) calls, x.output ≠ .fault ∧
    x.after.2.stored = x.after.2.delivered + x.after.2.tooLate + x.after.2.overruns +
      x.after.1.frames.length ∧
    x.after.1.frames.length ≤ 101

/-- The buffer accounts for every frame, in every run. -/
theorem jitter_accounts (s : JitterBuffer) (calls : List JitterCall) : KeepsAccounts s calls := by
  have hstep : ∀ (st : JitterBuffer × Tally) call, Accounted st.1 st.2 →
      Accounted (countedStep st call).1.1 (countedStep st call).1.2 ∧
        (countedStep st call).2 ≠ .fault := by
    intro st call h
    cases call with
    | write frame =>
        refine ⟨accounted_write h, ?_⟩
        change (st.1.writeData frame).2 ≠ .fault
        unfold writeData
        split
        · exact fun hno => nomatch hno
        · split
          · exact fun hno => nomatch hno
          · exact fun hno => nomatch hno
    | read playOut => exact accounted_read h
  have hstart : Accounted s.reset Tally.zero :=
    ⟨rfl, Nat.zero_le _, List.Pairwise.nil, fun hno => nomatch hno⟩
  refine Lib.run_invariant (P := fun _ _ => True) (fun st => Accounted st.1 st.2)
    (fun st call h _ => (hstep st call h).1) (fun st call h _ => ?_) _ _ hstart
    (fun _ _ => trivial)
  exact ⟨(hstep st call h).2, (hstep st call h).1.sum, (hstep st call h).1.capacity⟩

end Accounts

end JitterBuffer

end Rtp

end CryptoOpal

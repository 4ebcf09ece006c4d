import CryptoOpal.Codec.BitRate
import CryptoOpal.Codec.PlcHistory
import Mathlib.Algebra.Ring.Int.Defs

/-!
# The Steps of the Packet Loss Concealment

`OpalG711_PLC` makes speech for what was lost, in periods. The first 10 ms repeat
one pitch period, up to 60 ms two of them are repeated and faded out, and silence
follows. The change from the first to the second needs a quarter of the pitch
period in which both overlap. A step ends where a period does, and `dofe` takes
steps until it has all samples that were asked for.

The overlap has to end before the 60 ms do. The constructor asserts this of the
lowest pitch, but takes its period in seconds for one in milliseconds. When the
overlap is too long the step behind it takes no sample, or less than none.

Speech is floating point numbers, and none are here: a step is what it does to
the counters of a channel, with the pieces of the buffers that it touches. The
pitch that is found may be any between the limits.

## Main definitions

* `PlcSetting`: What the constructor is given.
* `ChannelCounters`: The counters of a channel.
* `Piece`: A part of a buffer.
* `PlcSetting.dofePartly`, `PlcSetting.dofe`: One step, and all steps in a channel.
* `PlcSetting.addtohistory`: Good speech in a channel.
* `PlcCall.Fits`: The condition on a call.
* `PlcSetting.AlwaysRight`: All calls of a run.

## Theorems

* `getfespeech_spec`: Speech is taken from the pitch buffer.
* `dofePartly_spec`, `dofeLoop_spec`: One step, and all steps.
* `addtohistory_spec`: Good speech.
* `concealment_right`: Every run.
-/

namespace CryptoOpal

namespace Codec

/-- What the constructor computes, with what it asserts of its parameters. -/
structure PlcSetting extends PlcSizes where
  rate : Nat
  pitchMin : Nat
  rate_least : 8000 ≤ rate
  rate_most : rate ≤ 48000
  pitchMin_least : rate / 1000 ≤ pitchMin
  pitchMin_le : pitchMin ≤ pitchMax
  pitchMax_most : pitchMax ≤ 20 * rate

/-- `modes`. -/
inductive PlcMode where
  | noLoss
  | lossPeriod1
  | lossPeriod2Start
  | lossPeriod2Overlap
  | lossPeriod2
  | lossPeriod3
  | transition
  deriving DecidableEq

/-- `channel_counters`. -/
structure ChannelCounters where
  mode : PlcMode
  concealCount : Int
  transitionLen : Int
  transitionCount : Int
  pitchOverlap : Int
  pitchOffset : Int
  pitch : Int
  pitchBlen : Int
  deriving DecidableEq

/-- The buffers, and the one of the caller. -/
inductive PlcBuffer where
  | pitchBuf
  | histBuf
  | tmpBuf
  | pitchLastq
  | concealOverlapbuf
  | transitionBuf
  | frame
  deriving DecidableEq

/-- Some samples of a buffer, one behind the other in one channel. -/
structure Piece where
  buffer : PlcBuffer
  start : Int
  count : Int
  deriving DecidableEq

/-- A step: how many samples are left to it, how many it takes, and what it touches. -/
structure PlcStep where
  rest : Int
  taken : Int
  pieces : List Piece
  deriving DecidableEq

namespace PlcSetting

variable (p : PlcSetting)

/-- `ms2samples`. -/
def ms2samples (ms : Nat) : Nat := ms * p.rate / 1000

/-- How many samples a buffer has for a channel, where the caller's has `size`. -/
def samples (size : Nat) : PlcBuffer → Nat
  | .pitchBuf | .histBuf | .concealOverlapbuf => p.histLen
  | .tmpBuf | .pitchLastq => p.pitchOverlapmax
  | .transitionBuf => p.ms2samples 10
  | .frame => size

/-- Each sample of a piece is in its buffer, where the channels are interleaved. -/
def Inside (size c : Nat) (piece : Piece) : Prop :=
  ∀ i : Nat, (i : Int) < piece.count →
    0 ≤ p.channels * (piece.start + i) + c ∧
      p.channels * (piece.start + i) + c < p.channels * p.samples size piece.buffer

/-- `getfespeech`, with so many rounds: the offset after it, and what it touches. The loop does
not end when no sample is left up to the end of the pitch buffer. -/
def getfespeech (pitchBlen : Int) (out : PlcBuffer) :
    Nat → Int → Int → Int → Option (Int × List Piece)
  | 0, pitchOffset, _, sz => if sz = 0 then some (pitchOffset, []) else none
  | rounds + 1, pitchOffset, start, sz =>
    if sz = 0 then some (pitchOffset, [])
    else
      let cnt := if sz < pitchBlen - pitchOffset then sz else pitchBlen - pitchOffset
      let behind := pitchOffset + cnt
      (getfespeech pitchBlen out rounds (if behind = pitchBlen then 0 else behind) (start + cnt)
        (sz - cnt)).map fun later =>
          (later.1, ⟨.pitchBuf, p.histLen - pitchBlen + pitchOffset, cnt⟩ :: ⟨out, start, cnt⟩ ::
            later.2)

/-- What `overlapadd` touches, for a pitch buffer of that length. -/
def overlapaddPieces (pitchBlen overlap : Int) : List Piece :=
  [⟨.pitchLastq, 0, overlap⟩, ⟨.pitchBuf, p.histLen - pitchBlen - overlap, overlap⟩,
    ⟨.pitchBuf, p.histLen - overlap, overlap⟩]

/-- A quarter of the pitch period, or what there is room for. -/
def overlapOf (pitch : Nat) : Nat :=
  if p.pitchOverlapmax < pitch >>> 2 then p.pitchOverlapmax else pitch >>> 2

/-- The counters when a loss begins. -/
def beginLoss (pitch : Nat) (s : ChannelCounters) : ChannelCounters where
  mode := .lossPeriod1
  concealCount := 0
  transitionLen := s.transitionLen
  transitionCount := s.transitionCount
  pitchOverlap := p.overlapOf pitch
  pitchOffset := 0
  pitch := pitch
  pitchBlen := pitch

/-- What is touched when a loss begins, without the search for the pitch. -/
def beginPieces (pitch : Nat) : List Piece :=
  [⟨.histBuf, 0, p.histLen⟩, ⟨.pitchBuf, 0, p.histLen⟩,
    ⟨.pitchBuf, p.histLen - p.overlapOf pitch, p.overlapOf pitch⟩,
    ⟨.pitchLastq, 0, p.overlapOf pitch⟩] ++
  p.overlapaddPieces pitch (p.overlapOf pitch) ++
  [⟨.pitchBuf, p.histLen - p.overlapOf pitch, p.overlapOf pitch⟩,
    ⟨.histBuf, p.histLen - p.overlapOf pitch, p.overlapOf pitch⟩]

/-- `size` samples are taken from the pitch buffer. -/
def takeSpeech (s : ChannelCounters) (mode : PlcMode) (start rest size : Int) :
    Option (ChannelCounters × PlcStep) :=
  (p.getfespeech s.pitchBlen .frame (size.toNat + 1) s.pitchOffset start size).map fun taken =>
    ({ s with
      mode := mode
      pitchOffset := taken.1
      concealCount := wrapInt (s.concealCount + size) },
      ⟨rest, size, ⟨.frame, start, size⟩ :: taken.2⟩)

/-- Up to the end of a period, when it is reached. -/
def untilEnd (s : ChannelCounters) (last : Int) (after : PlcMode) (start size : Int) :
    Option (ChannelCounters × PlcStep) :=
  if last ≤ wrapInt (size + s.concealCount) then
    p.takeSpeech s after start size (last - s.concealCount)
  else
    p.takeSpeech s s.mode start size size

/-- `LOSS_PERIOD2overlap`. -/
def lossPeriod2Overlap (s : ChannelCounters) (start size : Int) : ChannelCounters × PlcStep :=
  let last := p.ms2samples 10 + s.pitchOverlap
  let reached := last ≤ wrapInt (s.concealCount + size)
  let taken := if reached then last - s.concealCount else size
  ({ s with
    mode := if reached then .lossPeriod2 else .lossPeriod2Overlap
    concealCount := wrapInt (s.concealCount + taken) },
    ⟨size, taken, [⟨.concealOverlapbuf, s.concealCount - p.ms2samples 10, taken⟩,
      ⟨.frame, start, taken⟩]⟩)

/-- `LOSS_PERIOD2start`. -/
def lossPeriod2Start (s : ChannelCounters) (start size : Int) :
    Option (ChannelCounters × PlcStep) :=
  let rounds := s.pitchOverlap.toNat + 1
  let pitchBlen := s.pitchBlen + s.pitch
  (p.getfespeech s.pitchBlen .tmpBuf rounds s.pitchOffset 0 s.pitchOverlap).bind fun tail =>
    (p.getfespeech pitchBlen .concealOverlapbuf rounds (s.pitchOffset.tmod s.pitch) 0
      s.pitchOverlap).map fun longer =>
        let done := p.lossPeriod2Overlap
          { s with pitchOffset := longer.1, pitchBlen := pitchBlen } start size
        (done.1, ⟨done.2.rest, done.2.taken,
          tail.2 ++ p.overlapaddPieces pitchBlen s.pitchOverlap ++ longer.2 ++
            [⟨.tmpBuf, 0, s.pitchOverlap⟩, ⟨.concealOverlapbuf, 0, s.pitchOverlap⟩] ++
            done.2.pieces⟩)

/-- `dofe_partly`, with the pitch that is found if a loss begins. -/
def dofePartly (pitch : Nat) (s : ChannelCounters) (start size : Int) :
    Option (ChannelCounters × PlcStep) :=
  match s.mode with
  | .noLoss | .transition =>
    (p.untilEnd (p.beginLoss pitch s) (p.ms2samples 10) .lossPeriod2Start start size).map
      fun done => (done.1, ⟨done.2.rest, done.2.taken, p.beginPieces pitch ++ done.2.pieces⟩)
  | .lossPeriod1 => p.untilEnd s (p.ms2samples 10) .lossPeriod2Start start size
  | .lossPeriod2Start => p.lossPeriod2Start s start size
  | .lossPeriod2Overlap => some (p.lossPeriod2Overlap s start size)
  | .lossPeriod2 => p.untilEnd s (p.ms2samples 60) .lossPeriod3 start size
  | .lossPeriod3 =>
    some ({ s with concealCount := wrapInt (s.concealCount + size) },
      ⟨size, size, [⟨.frame, start, size⟩]⟩)

/-- The loop of `dofe` in a channel, with so many rounds. -/
def dofeLoop (pitch : Nat) : Nat → ChannelCounters → Int → Int →
    Option (ChannelCounters × List PlcStep)
  | 0, _, _, _ => none
  | rounds + 1, s, start, rest =>
    (p.dofePartly pitch s start rest).bind fun done =>
      if 0 < rest - done.2.taken then
        (dofeLoop pitch rounds done.1 (start + done.2.taken) (rest - done.2.taken)).map
          fun later => (later.1, done.2 :: later.2)
      else
        some (done.1, [done.2])

/-- `dofe` in a channel. -/
def dofe (pitch size : Nat) (s : ChannelCounters) : Option (ChannelCounters × List PlcStep) :=
  p.dofeLoop pitch (size + 1) s 0 size

/-- The length of the transition. What `round` gives for 0.4 times the samples is their four
tenths to the nearest whole number, as no such number is a half. -/
def transitionLength (s : ChannelCounters) : Int :=
  let longer := if p.ms2samples 10 < s.concealCount then
      s.pitchOverlap + (4 * (s.concealCount - p.ms2samples 10) + 5) / 10
    else s.pitchOverlap
  if p.ms2samples 10 < longer then p.ms2samples 10 else longer

/-- The case `TRANSITION` of `addtohistory`. -/
def mixTransition (size : Nat) (s : ChannelCounters) : ChannelCounters × List Piece :=
  let behind := wrapInt (s.transitionCount + size)
  let last := if s.transitionLen ≤ behind then s.transitionLen else behind
  ({ s with
    mode := if s.transitionLen ≤ behind then .noLoss else .transition
    transitionCount := last },
    [⟨.frame, 0, last - s.transitionCount⟩,
      ⟨.transitionBuf, s.transitionCount, last - s.transitionCount⟩])

/-- The counters when good speech comes after a loss. -/
def beginTransition (s : ChannelCounters) (pitchOffset : Int) : ChannelCounters :=
  { s with
    mode := .transition
    transitionLen := p.transitionLength s
    transitionCount := 0
    pitchOffset := pitchOffset }

/-- `addtohistory` in a channel. -/
def addtohistory (size : Nat) (s : ChannelCounters) : Option (ChannelCounters × List Piece) :=
  match s.mode with
  | .noLoss => some (s, [])
  | .transition => some (mixTransition size s)
  | _ =>
    (p.getfespeech s.pitchBlen .transitionBuf ((p.transitionLength s).toNat + 1) s.pitchOffset 0
      (p.transitionLength s)).map fun speech =>
        let mixed := mixTransition size (p.beginTransition s speech.1)
        (mixed.1, speech.2 ++ [⟨.transitionBuf, 0, p.transitionLength s⟩] ++ mixed.2)

end PlcSetting

/-- The pitch that is found. -/
abbrev FoundPitch (p : PlcSetting) := { pitch : Nat // p.pitchMin ≤ pitch ∧ pitch ≤ p.pitchMax }

/-- A call, with the pitch that is found in each channel if a loss begins. -/
inductive PlcCall (p : PlcSetting) where
  | dofe (size : Nat) (pitches : Nat → FoundPitch p)
  | addtohistory (size : Nat)

namespace PlcCall

variable {p : PlcSetting}

def size : PlcCall p → Nat
  | dofe size _ | addtohistory size => size

/-- What a call does in a channel. Good speech is mixed in one step. -/
def inChannel (call : PlcCall p) (c : Nat) (s : ChannelCounters) :
    Option (ChannelCounters × List PlcStep) :=
  match call with
  | dofe size pitches => p.dofe (pitches c) size s
  | addtohistory size =>
    (p.addtohistory size s).map fun done => (done.1, [⟨size, size, done.2⟩])

/-- The steps of a call in a channel take all samples, each of them some, and stay inside of the
buffers. -/
structure Right (call : PlcCall p) (c : Nat) (steps : List PlcStep) : Prop where
  positive : ∀ size pitches, call = dofe size pitches →
    ∀ step ∈ steps, 0 < step.taken ∧ step.taken ≤ step.rest
  all : (steps.map (·.taken)).sum = call.size
  inside : ∀ step ∈ steps, ∀ piece ∈ step.pieces, p.Inside call.size c piece

/-- Some samples are asked for, and not so many that 60 ms more are no `int`. The overlap for the
pitch ends before the 60 ms do. -/
def Fits : PlcCall p → Prop
  | dofe size pitches =>
    0 < size ∧ size + p.ms2samples 60 < 2147483648 ∧
      ∀ c, (pitches c : Nat) / 4 + p.ms2samples 10 < p.ms2samples 60
  | addtohistory size => size + p.ms2samples 60 < 2147483648

end PlcCall

namespace PlcSetting

variable (p : PlcSetting)

/-- A call, in one channel after the other: what each of them does. -/
def inChannels (call : PlcCall p) : Nat → List ChannelCounters →
    Option (List ChannelCounters × List (Nat × List PlcStep))
  | _, [] => some ([], [])
  | c, s :: channels =>
    (call.inChannel c s).bind fun done =>
      (inChannels call (c + 1) channels).map fun later =>
        (done.1 :: later.1, (c, done.2) :: later.2)

/-- The speech of a call is saved inside of the buffers, whatever they hold. -/
def SavesInside (size : Nat) : Prop :=
  ∀ (plc : Plc p.toPlcSizes) (frame : Frame p.channels), frame.size = size →
    (histSavespeech plc frame).isSome

/-- All calls of a run are right. -/
def AlwaysRight : List ChannelCounters → List (PlcCall p) → Prop
  | _, [] => True
  | channels, call :: calls =>
    ∃ done, p.inChannels call 0 channels = some done ∧
      (∀ work ∈ done.2, call.Right work.1 work.2) ∧ p.SavesInside call.size ∧
      AlwaysRight done.1 calls

/-- The counters of a channel at first. -/
def noCounters : ChannelCounters := ⟨.noLoss, 0, 0, 0, 0, 0, 0, 0⟩

/-- The counters of all channels at first. -/
def initial : List ChannelCounters := List.replicate p.channels noCounters

section Sizes

variable {p}

theorem ms2samples_bounds (p : PlcSetting) : 80 ≤ p.ms2samples 10 ∧
    p.ms2samples 10 < p.ms2samples 60 ∧ p.ms2samples 60 ≤ 2880 := by
  have hleast := p.rate_least
  have hmost := p.rate_most
  unfold ms2samples
  omega

theorem pitch_bounds (pitch : FoundPitch p) :
    8 ≤ (pitch : Nat) ∧ (pitch : Nat) ≤ p.pitchMax := by
  have hleast := p.rate_least
  have hmin := p.pitchMin_least
  have hpitch := pitch.2
  omega

theorem overlapmax_eq (p : PlcSetting) : p.pitchOverlapmax = p.pitchMax / 4 :=
  Nat.shiftRight_eq_div_pow _ 2

theorem histLen_eq (p : PlcSetting) : p.histLen = p.pitchMax * 3 + p.pitchMax / 4 := by
  rw [PlcSizes.histLen, overlapmax_eq]

/-- There is room for the overlap of each pitch. -/
theorem overlapOf_eq (pitch : FoundPitch p) : p.overlapOf pitch = (pitch : Nat) / 4 := by
  have hpitch := (pitch_bounds pitch).2
  have hshift : (pitch : Nat) >>> 2 = (pitch : Nat) / 4 := Nat.shiftRight_eq_div_pow _ 2
  rw [overlapOf, overlapmax_eq, hshift]
  exact if_neg (by omega)

theorem inside_of {size c : Nat} (hc : c < p.channels) {piece : Piece} (hstart : 0 ≤ piece.start)
    (hend : piece.start + piece.count ≤ p.samples size piece.buffer) : p.Inside size c piece := by
  intro i hi
  have hle : piece.start + i + 1 ≤ p.samples size piece.buffer := by omega
  have hmul := Int.mul_le_mul_of_nonneg_left hle (Int.natCast_nonneg p.channels)
  have hpos := Int.mul_nonneg (Int.natCast_nonneg p.channels) (Int.add_nonneg hstart
    (Int.natCast_nonneg i))
  rw [Int.mul_add, Int.mul_one] at hmul
  constructor
  · omega
  · omega

theorem wrapInt_small {x : Int} (hlow : 0 ≤ x) (hhigh : x < 2147483648) : wrapInt x = x := by
  have hnat : (x.toNat : Int) = x := Int.toNat_of_nonneg hlow
  rw [← hnat]
  exact (BitRateCalculator.wrapInt_eq_iff x.toNat).2 (by omega)

end Sizes

section Speech

variable {p} {size c : Nat}

/-- Speech is taken from the pitch buffer, round and round. -/
theorem getfespeech_spec (hc : c < p.channels) {pitchBlen : Int} {out : PlcBuffer}
    (hblen : pitchBlen ≤ p.histLen) (rounds : Nat) (pitchOffset start sz : Int)
    (hoffset : 0 ≤ pitchOffset ∧ pitchOffset < pitchBlen) (hstart : 0 ≤ start) (hsz : 0 ≤ sz)
    (hend : start + sz ≤ p.samples size out) (hrounds : sz ≤ rounds) :
    ∃ after pieces, p.getfespeech pitchBlen out rounds pitchOffset start sz =
        some (after, pieces) ∧
      (0 ≤ after ∧ after < pitchBlen) ∧ ∀ piece ∈ pieces, p.Inside size c piece := by
  induction rounds generalizing pitchOffset start sz with
  | zero =>
      have hzero : sz = 0 := by omega
      exact ⟨pitchOffset, [], if_pos hzero, hoffset, fun _ h => absurd h List.not_mem_nil⟩
  | succ rounds ih =>
      rw [getfespeech]
      by_cases hzero : sz = 0
      · exact ⟨pitchOffset, [], if_pos hzero, hoffset, fun _ h => absurd h List.not_mem_nil⟩
      rw [if_neg hzero]
      -- Each round takes at least one sample.
      generalize hcnt : (if sz < pitchBlen - pitchOffset then sz else pitchBlen - pitchOffset) = cnt
      have hbounds : 0 < cnt ∧ cnt ≤ sz ∧ cnt ≤ pitchBlen - pitchOffset := by
        rw [← hcnt]
        split
        · omega
        · omega
      have hnext : 0 ≤ (if pitchOffset + cnt = pitchBlen then 0 else pitchOffset + cnt) ∧
          (if pitchOffset + cnt = pitchBlen then 0 else pitchOffset + cnt) < pitchBlen := by
        split
        · omega
        · omega
      rcases ih _ (start + cnt) (sz - cnt) hnext (by omega) (by omega) (by omega) (by omega) with
        ⟨after, pieces, hlater, hafter, hpieces⟩
      refine ⟨after, ⟨.pitchBuf, p.histLen - pitchBlen + pitchOffset, cnt⟩ ::
        ⟨out, start, cnt⟩ :: pieces, ?_, hafter, ?_⟩
      · dsimp only
        rw [hlater]
        rfl
      rw [List.forall_mem_cons, List.forall_mem_cons]
      refine ⟨inside_of hc ?_ ?_, inside_of hc ?_ ?_, hpieces⟩
      · change 0 ≤ (p.histLen : Int) - pitchBlen + pitchOffset
        omega
      · change (p.histLen : Int) - pitchBlen + pitchOffset + cnt ≤ p.histLen
        omega
      · exact hstart
      · change start + cnt ≤ p.samples size out
        omega

/-- The pitch buffer holds so many periods of the pitch, and the overlap ends in time. -/
structure Synthesizes (p : PlcSetting) (periods : Int) (s : ChannelCounters) : Prop where
  pitch : 8 ≤ s.pitch ∧ s.pitch ≤ p.pitchMax
  overlap : s.pitchOverlap = s.pitch / 4
  inTime : s.pitch / 4 + p.ms2samples 10 < p.ms2samples 60
  blen : s.pitchBlen = periods * s.pitch
  offset : 0 ≤ s.pitchOffset ∧ s.pitchOffset < s.pitchBlen

/-- What holds in each mode. -/
def Consistent (p : PlcSetting) (s : ChannelCounters) : Prop :=
  match s.mode with
  | .noLoss => True
  | .lossPeriod1 => Synthesizes p 1 s ∧ 0 ≤ s.concealCount ∧ s.concealCount < p.ms2samples 10
  | .lossPeriod2Start => Synthesizes p 1 s ∧ s.concealCount = p.ms2samples 10
  | .lossPeriod2Overlap => Synthesizes p 2 s ∧ p.ms2samples 10 ≤ s.concealCount ∧
      s.concealCount < p.ms2samples 10 + s.pitchOverlap
  | .lossPeriod2 => Synthesizes p 2 s ∧ p.ms2samples 10 + s.pitchOverlap ≤ s.concealCount ∧
      s.concealCount < p.ms2samples 60
  | .lossPeriod3 => Synthesizes p 2 s
  | .transition => 0 ≤ s.transitionCount ∧ s.transitionCount ≤ s.transitionLen ∧
      s.transitionLen ≤ p.ms2samples 10

/-- A step that takes some of the samples, and leaves a consistent channel. -/
structure GoodStep (p : PlcSetting) (size c : Nat) (rest : Int)
    (done : ChannelCounters × PlcStep) : Prop where
  consistent : Consistent p done.1
  left : done.2.rest = rest
  positive : 0 < done.2.taken
  most : done.2.taken ≤ rest
  inside : ∀ piece ∈ done.2.pieces, p.Inside size c piece

end Speech

section Steps

variable {p} {size c : Nat} {s : ChannelCounters} {start rest : Int}

/-- No period is longer than the history. -/
theorem Synthesizes.le_histLen {periods : Int} (h : Synthesizes p periods s)
    (hperiods : periods = 1 ∨ periods = 2) : s.pitchBlen + s.pitchOverlap ≤ p.histLen := by
  have hpitch := h.pitch
  rw [h.blen, h.overlap, histLen_eq]
  rcases hperiods with rfl | rfl
  · omega
  · omega

/-- Samples of the pitch buffer, in a period. -/
theorem takeSpeech_spec (hc : c < p.channels) {periods : Int} (h : Synthesizes p periods s)
    (hperiods : periods = 1 ∨ periods = 2) (mode : PlcMode) (taken : Int) (hstart : 0 ≤ start)
    (htaken : 0 < taken) (hend : start + taken ≤ size) :
    ∃ after pieces, p.takeSpeech s mode start rest taken = some
        ({ s with
          mode := mode
          pitchOffset := after
          concealCount := wrapInt (s.concealCount + taken) }, ⟨rest, taken, pieces⟩) ∧
      (0 ≤ after ∧ after < s.pitchBlen) ∧ ∀ piece ∈ pieces, p.Inside size c piece := by
  have hblen := h.le_histLen hperiods
  have hoverlap : 0 ≤ s.pitchOverlap := by
    have hpitch := h.pitch
    rw [h.overlap]
    omega
  rcases @getfespeech_spec p size c hc s.pitchBlen .frame (by omega) (taken.toNat + 1)
    s.pitchOffset start taken h.offset hstart (by omega) hend (by omega) with
    ⟨after, pieces, hspeech, hafter, hpieces⟩
  refine ⟨after, ⟨.frame, start, taken⟩ :: pieces, ?_, hafter, ?_⟩
  · rw [takeSpeech, hspeech]
    rfl
  · exact List.forall_mem_cons.2 ⟨inside_of hc hstart hend, hpieces⟩

/-- A step up to the end of a period, where some samples are left of it. -/
theorem untilEnd_spec (hc : c < p.channels) {periods last : Int} {after : PlcMode}
    (h : Synthesizes p periods s) (hperiods : periods = 1 ∨ periods = 2)
    (hcount : 0 ≤ s.concealCount ∧ s.concealCount < last) (hlast : last ≤ p.ms2samples 60)
    (hstart : 0 ≤ start) (hrest : 0 < rest) (hend : start + rest ≤ size)
    (hsize : rest + p.ms2samples 60 < 2147483648)
    (hagain : ∀ s' : ChannelCounters, s'.mode = s.mode → Synthesizes p periods s' →
      s.concealCount ≤ s'.concealCount → s'.concealCount < last → s'.pitchOverlap = s.pitchOverlap →
      Consistent p s')
    (hafter : ∀ s' : ChannelCounters, s'.mode = after → Synthesizes p periods s' →
      s'.concealCount = last → Consistent p s') :
    ∃ done, p.untilEnd s last after start rest = some done ∧ GoodStep p size c rest done := by
  rw [untilEnd, wrapInt_small (by omega) (by omega)]
  by_cases hreached : last ≤ rest + s.concealCount
  · rw [if_pos hreached]
    rcases @takeSpeech_spec p size c s start rest hc _ h hperiods after (last - s.concealCount) hstart
      (by omega)
      (show start + (last - s.concealCount) ≤ size by omega) with
      ⟨offset, pieces, htake, hoffset, hpieces⟩
    refine ⟨_, htake, hafter _ rfl ⟨h.pitch, h.overlap, h.inTime, h.blen, hoffset⟩ ?_, rfl, ?_, ?_,
      hpieces⟩
    · change wrapInt (s.concealCount + (last - s.concealCount)) = last
      rw [wrapInt_small (by omega) (by omega)]
      omega
    · change 0 < last - s.concealCount
      omega
    · change last - s.concealCount ≤ rest
      omega
  · rw [if_neg hreached]
    rcases @takeSpeech_spec p size c s start rest hc _ h hperiods s.mode rest hstart hrest hend with
      ⟨offset, pieces, htake, hoffset, hpieces⟩
    have hwrap : wrapInt (s.concealCount + rest) = s.concealCount + rest :=
      wrapInt_small (by omega) (by omega)
    refine ⟨_, htake, hagain _ rfl ⟨h.pitch, h.overlap, h.inTime, h.blen, hoffset⟩ ?_ ?_ rfl, rfl,
      hrest, Int.le_refl rest, hpieces⟩
    · change s.concealCount ≤ wrapInt (s.concealCount + rest)
      rw [hwrap]
      omega
    · change wrapInt (s.concealCount + rest) < last
      rw [hwrap]
      omega

/-- The first period. -/
theorem lossPeriod1_spec (hc : c < p.channels) (hmode : s.mode = .lossPeriod1)
    (h : Consistent p s) (hstart : 0 ≤ start) (hrest : 0 < rest) (hend : start + rest ≤ size)
    (hsize : rest + p.ms2samples 60 < 2147483648) :
    ∃ done, p.untilEnd s (p.ms2samples 10) .lossPeriod2Start start rest = some done ∧
      GoodStep p size c rest done := by
  have hms := ms2samples_bounds p
  simp only [Consistent, hmode] at h
  rcases h with ⟨hsynth, hcount⟩
  refine untilEnd_spec hc hsynth (.inl rfl) hcount (by omega) hstart hrest hend hsize ?_ ?_
  · intro s' hmode' hsynth' hle hlt _
    rw [hmode] at hmode'
    simp only [Consistent, hmode']
    exact ⟨hsynth', by omega, hlt⟩
  · intro s' hmode' hsynth' hcount'
    simp only [Consistent, hmode']
    exact ⟨hsynth', hcount'⟩

/-- The second period. -/
theorem lossPeriod2_spec (hc : c < p.channels) (hmode : s.mode = .lossPeriod2)
    (h : Consistent p s) (hstart : 0 ≤ start) (hrest : 0 < rest) (hend : start + rest ≤ size)
    (hsize : rest + p.ms2samples 60 < 2147483648) :
    ∃ done, p.untilEnd s (p.ms2samples 60) .lossPeriod3 start rest = some done ∧
      GoodStep p size c rest done := by
  simp only [Consistent, hmode] at h
  rcases h with ⟨hsynth, hleast, hmost⟩
  have hoverlap : 0 ≤ s.pitchOverlap := by
    have hpitch := hsynth.pitch
    rw [hsynth.overlap]
    omega
  refine untilEnd_spec hc hsynth (.inr rfl) ⟨by omega, hmost⟩ (Int.le_refl _) hstart hrest hend
    hsize ?_ ?_
  · intro s' hmode' hsynth' hle hlt hsame
    rw [hmode] at hmode'
    simp only [Consistent, hmode']
    exact ⟨hsynth', by omega, hlt⟩
  · intro s' hmode' hsynth' _
    simp only [Consistent, hmode']
    exact hsynth'

/-- The overlap of both periods. -/
theorem lossPeriod2Overlap_spec (hc : c < p.channels) (hsynth : Synthesizes p 2 s)
    (hleast : p.ms2samples 10 ≤ s.concealCount)
    (hmost : s.concealCount < p.ms2samples 10 + s.pitchOverlap) (hstart : 0 ≤ start)
    (hrest : 0 < rest) (hend : start + rest ≤ size)
    (hsize : rest + p.ms2samples 60 < 2147483648) :
    GoodStep p size c rest (p.lossPeriod2Overlap s start rest) := by
  have hms := ms2samples_bounds p
  have hpitch := hsynth.pitch
  have htime := hsynth.inTime
  have hblen := hsynth.le_histLen (.inr rfl)
  have hlast : p.ms2samples 10 + s.pitchOverlap < p.ms2samples 60 := by
    rw [hsynth.overlap]
    omega
  have hroom : s.pitchOverlap ≤ p.histLen := by
    rw [hsynth.blen] at hblen
    omega
  have hpieces : ∀ taken : Int, 0 < taken → taken ≤ rest →
      s.concealCount + taken ≤ p.ms2samples 10 + s.pitchOverlap →
      ∀ piece ∈ [⟨.concealOverlapbuf, s.concealCount - p.ms2samples 10, taken⟩,
        (⟨.frame, start, taken⟩ : Piece)], p.Inside size c piece := by
    intro taken htaken hle hin
    rw [List.forall_mem_cons, List.forall_mem_singleton]
    refine ⟨inside_of hc ?_ ?_, inside_of hc hstart ?_⟩
    · change 0 ≤ s.concealCount - p.ms2samples 10
      omega
    · change s.concealCount - p.ms2samples 10 + taken ≤ p.histLen
      omega
    · change start + taken ≤ size
      omega
  unfold lossPeriod2Overlap
  rw [wrapInt_small (x := s.concealCount + rest) (by omega) (by omega)]
  by_cases hreached : (p.ms2samples 10 : Int) + s.pitchOverlap ≤ s.concealCount + rest
  · simp only [if_pos hreached]
    rw [wrapInt_small (by omega) (by omega)]
    refine ⟨?_, rfl, ?_, ?_, hpieces _ (by omega) (by omega) (by omega)⟩
    · refine ⟨⟨hpitch, hsynth.overlap, htime, hsynth.blen, hsynth.offset⟩, ?_, ?_⟩
      · change (p.ms2samples 10 : Int) + s.pitchOverlap ≤
          s.concealCount + (p.ms2samples 10 + s.pitchOverlap - s.concealCount)
        omega
      · change s.concealCount + (p.ms2samples 10 + s.pitchOverlap - s.concealCount) <
          (p.ms2samples 60 : Int)
        omega
    · change 0 < (p.ms2samples 10 : Int) + s.pitchOverlap - s.concealCount
      omega
    · change (p.ms2samples 10 : Int) + s.pitchOverlap - s.concealCount ≤ rest
      omega
  · simp only [if_neg hreached]
    rw [wrapInt_small (by omega) (by omega)]
    refine ⟨?_, rfl, hrest, Int.le_refl rest, hpieces rest hrest (Int.le_refl rest) (by omega)⟩
    refine ⟨⟨hpitch, hsynth.overlap, htime, hsynth.blen, hsynth.offset⟩, ?_, ?_⟩
    · change (p.ms2samples 10 : Int) ≤ s.concealCount + rest
      omega
    · change s.concealCount + rest < (p.ms2samples 10 : Int) + s.pitchOverlap
      omega

/-- What `overlapadd` touches is there. -/
theorem overlapaddPieces_inside (hc : c < p.channels) {pitchBlen overlap : Int}
    (hoverlap : 0 ≤ overlap ∧ overlap ≤ p.pitchOverlapmax) (hpositive : 0 ≤ pitchBlen)
    (hblen : pitchBlen + overlap ≤ p.histLen) :
    ∀ piece ∈ p.overlapaddPieces pitchBlen overlap, p.Inside size c piece := by
  rw [overlapaddPieces, List.forall_mem_cons, List.forall_mem_cons, List.forall_mem_singleton]
  refine ⟨inside_of hc (Int.le_refl 0) ?_, inside_of hc ?_ ?_, inside_of hc ?_ ?_⟩
  · change 0 + overlap ≤ p.pitchOverlapmax
    omega
  · change 0 ≤ (p.histLen : Int) - pitchBlen - overlap
    omega
  · change (p.histLen : Int) - pitchBlen - overlap + overlap ≤ p.histLen
    omega
  · change 0 ≤ (p.histLen : Int) - overlap
    omega
  · change (p.histLen : Int) - overlap + overlap ≤ p.histLen
    omega

/-- The beginning of the second period. -/
theorem lossPeriod2Start_spec (hc : c < p.channels) (hmode : s.mode = .lossPeriod2Start)
    (h : Consistent p s) (hstart : 0 ≤ start) (hrest : 0 < rest) (hend : start + rest ≤ size)
    (hsize : rest + p.ms2samples 60 < 2147483648) :
    ∃ done, p.lossPeriod2Start s start rest = some done ∧ GoodStep p size c rest done := by
  simp only [Consistent, hmode] at h
  rcases h with ⟨hsynth, hcount⟩
  have hpitch := hsynth.pitch
  have hblen := hsynth.blen
  have hoverlap : s.pitchOverlap = s.pitch / 4 := hsynth.overlap
  have hhist := histLen_eq p
  have hmax := overlapmax_eq p
  rcases @getfespeech_spec p size c hc s.pitchBlen .tmpBuf (by omega) (s.pitchOverlap.toNat + 1)
    s.pitchOffset 0 s.pitchOverlap hsynth.offset (Int.le_refl 0) (by omega)
    (show 0 + s.pitchOverlap ≤ p.pitchOverlapmax by omega) (by omega) with
    ⟨tail, tailPieces, htail, _, htailPieces⟩
  -- The offset is in the first of the two periods.
  have hoffset : 0 ≤ s.pitchOffset.tmod s.pitch ∧
      s.pitchOffset.tmod s.pitch < s.pitchBlen + s.pitch := by
    have hpos : 0 ≤ s.pitchOffset.tmod s.pitch := Int.tmod_nonneg _ hsynth.offset.1
    have hlt := Int.tmod_lt_of_pos s.pitchOffset (show 0 < s.pitch by omega)
    omega
  rcases @getfespeech_spec p size c hc (s.pitchBlen + s.pitch) .concealOverlapbuf (by omega)
    (s.pitchOverlap.toNat + 1) (s.pitchOffset.tmod s.pitch) 0 s.pitchOverlap hoffset
    (Int.le_refl 0) (by omega) (show 0 + s.pitchOverlap ≤ p.histLen by omega) (by omega) with
    ⟨longer, longerPieces, hlonger, hlongerOffset, hlongerPieces⟩
  have hnext : Synthesizes p 2
      { s with pitchOffset := longer, pitchBlen := s.pitchBlen + s.pitch } :=
    ⟨hpitch, hoverlap, hsynth.inTime, by
      change s.pitchBlen + s.pitch = 2 * s.pitch
      omega, hlongerOffset⟩
  have hdone := lossPeriod2Overlap_spec hc hnext (Int.le_of_eq hcount.symm)
    (by
      change s.concealCount < p.ms2samples 10 + s.pitchOverlap
      omega) hstart hrest hend hsize
  rw [lossPeriod2Start]
  dsimp only
  rw [htail, Option.bind_some, hlonger, Option.map_some]
  refine ⟨_, rfl, hdone.consistent, hdone.left, hdone.positive, hdone.most, ?_⟩
  simp only [List.forall_mem_append]
  refine ⟨⟨⟨⟨htailPieces, overlapaddPieces_inside hc (by omega) (by omega) (by omega)⟩,
    hlongerPieces⟩, ?_⟩, hdone.inside⟩
  rw [List.forall_mem_cons, List.forall_mem_singleton]
  refine ⟨inside_of hc (Int.le_refl 0) ?_, inside_of hc (Int.le_refl 0) ?_⟩
  · change 0 + s.pitchOverlap ≤ p.pitchOverlapmax
    omega
  · change 0 + s.pitchOverlap ≤ p.histLen
    omega

/-- The beginning of a loss. -/
theorem beginLoss_spec (hc : c < p.channels) (pitch : FoundPitch p)
    (hfits : (pitch : Nat) / 4 + p.ms2samples 10 < p.ms2samples 60) (s : ChannelCounters) :
    Consistent p (p.beginLoss pitch s) ∧
      ∀ piece ∈ p.beginPieces pitch, p.Inside size c piece := by
  have hms := ms2samples_bounds p
  have hpitch := pitch_bounds pitch
  have hoverlap := overlapOf_eq pitch
  have hhist := histLen_eq p
  have hmax := overlapmax_eq p
  constructor
  · refine ⟨⟨⟨?_, ?_⟩, ?_, ?_, ?_, ?_⟩, Int.le_refl 0, ?_⟩
    · change (8 : Int) ≤ (pitch : Nat)
      omega
    · change ((pitch : Nat) : Int) ≤ p.pitchMax
      omega
    · change ((p.overlapOf pitch : Nat) : Int) = (pitch : Nat) / 4
      omega
    · change ((pitch : Nat) : Int) / 4 + p.ms2samples 10 < p.ms2samples 60
      omega
    · change ((pitch : Nat) : Int) = 1 * (pitch : Nat)
      omega
    · change 0 ≤ 0 ∧ (0 : Int) < (pitch : Nat)
      omega
    · change (0 : Int) < p.ms2samples 10
      omega
  · have hquarter : ∀ buffer : PlcBuffer, p.samples size buffer = p.histLen →
        p.Inside size c ⟨buffer, p.histLen - p.overlapOf pitch, p.overlapOf pitch⟩ := by
      intro buffer hbuffer
      refine inside_of hc ?_ ?_
      · change 0 ≤ (p.histLen : Int) - p.overlapOf pitch
        omega
      · change (p.histLen : Int) - p.overlapOf pitch + p.overlapOf pitch ≤ p.samples size buffer
        omega
    have hwhole : ∀ buffer : PlcBuffer, p.samples size buffer = p.histLen →
        p.Inside size c ⟨buffer, 0, p.histLen⟩ := by
      intro buffer hbuffer
      refine inside_of hc (Int.le_refl 0) ?_
      change 0 + (p.histLen : Int) ≤ p.samples size buffer
      omega
    have hlast : p.Inside size c ⟨.pitchLastq, 0, p.overlapOf pitch⟩ := by
      refine inside_of hc (Int.le_refl 0) ?_
      change 0 + (p.overlapOf pitch : Int) ≤ p.pitchOverlapmax
      omega
    rw [beginPieces]
    have hnone : ∀ piece ∈ ([] : List Piece), p.Inside size c piece :=
      fun _ h => absurd h List.not_mem_nil
    simp only [List.forall_mem_append, List.forall_mem_cons]
    exact ⟨⟨⟨hwhole .histBuf rfl, hwhole .pitchBuf rfl, hquarter .pitchBuf rfl, hlast, hnone⟩,
      overlapaddPieces_inside hc (by omega) (by omega) (by omega)⟩, hquarter .pitchBuf rfl,
      hquarter .histBuf rfl, hnone⟩

/-- One step. -/
theorem dofePartly_spec (hc : c < p.channels) (pitch : FoundPitch p)
    (hfits : (pitch : Nat) / 4 + p.ms2samples 10 < p.ms2samples 60) (h : Consistent p s)
    (hstart : 0 ≤ start) (hrest : 0 < rest) (hend : start + rest ≤ size)
    (hsize : rest + p.ms2samples 60 < 2147483648) :
    ∃ done, p.dofePartly pitch s start rest = some done ∧ GoodStep p size c rest done := by
  -- A loss that begins is in its first period.
  have hbegin : ∃ done, (p.untilEnd (p.beginLoss pitch s) (p.ms2samples 10) .lossPeriod2Start start
      rest).map (fun done =>
        (done.1, (⟨done.2.rest, done.2.taken, p.beginPieces pitch ++ done.2.pieces⟩ : PlcStep))) =
        some done ∧ GoodStep p size c rest done := by
    rcases @beginLoss_spec p size c hc pitch hfits s with ⟨hconsistent, hpieces⟩
    rcases lossPeriod1_spec hc rfl hconsistent hstart hrest hend hsize with ⟨done, hdone, hgood⟩
    rw [hdone, Option.map_some]
    exact ⟨_, rfl, hgood.consistent, hgood.left, hgood.positive, hgood.most,
      List.forall_mem_append.2 ⟨hpieces, hgood.inside⟩⟩
  unfold dofePartly
  cases hmode : s.mode with
  | noLoss => exact hbegin
  | transition => exact hbegin
  | lossPeriod1 => exact lossPeriod1_spec hc hmode h hstart hrest hend hsize
  | lossPeriod2Start => exact lossPeriod2Start_spec hc hmode h hstart hrest hend hsize
  | lossPeriod2Overlap =>
      simp only [Consistent, hmode] at h
      exact ⟨_, rfl, lossPeriod2Overlap_spec hc h.1 h.2.1 h.2.2 hstart hrest hend hsize⟩
  | lossPeriod2 => exact lossPeriod2_spec hc hmode h hstart hrest hend hsize
  | lossPeriod3 =>
      simp only [Consistent, hmode] at h
      refine ⟨_, rfl, ?_, rfl, hrest, Int.le_refl rest, ?_⟩
      · simp only [Consistent]
        exact ⟨h.pitch, h.overlap, h.inTime, h.blen, h.offset⟩
      · exact List.forall_mem_singleton.2 (inside_of hc hstart hend)

/-- All steps: they take what was asked for. -/
theorem dofeLoop_spec (hc : c < p.channels) (pitch : FoundPitch p)
    (hfits : (pitch : Nat) / 4 + p.ms2samples 10 < p.ms2samples 60) (rounds : Nat)
    (h : Consistent p s) (hstart : 0 ≤ start) (hrest : 0 < rest) (hend : start + rest ≤ size)
    (hsize : rest + p.ms2samples 60 < 2147483648) (hrounds : rest ≤ rounds) :
    ∃ after steps, p.dofeLoop pitch rounds s start rest = some (after, steps) ∧
      Consistent p after ∧ (steps.map (·.taken)).sum = rest ∧
      ∀ step ∈ steps, (0 < step.taken ∧ step.taken ≤ step.rest) ∧
        ∀ piece ∈ step.pieces, p.Inside size c piece := by
  induction rounds generalizing s start rest with
  | zero => omega
  | succ rounds ih =>
      rcases dofePartly_spec hc pitch hfits h hstart hrest hend hsize with ⟨done, hdone, hgood⟩
      have hstep : (0 < done.2.taken ∧ done.2.taken ≤ done.2.rest) ∧
          ∀ piece ∈ done.2.pieces, p.Inside size c piece :=
        ⟨⟨hgood.positive, hgood.left.symm ▸ hgood.most⟩, hgood.inside⟩
      have hpositive := hgood.positive
      have hmost := hgood.most
      rw [dofeLoop, hdone, Option.bind_some]
      by_cases hmore : 0 < rest - done.2.taken
      · rw [if_pos hmore]
        rcases ih hgood.consistent (show 0 ≤ start + done.2.taken by omega) hmore (by omega)
          (by omega) (by omega) with ⟨after, steps, hlater, hafter, hsum, hsteps⟩
        rw [hlater, Option.map_some]
        refine ⟨after, done.2 :: steps, rfl, hafter, ?_, List.forall_mem_cons.2 ⟨hstep, hsteps⟩⟩
        rw [List.map_cons, List.sum_cons, hsum]
        omega
      · rw [if_neg hmore]
        refine ⟨done.1, [done.2], rfl, hgood.consistent, ?_, List.forall_mem_singleton.2 hstep⟩
        rw [List.map_singleton, List.sum_singleton]
        omega

end Steps

section Runs

variable {p} {size c : Nat} {s : ChannelCounters}

/-- Good speech in a transition. -/
theorem mixTransition_spec (hc : c < p.channels) (hcount : 0 ≤ s.transitionCount)
    (hle : s.transitionCount ≤ s.transitionLen) (hlen : s.transitionLen ≤ p.ms2samples 10)
    (hsize : size + p.ms2samples 60 < 2147483648) :
    Consistent p (mixTransition size s).1 ∧
      ∀ piece ∈ (mixTransition size s).2, p.Inside size c piece := by
  have hms := ms2samples_bounds p
  have hpieces : ∀ last : Int, last ≤ s.transitionLen → last ≤ s.transitionCount + size →
      ∀ piece ∈ [⟨.frame, 0, last - s.transitionCount⟩,
        (⟨.transitionBuf, s.transitionCount, last - s.transitionCount⟩ : Piece)],
        p.Inside size c piece := by
    intro last hlast hbehind
    rw [List.forall_mem_cons, List.forall_mem_singleton]
    refine ⟨inside_of hc (Int.le_refl 0) ?_, inside_of hc hcount ?_⟩
    · change 0 + (last - s.transitionCount) ≤ size
      omega
    · change s.transitionCount + (last - s.transitionCount) ≤ p.ms2samples 10
      omega
  unfold mixTransition
  rw [wrapInt_small (by omega) (by omega)]
  by_cases hover : s.transitionLen ≤ s.transitionCount + size
  · simp only [if_pos hover]
    exact ⟨trivial, hpieces _ (Int.le_refl _) hover⟩
  · simp only [if_neg hover]
    refine ⟨⟨?_, ?_, hlen⟩, hpieces _ (by omega) (Int.le_refl _)⟩
    · change 0 ≤ s.transitionCount + (size : Int)
      omega
    · change s.transitionCount + (size : Int) ≤ s.transitionLen
      omega

theorem transitionLength_bounds (hoverlap : 0 ≤ s.pitchOverlap) :
    0 ≤ p.transitionLength s ∧ p.transitionLength s ≤ p.ms2samples 10 := by
  unfold transitionLength
  dsimp only
  split
  · split
    · omega
    · omega
  · split
    · omega
    · omega

/-- Good speech. -/
theorem addtohistory_spec (hc : c < p.channels) (h : Consistent p s)
    (hsize : size + p.ms2samples 60 < 2147483648) :
    ∃ after pieces, p.addtohistory size s = some (after, pieces) ∧ Consistent p after ∧
      ∀ piece ∈ pieces, p.Inside size c piece := by
  -- After a loss the speech goes on from the pitch buffer, in whatever period it was.
  have hloss : ∀ periods : Int, periods = 1 ∨ periods = 2 → Synthesizes p periods s →
      ∃ after pieces, (p.getfespeech s.pitchBlen .transitionBuf
        ((p.transitionLength s).toNat + 1) s.pitchOffset 0 (p.transitionLength s)).map
          (fun speech =>
            let mixed := mixTransition size (p.beginTransition s speech.1)
            (mixed.1, speech.2 ++ [⟨.transitionBuf, 0, p.transitionLength s⟩] ++ mixed.2)) =
          some (after, pieces) ∧ Consistent p after ∧
          ∀ piece ∈ pieces, p.Inside size c piece := by
    intro periods hperiods hsynth
    have hblen := hsynth.le_histLen hperiods
    have hpitch := hsynth.pitch
    have hoverlap : 0 ≤ s.pitchOverlap := by
      rw [hsynth.overlap]
      omega
    have hlength := @transitionLength_bounds p s hoverlap
    rcases @getfespeech_spec p size c hc s.pitchBlen .transitionBuf (by omega)
      ((p.transitionLength s).toNat + 1) s.pitchOffset 0 (p.transitionLength s) hsynth.offset
      (Int.le_refl 0) hlength.1
      (show 0 + p.transitionLength s ≤ p.ms2samples 10 by omega) (by omega) with
      ⟨offset, speech, hspeech, _, hpieces⟩
    rw [hspeech, Option.map_some]
    have hmixed := @mixTransition_spec p size c (p.beginTransition s offset) hc (Int.le_refl 0)
      hlength.1 hlength.2 hsize
    dsimp only
    generalize mixTransition size (p.beginTransition s offset) = mixed at hmixed ⊢
    refine ⟨mixed.1, speech ++ [⟨.transitionBuf, 0, p.transitionLength s⟩] ++ mixed.2, rfl,
      hmixed.1, ?_⟩
    rw [List.forall_mem_append, List.forall_mem_append, List.forall_mem_singleton]
    refine ⟨⟨hpieces, inside_of hc (Int.le_refl 0) ?_⟩, hmixed.2⟩
    change 0 + p.transitionLength s ≤ p.ms2samples 10
    omega
  unfold addtohistory
  unfold Consistent at h
  cases hmode : s.mode with
  | noLoss =>
      refine ⟨s, [], rfl, ?_, fun _ h => absurd h List.not_mem_nil⟩
      simp only [Consistent, hmode]
  | transition =>
      simp only [hmode] at h
      have hmixed := mixTransition_spec hc h.1 h.2.1 h.2.2 hsize
      exact ⟨_, _, rfl, hmixed.1, hmixed.2⟩
  | lossPeriod1 =>
      simp only [hmode] at h
      exact hloss 1 (.inl rfl) h.1
  | lossPeriod2Start =>
      simp only [hmode] at h
      exact hloss 1 (.inl rfl) h.1
  | lossPeriod2Overlap =>
      simp only [hmode] at h
      exact hloss 2 (.inr rfl) h.1
  | lossPeriod2 =>
      simp only [hmode] at h
      exact hloss 2 (.inr rfl) h.1
  | lossPeriod3 =>
      simp only [hmode] at h
      exact hloss 2 (.inr rfl) h

/-- A call in a channel. -/
theorem inChannel_spec (hc : c < p.channels) {call : PlcCall p} (hfits : call.Fits)
    (h : Consistent p s) :
    ∃ after steps, call.inChannel c s = some (after, steps) ∧ Consistent p after ∧
      call.Right c steps := by
  cases call with
  | dofe size pitches =>
      rcases hfits with ⟨hpositive, hsize, hpitch⟩
      have hrest : (0 : Int) < size := Int.natCast_pos.2 hpositive
      have hbound : (size : Int) + p.ms2samples 60 < 2147483648 := by omega
      rcases @dofeLoop_spec p size c s 0 size hc (pitches c) (hpitch c) (size + 1) h
        (Int.le_refl 0) hrest (Int.le_of_eq (Int.zero_add _)) hbound
        (Int.le_of_lt (Int.lt_succ _)) with ⟨after, steps, hdone, hafter, hsum, hsteps⟩
      refine ⟨after, steps, hdone, hafter, ?_, hsum, fun step hstep => (hsteps step hstep).2⟩
      exact fun _ _ _ step hstep => (hsteps step hstep).1
  | addtohistory size =>
      rcases @addtohistory_spec p size c s hc h hfits with ⟨after, pieces, hdone, hafter, hpieces⟩
      refine ⟨after, [⟨size, size, pieces⟩], ?_, hafter, ?_, ?_, ?_⟩
      · rw [PlcCall.inChannel, hdone]
        rfl
      · exact fun _ _ hcall => (nomatch hcall)
      · exact List.sum_singleton
      · exact List.forall_mem_singleton.2 hpieces

/-- A call in all channels. -/
theorem inChannels_spec {call : PlcCall p} (hfits : call.Fits) (channels : List ChannelCounters)
    (hchannels : ∀ s ∈ channels, Consistent p s) (hc : c + channels.length ≤ p.channels) :
    ∃ after works, p.inChannels call c channels = some (after, works) ∧
      after.length = channels.length ∧ (∀ s ∈ after, Consistent p s) ∧
      ∀ work ∈ works, call.Right work.1 work.2 := by
  induction channels generalizing c with
  | nil =>
      exact ⟨[], [], rfl, rfl, fun _ h => absurd h List.not_mem_nil,
        fun _ h => absurd h List.not_mem_nil⟩
  | cons s channels ih =>
      rw [List.forall_mem_cons] at hchannels
      rw [List.length_cons] at hc
      rcases @inChannel_spec p c s (by omega) call hfits hchannels.1 with
        ⟨after, steps, hdone, hafter, hright⟩
      rcases @ih (c + 1) hchannels.2 (by omega) with
        ⟨afters, works, hlater, hlength, hafters, hworks⟩
      refine ⟨after :: afters, (c, steps) :: works, ?_, ?_, ?_, ?_⟩
      · rw [inChannels, hdone, Option.bind_some, hlater, Option.map_some]
      · rw [List.length_cons, List.length_cons, hlength]
      · exact List.forall_mem_cons.2 ⟨hafter, hafters⟩
      · exact List.forall_mem_cons.2 ⟨hright, hworks⟩

theorem savesInside (p : PlcSetting) (size : Nat) : p.SavesInside size := by
  intro plc frame _
  rcases histSavespeech_delays plc frame with ⟨after, hsaved, _⟩
  rw [hsaved]
  rfl

theorem alwaysRight_of_consistent (calls : List (PlcCall p)) (channels : List ChannelCounters)
    (hchannels : ∀ s ∈ channels, Consistent p s) (hlength : channels.length ≤ p.channels)
    (hfits : ∀ call ∈ calls, call.Fits) : p.AlwaysRight channels calls := by
  induction calls generalizing channels with
  | nil => exact trivial
  | cons call calls ih =>
      rw [List.forall_mem_cons] at hfits
      rcases @inChannels_spec p 0 call hfits.1 channels hchannels (by omega) with
        ⟨after, works, hdone, hafterLength, hafter, hworks⟩
      exact ⟨(after, works), hdone, hworks, savesInside p call.size,
        ih after hafter (by omega) hfits.2⟩

/-- In a run of calls that fit, all calls are right. -/
theorem concealment_right (p : PlcSetting) (calls : List (PlcCall p))
    (hfits : ∀ call ∈ calls, call.Fits) : p.AlwaysRight p.initial calls := by
  refine alwaysRight_of_consistent calls p.initial ?_ (Nat.le_of_eq List.length_replicate) hfits
  intro s hs
  rw [(List.mem_replicate.1 hs).2]
  exact trivial

/-- The setting for telephone speech, where no pitch is below 66.6 Hz. -/
def telephone : PlcSetting where
  channels := 1
  pitchMax := 120
  rate := 8000
  pitchMin := 40
  rate_least := by decide
  rate_most := by decide
  pitchMin_least := by decide
  pitchMin_le := by decide
  pitchMax_most := by decide

/-- A frame, and a loss of 100 ms. -/
def lossAfterFrame : List (PlcCall telephone) :=
  [.addtohistory 160, .dofe 800 fun _ => ⟨120, by decide, by decide⟩, .addtohistory 160]

theorem lossAfterFrame_right : telephone.AlwaysRight telephone.initial lossAfterFrame := by
  apply concealment_right
  have hframe : 160 + telephone.ms2samples 60 < 2147483648 := by decide
  have hloss : 0 < 800 ∧ 800 + telephone.ms2samples 60 < 2147483648 := by decide
  have hpitch : 120 / 4 + telephone.ms2samples 10 < telephone.ms2samples 60 := by decide
  simp only [lossAfterFrame, List.forall_mem_cons]
  exact ⟨hframe, ⟨hloss.1, hloss.2, fun _ => hpitch⟩, hframe, fun _ h => absurd h List.not_mem_nil⟩

/-- Pitches down to 4 Hz, which the assertion of the constructor lets pass. -/
def lowPitch : PlcSetting where
  channels := 1
  pitchMax := 2000
  rate := 8000
  pitchMin := 40
  rate_least := by decide
  rate_most := by decide
  pitchMin_least := by decide
  pitchMin_le := by decide
  pitchMax_most := by decide

/-- A loss of 75 ms. -/
def lossOfLowPitch : PlcCall lowPitch := .dofe 600 fun _ => ⟨2000, by decide, by decide⟩

/-- The third step takes 100 samples less than none. -/
theorem lossOfLowPitch_backwards : ¬lowPitch.AlwaysRight lowPitch.initial [lossOfLowPitch] := by
  rintro ⟨done, hdone, hright, _⟩
  have htaken : (lowPitch.inChannels lossOfLowPitch 0 lowPitch.initial).map (fun done =>
      done.2.map fun work => work.2.map (·.taken)) = some [[80, 500, -100, 120]] := by
    decide +kernel
  rw [hdone, Option.map_some, Option.some.injEq] at htaken
  rcases List.map_eq_singleton_iff.1 htaken with ⟨work, hwork, hsteps⟩
  have hwork' : work ∈ done.2 := by
    rw [hwork]
    exact List.mem_singleton_self work
  have hback : (-100 : Int) ∈ work.2.map (·.taken) := by
    rw [hsteps]
    decide
  rcases List.mem_map.1 hback with ⟨step, hstep, htaken⟩
  have hpositive := ((hright work hwork').positive _ _ rfl step hstep).1
  rw [htaken] at hpositive
  exact absurd hpositive (by decide)

end Runs

end PlcSetting

end Codec

end CryptoOpal

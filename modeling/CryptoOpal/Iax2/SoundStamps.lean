import CryptoOpal.Lib.Octets

/-!
# The Time Stamps of Sound

Sound is sent in mini frames, which carry the low half of the time stamp. Now and then, at first
and when the low half starts anew, it is sent in a full frame with the whole of it. The receiver
is meant to put the high half of the last full frame in front of what a mini frame carries.

The field for the last full frame's time stamp is never set, so the high half of every mini frame
is what that field happens to hold. A full frame may also get another time stamp when it is sent:
it is moved three milliseconds behind the last full frame if it is earlier than that. The two are
compared as an int, so every time stamp from the 25th day on is earlier than those before.

## Main definitions

* `Sender.sendSoundMessage`: The frame for some sound.
* `receivedStamp`: The time stamp that the receiver hands on.
* `soundRun`: The frames of a run.
* `Reconstructed`: The time stamps come back, up to an offset.

## Theorems

* `run_good`: A run before the 25th day.
* `run_late`: A longer run.
* `reconstructed_iff`: When the time stamps come back.
-/

namespace CryptoOpal

namespace Iax2

open Lib (Octets)

/-- The value of a `PINDEX`, which is an int. -/
def toPIndex (x : Int) : Int :=
  if x % 4294967296 < 2147483648 then x % 4294967296 else x % 4294967296 - 4294967296

/-- The value of a `DWORD`. -/
def toDword (x : Int) : Nat := (x % 4294967296).toNat

/-- `minSpacing`. -/
def soundSpacing : Int := 3

/-- A frame with sound, as it is sent. -/
inductive SoundFrame where
  | voice (timeStamp : Nat) (sound : Octets)
  | mini (timeStamp : Nat) (sound : Octets)
  deriving DecidableEq

/-- Some sound, and the milliseconds since the call started. -/
structure SoundCall where
  sound : Octets
  clock : Nat
  deriving DecidableEq

/-- The duration of an audio frame. -/
structure FrameDuration where
  ms : Nat
  pos : 0 < ms
  short : ms < 65536

/-- What `SendSoundMessage` changes. -/
structure SoundSender where
  currentSoundTimeStamp : Nat
  audioFramesNotStarted : Bool
  lastSentTimeStamp : Int
  deriving DecidableEq

/-- `BuildTimeStamp`. -/
def buildTimeStamp (presetTimeStamp clock : Nat) : Nat :=
  if presetTimeStamp > 0 then presetTimeStamp else toDword clock

/-- The time stamp that `MassageSequenceForSending` gives to a frame with sound. -/
def massageTimeStamp (lastSentTimeStamp : Int) (timeStamp : Nat) : Int :=
  if toPIndex timeStamp < toPIndex (lastSentTimeStamp + soundSpacing) then
    toPIndex (lastSentTimeStamp + soundSpacing)
  else toPIndex timeStamp

namespace SoundSender

/-- A call of which nothing was sent yet. -/
def started : SoundSender := ⟨0, true, 0⟩

/-- The time stamp of the next sound. -/
def thisTimeStamp (duration : Nat) (s : SoundSender) : Nat :=
  toDword (s.currentSoundTimeStamp + duration)

/-- `sendFullFrame`. -/
def sendFullFrame (duration : Nat) (s : SoundSender) : Bool :=
  decide (s.thisTimeStamp duration % 65536 < s.currentSoundTimeStamp % 65536) ||
    s.audioFramesNotStarted

/-- `SendSoundMessage`: the frame, none without sound. -/
def sendSoundMessage (duration : Nat) (s : SoundSender) (call : SoundCall) :
    Option SoundFrame × SoundSender :=
  if call.sound = [] then (none, s)
  else if s.sendFullFrame duration then
    let timeStamp := massageTimeStamp s.lastSentTimeStamp
      (buildTimeStamp (s.thisTimeStamp duration) call.clock)
    (some (.voice (toDword timeStamp) call.sound),
      ⟨s.thisTimeStamp duration, false, timeStamp⟩)
  else
    (some (.mini (buildTimeStamp (s.thisTimeStamp duration % 65536) call.clock % 65536)
      call.sound), ⟨s.thisTimeStamp duration, s.audioFramesNotStarted, s.lastSentTimeStamp⟩)

end SoundSender

/-- The time stamp that is handed to `ReceivedSoundPacketFromNetwork`: that of a full frame, and
for a mini frame what `AlterTimeStamp` makes of it with the field for the last full frame's. -/
def receivedStamp (lastFullFrameTimeStamp : Nat) : SoundFrame → Nat
  | .voice timeStamp _ => timeStamp
  | .mini timeStamp _ =>
    lastFullFrameTimeStamp % 4294967296 / 65536 * 65536 + timeStamp % 65536

/-- The frames of a run, each with the sender's time stamp for it. -/
def soundRun (duration : Nat) : SoundSender → List SoundCall → List (SoundFrame × Nat)
  | _, [] => []
  | s, call :: calls =>
    match (s.sendSoundMessage duration call).1 with
    | none => soundRun duration (s.sendSoundMessage duration call).2 calls
    | some frame =>
      (frame, (s.sendSoundMessage duration call).2.currentSoundTimeStamp) ::
        soundRun duration (s.sendSoundMessage duration call).2 calls

/-- The time stamps come back, up to an offset for the whole run. -/
def Reconstructed (lastFullFrameTimeStamp duration : Nat) (calls : List SoundCall) : Prop :=
  ∃ offset, ∀ x ∈ soundRun duration .started calls,
    receivedStamp lastFullFrameTimeStamp x.1 = (x.2 + offset) % 4294967296

/-- How many calls have sound. -/
def sounding (calls : List SoundCall) : Nat := calls.countP fun call => call.sound ≠ []

/-- The frame is a mini frame: the low half goes on. -/
def MiniAt (duration frame : Nat) : Prop :=
  1 < frame ∧ (frame - 1) * duration % 65536 ≤ frame * duration % 65536

/-- What the sender has after this many frames, before the 25th day. -/
structure SoundInv (duration frames : Nat) (s : SoundSender) : Prop where
  current : s.currentSoundTimeStamp = frames * duration
  notStarted : s.audioFramesNotStarted = decide (frames = 0)
  nonneg : 0 ≤ s.lastSentTimeStamp
  last_le : s.lastSentTimeStamp ≤ (frames * duration : Nat)
  room : s.lastSentTimeStamp + 3 < 2147483648

section Calls

variable {duration n : Nat}

theorem soundRun_silent {calls : List SoundCall} (s : SoundSender) (h : sounding calls = 0) :
    soundRun duration s calls = [] := by
  induction calls with
  | nil => rfl
  | cons call calls ih =>
      rw [sounding, List.countP_eq_zero] at h
      have hsilent : call.sound = [] := by
        have hhead := h call List.mem_cons_self
        simpa using hhead
      rw [soundRun, SoundSender.sendSoundMessage, if_pos hsilent]
      exact ih (List.countP_eq_zero.2 fun c hc => h c (List.mem_cons_of_mem _ hc))

/-- The calls before the next sound make no difference. -/
theorem next_sound {calls : List SoundCall} (h : sounding calls = n + 1) :
    ∃ call rest, call.sound ≠ [] ∧ sounding rest = n ∧
      ∀ s, soundRun duration s calls = soundRun duration s (call :: rest) := by
  induction calls with
  | nil => exact nomatch h
  | cons call calls ih =>
      by_cases hsilent : call.sound = []
      · rw [sounding, List.countP_cons_of_neg (by simpa using hsilent)] at h
        obtain ⟨next, rest, hnext, hrest, hrun⟩ := ih h
        refine ⟨next, rest, hnext, hrest, fun s => ?_⟩
        rw [← hrun, soundRun, SoundSender.sendSoundMessage, if_pos hsilent]
      · rw [sounding, List.countP_cons_of_pos (by simpa using hsilent)] at h
        exact ⟨call, calls, hsilent, Nat.succ.inj h, fun s => rfl⟩

end Calls

section Steps

variable {duration frames : Nat} {s : SoundSender}

/-- A full frame is not so near to the end of an int that three milliseconds do not fit. -/
theorem full_room {before after : Nat} (hafter : after = before + duration)
    (hmultiple : after = (frames + 1) * duration) (hshort : duration < 65536)
    (hlow : after % 65536 < before % 65536) (h : after < 2147483648) :
    after + 3 < 2147483648 := by
  refine Nat.lt_of_not_le fun hend => ?_
  have hduration : duration = 65534 ∨ duration = 65535 := by omega
  have hplace : after = 2147483645 ∨ after = 2147483646 := by omega
  rcases hduration with rfl | rfl <;> omega

theorem toDword_small {x : Nat} (h : x < 4294967296) : toDword x = x := by
  rw [toDword]
  omega

theorem toPIndex_small {x : Int} (hnonneg : 0 ≤ x) (h : x < 2147483648) : toPIndex x = x := by
  rw [toPIndex]
  omega

/-- The frame of a call before the 25th day. -/
theorem send_early (hinv : SoundInv duration frames s) (hlong : 3 ≤ duration)
    (hshort : duration < 65536) (hearly : (frames + 1) * duration < 2147483648)
    {call : SoundCall} (hsound : call.sound ≠ []) :
    ∃ frame s', s.sendSoundMessage duration call = (some frame, s') ∧
      s'.currentSoundTimeStamp = (frames + 1) * duration ∧
      SoundInv duration (frames + 1) s' ∧
      (MiniAt duration (frames + 1) ∧
          frame = .mini ((frames + 1) * duration % 65536) call.sound ∨
        ¬ MiniAt duration (frames + 1) ∧ frame = .voice ((frames + 1) * duration) call.sound) := by
  obtain ⟨hcurrent, hnot, hnonneg, hlast, hroom⟩ := hinv
  have hafter : (frames + 1) * duration = frames * duration + duration := Nat.succ_mul _ _
  have hthis : s.thisTimeStamp duration = (frames + 1) * duration := by
    rw [SoundSender.thisTimeStamp, hcurrent, hafter, ← Int.natCast_add]
    exact toDword_small (by omega)
  rw [SoundSender.sendSoundMessage, if_neg hsound, hthis]
  generalize hbefore : frames * duration = before at hafter hcurrent hlast
  generalize hb : (frames + 1) * duration = after at hafter hthis hearly
  have hpos : frames = 0 → before = 0 := fun h => by rw [← hbefore, h, Nat.zero_mul]
  by_cases hmini : MiniAt duration (frames + 1)
  · obtain ⟨hframes, hlow⟩ := hmini
    rw [Nat.add_sub_cancel, hbefore, hb] at hlow
    have hnotFull : s.sendFullFrame duration = false := by
      rw [SoundSender.sendFullFrame, hthis, hcurrent, hnot, Bool.or_eq_false_iff]
      exact ⟨decide_eq_false (Nat.not_lt_of_le hlow), decide_eq_false (by omega)⟩
    have hpreset : buildTimeStamp (after % 65536) call.clock = after % 65536 :=
      if_pos (by omega)
    rw [hnotFull, hpreset, Nat.mod_mod]
    refine ⟨_, _, rfl, rfl, ⟨hb.symm, ?_, hnonneg, ?_, hroom⟩, .inl ⟨⟨hframes, ?_⟩, rfl⟩⟩
    · rw [hnot, decide_eq_decide]
      omega
    · rw [hb]
      exact Int.le_trans hlast (by omega)
    · rwa [Nat.add_sub_cancel, hbefore, hb]
  · have hlow : frames = 0 ∨ after % 65536 < before % 65536 := by
      rw [MiniAt, Nat.add_sub_cancel, hbefore, hb] at hmini
      omega
    have hfull : s.sendFullFrame duration = true := by
      rw [SoundSender.sendFullFrame, hthis, hcurrent, hnot, Bool.or_eq_true, decide_eq_true_iff,
        decide_eq_true_iff]
      exact hlow.symm
    have hroom' : after + 3 < 2147483648 := by
      rcases hlow with hfirst | hlow
      · have hzero := hpos hfirst
        omega
      · exact full_room hafter hb.symm hshort hlow hearly
    have hpreset : buildTimeStamp after call.clock = after := if_pos (by omega)
    have hkeep : massageTimeStamp s.lastSentTimeStamp after = after := by
      rw [massageTimeStamp, soundSpacing, toPIndex_small (by omega) (by omega),
        toPIndex_small (by omega) hroom, if_neg (by omega)]
    rw [hfull, hpreset, hkeep]
    refine ⟨_, _, rfl, rfl, ⟨hb.symm, ?_, Int.natCast_nonneg _, ?_, Int.ofNat_lt.2 hroom'⟩, .inr ⟨hmini, ?_⟩⟩
    · exact (decide_eq_false (Nat.succ_ne_zero _)).symm
    · rw [hb]
    · rw [toDword_small (by omega)]

/-- The first frame on or after the 25th day is a full one, with the time stamp of the last full
frame and three milliseconds. -/
theorem send_late (hinv : SoundInv duration frames s) (hshort : duration < 65536)
    (hearly : frames * duration < 2147483648) (hlate : 2147483648 ≤ (frames + 1) * duration)
    {call : SoundCall} (hsound : call.sound ≠ []) :
    ∃ frame s', s.sendSoundMessage duration call = (some frame, s') ∧
      s'.currentSoundTimeStamp = (frames + 1) * duration ∧
      frame = .voice (toDword (s.lastSentTimeStamp + 3)) call.sound := by
  obtain ⟨hcurrent, hnot, hnonneg, hlast, hroom⟩ := hinv
  have hafter : (frames + 1) * duration = frames * duration + duration := Nat.succ_mul _ _
  have hthis : s.thisTimeStamp duration = (frames + 1) * duration := by
    rw [SoundSender.thisTimeStamp, hcurrent, hafter, ← Int.natCast_add]
    exact toDword_small (by omega)
  rw [SoundSender.sendSoundMessage, if_neg hsound, hthis]
  generalize frames * duration = before at hafter hcurrent hlast hearly
  generalize (frames + 1) * duration = after at hafter hthis hlate
  have hfull : s.sendFullFrame duration = true := by
    rw [SoundSender.sendFullFrame, hthis, hcurrent, Bool.or_eq_true, decide_eq_true_iff]
    exact .inl (by omega)
  have hpreset : buildTimeStamp after call.clock = after := if_pos (by omega)
  have hraise : massageTimeStamp s.lastSentTimeStamp after = s.lastSentTimeStamp + 3 := by
    have hnegative : toPIndex after < 0 := by
      rw [toPIndex]
      omega
    rw [massageTimeStamp, soundSpacing, toPIndex_small (by omega) hroom, if_pos (by omega)]
  rw [hfull, hpreset, hraise]
  exact ⟨_, _, rfl, rfl, rfl⟩

end Steps

/-- The time stamp comes back. -/
def StampKept (lastFullFrameTimeStamp offset : Nat) (x : SoundFrame × Nat) : Prop :=
  receivedStamp lastFullFrameTimeStamp x.1 = (x.2 + offset) % 4294967296

section Runs

variable {lastFull duration : Nat}

theorem soundRun_cons {s s' : SoundSender} {call : SoundCall} {frame : SoundFrame}
    (h : s.sendSoundMessage duration call = (some frame, s')) (calls : List SoundCall) :
    soundRun duration s (call :: calls) =
      (frame, s'.currentSoundTimeStamp) :: soundRun duration s' calls := by
  rw [soundRun, h]

/-- The high half that the receiver has. -/
def highHalf (lastFull : Nat) : Nat := lastFull % 4294967296 / 65536

/-- A run before the 25th day: the time stamps of mini frames need the receiver's high half. -/
theorem run_good {n frames : Nat} {s : SoundSender} {calls : List SoundCall}
    (hinv : SoundInv duration frames s) (hlong : 3 ≤ duration) (hshort : duration < 65536)
    (hcount : sounding calls = n) (hearly : (frames + n) * duration < 2147483648) :
    (∀ x ∈ soundRun duration s calls, StampKept lastFull 0 x) ↔
      ∀ i, frames < i → i ≤ frames + n → MiniAt duration i →
        i * duration / 65536 = highHalf lastFull := by
  induction n generalizing frames s calls with
  | zero =>
      rw [soundRun_silent s hcount]
      exact iff_of_true (fun _ h => absurd h List.not_mem_nil) fun i h h' => absurd h (by omega)
  | succ n ih =>
      obtain ⟨call, rest, hsound, hrest, hrun⟩ := @next_sound duration n calls hcount
      have hle : (frames + 1) * duration ≤ (frames + (n + 1)) * duration :=
        Nat.mul_le_mul_right _ (by omega)
      have hnow : (frames + 1) * duration < 2147483648 := Nat.lt_of_le_of_lt hle hearly
      obtain ⟨frame, s', hsend, hstamp, hinv', hframe⟩ := send_early hinv hlong hshort hnow hsound
      rw [hrun, soundRun_cons hsend, List.forall_mem_cons,
        ih hinv' hrest (by rwa [Nat.add_assoc, Nat.add_comm 1])]
      have hhead : StampKept lastFull 0 (frame, s'.currentSoundTimeStamp) ↔
          (MiniAt duration (frames + 1) →
            (frames + 1) * duration / 65536 = highHalf lastFull) := by
        rw [hstamp, StampKept, highHalf]
        generalize (frames + 1) * duration = after at hnow hframe
        rcases hframe with ⟨hmini, rfl⟩ | ⟨hmini, rfl⟩
        · refine Iff.trans ?_ ⟨fun h _ => h, fun h => h hmini⟩
          simp only [receivedStamp]
          omega
        · refine iff_of_true ?_ fun h => absurd h hmini
          simp only [receivedStamp]
          omega
      rw [hhead]
      refine ⟨fun h i hi hi' => ?_, fun h => ⟨h _ (by omega) (by omega), fun i hi hi' =>
        h i (by omega) (by omega)⟩⟩
      rcases Nat.eq_or_lt_of_le hi with rfl | hi
      · exact h.1
      · exact h.2 i hi (by omega)

/-- A run that goes on to the 25th day. -/
theorem run_late {n frames : Nat} {s : SoundSender} {calls : List SoundCall}
    (hinv : SoundInv duration frames s) (hlong : 3 ≤ duration) (hshort : duration < 65536)
    (hcount : sounding calls = n) (hnow : frames * duration < 2147483648)
    (hlate : 2147483648 ≤ (frames + n) * duration) :
    ¬ ∀ x ∈ soundRun duration s calls, StampKept lastFull 0 x := by
  induction n generalizing frames s calls with
  | zero => exact absurd hlate (Nat.not_le_of_lt hnow)
  | succ n ih =>
      obtain ⟨call, rest, hsound, hrest, hrun⟩ := @next_sound duration n calls hcount
      intro hall
      rw [hrun] at hall
      rcases Nat.lt_or_ge ((frames + 1) * duration) 2147483648 with hnext | hnext
      · obtain ⟨frame, s', hsend, -, hinv', -⟩ := send_early hinv hlong hshort hnext hsound
        rw [soundRun_cons hsend, List.forall_mem_cons] at hall
        exact ih hinv' hrest hnext (by rwa [Nat.add_assoc, Nat.add_comm 1]) hall.2
      · obtain ⟨frame, s', hsend, hstamp, rfl⟩ := send_late hinv hshort hnow hnext hsound
        rw [soundRun_cons hsend, List.forall_mem_cons, hstamp] at hall
        have hhead := hall.1
        have hroom := hinv.room
        have hnonneg := hinv.nonneg
        have hafter : (frames + 1) * duration = frames * duration + duration := Nat.succ_mul _ _
        simp only [StampKept, receivedStamp, toDword] at hhead
        omega

theorem soundInv_started : SoundInv duration 0 .started :=
  ⟨(Nat.zero_mul _).symm, rfl, Int.le_refl _, Int.natCast_nonneg _, by decide⟩

/-- The first frame is a full one, with a time stamp of three milliseconds at least. -/
theorem send_first (d : FrameDuration) {call : SoundCall} (hsound : call.sound ≠ []) :
    SoundSender.started.sendSoundMessage d.ms call =
      (some (.voice (max d.ms 3) call.sound), ⟨d.ms, false, (max d.ms 3 : Nat)⟩) := by
  have hpos := d.pos
  have hshort := d.short
  have hthis : SoundSender.started.thisTimeStamp d.ms = d.ms := by
    rw [SoundSender.thisTimeStamp, SoundSender.started, ← Int.natCast_add, Nat.zero_add]
    exact toDword_small (by omega)
  have hfull : SoundSender.started.sendFullFrame d.ms = true := Bool.or_true _
  have hpreset : buildTimeStamp d.ms call.clock = d.ms := if_pos hpos
  have hmassage : massageTimeStamp 0 d.ms = (max d.ms 3 : Nat) := by
    rw [massageTimeStamp, soundSpacing, toPIndex_small (by omega) (by omega),
      toPIndex_small (by omega) (by omega)]
    omega
  have hlast : SoundSender.started.lastSentTimeStamp = 0 := rfl
  rw [SoundSender.sendSoundMessage, if_neg hsound, hthis, hfull, hpreset, hlast, hmassage]
  simp only [if_true, toDword_small (show max d.ms 3 < 4294967296 by omega)]

/-- Very short frames: the second frame is a mini frame, which was not moved as the first was. -/
theorem not_kept_short (d : FrameDuration) (hd : d.ms < 3) {offset : Nat}
    {first second : SoundCall} (hsecond : second.sound ≠ []) {rest : List SoundCall}
    (hfirst : StampKept lastFull offset (.voice (max d.ms 3) first.sound, d.ms)) :
    ¬ ∀ x ∈ soundRun d.ms ⟨d.ms, false, (max d.ms 3 : Nat)⟩ (second :: rest),
      StampKept lastFull offset x := by
  have hpos := d.pos
  have hthis : SoundSender.thisTimeStamp d.ms ⟨d.ms, false, (max d.ms 3 : Nat)⟩ =
      d.ms + d.ms := by
    rw [SoundSender.thisTimeStamp, ← Int.natCast_add]
    exact toDword_small (show d.ms + d.ms < 4294967296 by omega)
  have hmini : SoundSender.sendFullFrame d.ms ⟨d.ms, false, (max d.ms 3 : Nat)⟩ = false := by
    rw [SoundSender.sendFullFrame, hthis, Bool.or_false]
    exact decide_eq_false (by simp only; omega)
  have hpreset : buildTimeStamp ((d.ms + d.ms) % 65536) second.clock = (d.ms + d.ms) % 65536 :=
    if_pos (by omega)
  have hsend : SoundSender.sendSoundMessage d.ms ⟨d.ms, false, (max d.ms 3 : Nat)⟩ second =
      (some (.mini ((d.ms + d.ms) % 65536) second.sound),
        ⟨d.ms + d.ms, false, (max d.ms 3 : Nat)⟩) := by
    rw [SoundSender.sendSoundMessage, if_neg hsecond, hmini, hthis, hpreset, Nat.mod_mod]
    rfl
  intro hall
  rw [soundRun_cons hsend, List.forall_mem_cons] at hall
  have hhead := hall.1
  simp only [StampKept, receivedStamp] at hhead hfirst
  omega

/-- The first time stamp comes back as it is, so there is no offset. -/
theorem reconstructed_zero (d : FrameDuration) (hd : 3 ≤ d.ms) {n : Nat} {calls : List SoundCall}
    (hcount : sounding calls = n + 1) :
    Reconstructed lastFull d.ms calls ↔
      ∀ x ∈ soundRun d.ms .started calls, StampKept lastFull 0 x := by
  have hshort := d.short
  obtain ⟨first, rest, hsound, hrest, hrun⟩ := @next_sound d.ms n calls hcount
  refine ⟨fun h => ?_, fun h => ⟨0, h⟩⟩
  rcases h with ⟨offset, hall⟩
  have hfirst := hall (.voice (max d.ms 3) first.sound, d.ms) (by
    rw [hrun, soundRun_cons (send_first d hsound)]
    exact List.mem_cons_self)
  simp only [receivedStamp] at hfirst
  intro x hx
  rw [StampKept, hall x hx]
  omega

/-- When the time stamps come back. -/
theorem reconstructed_iff (d : FrameDuration) (lastFullFrameTimeStamp : Nat)
    (calls : List SoundCall) :
    Reconstructed lastFullFrameTimeStamp d.ms calls ↔
      sounding calls ≤ 1 ∨ 3 ≤ d.ms ∧ sounding calls * d.ms < 2147483648 ∧
        ∀ i ≤ sounding calls, MiniAt d.ms i →
          i * d.ms / 65536 = highHalf lastFullFrameTimeStamp := by
  have hpos := d.pos
  have hshort := d.short
  cases hcount : sounding calls with
  | zero =>
      refine iff_of_true ⟨0, fun x hx => ?_⟩ (.inl (Nat.zero_le _))
      rw [soundRun_silent _ hcount] at hx
      exact absurd hx List.not_mem_nil
  | succ n =>
      obtain ⟨first, rest, hsound, hrest, hrun⟩ := @next_sound d.ms n calls hcount
      have hsplit := soundRun_cons (send_first d hsound) rest
      cases n with
      | zero =>
          refine iff_of_true ⟨max d.ms 3 + 4294967296 - d.ms, fun x hx => ?_⟩ (.inl (Nat.le_refl _))
          rw [hrun, hsplit, soundRun_silent _ hrest, List.mem_singleton] at hx
          rw [hx]
          simp only [receivedStamp]
          omega
      | succ n =>
          rcases Nat.lt_or_ge d.ms 3 with hd | hd
          · refine iff_of_false (fun h => ?_) (by omega)
            rcases h with ⟨offset, hall⟩
            obtain ⟨second, rest', hsecond, -, hrun'⟩ := @next_sound d.ms n rest hrest
            rw [hrun, hsplit, List.forall_mem_cons, hrun'] at hall
            exact not_kept_short d hd hsecond hall.1 hall.2
          · rw [reconstructed_zero d hd hcount]
            rcases Nat.lt_or_ge ((n + 1 + 1) * d.ms) 2147483648 with hearly | hlate
            · rw [run_good soundInv_started hd hshort hcount (by rwa [Nat.zero_add]), Nat.zero_add]
              refine ⟨fun h => .inr ⟨hd, hearly, fun i hi hmini => ?_⟩, fun h i hi hi' hmini => ?_⟩
              · exact h i (Nat.lt_trans Nat.zero_lt_one hmini.1) hi hmini
              · exact (h.resolve_left (by omega)).2.2 i hi' hmini
            · refine iff_of_false ?_ (by omega)
              refine run_late soundInv_started hd hshort hcount ?_ (by rwa [Nat.zero_add])
              rw [Nat.zero_mul]
              decide

/-- In a call of more than 65 seconds the time stamps do not come back, whatever the field is. -/
theorem not_reconstructed_minute :
    ¬ ∀ (d : FrameDuration) (calls : List SoundCall),
      ∃ lastFullFrameTimeStamp, Reconstructed lastFullFrameTimeStamp d.ms calls := by
  intro hall
  have hcount : sounding (List.replicate 3278 ⟨[0], 0⟩) = 3277 + 1 := by
    rw [sounding, List.countP_replicate]
    rfl
  obtain ⟨lastFull, hkept⟩ := hall ⟨20, by decide, by decide⟩ (List.replicate 3278 ⟨[0], 0⟩)
  rw [reconstructed_zero _ (by decide) hcount,
    run_good soundInv_started (by decide) (by decide) hcount (by decide)] at hkept
  -- the second frame and the last one are mini frames with different high halves
  have hsecond := hkept 2 (by decide) (by decide) ⟨by decide, by decide⟩
  have hlast := hkept 3278 (by decide) (by decide) ⟨by decide, by decide⟩
  exact absurd (hsecond.trans hlast.symm) (by decide)

end Runs

end Iax2

end CryptoOpal

import CryptoOpal.Lib.Transducer
import Mathlib.Algebra.GroupWithZero.Nat

/-!
# The Bit Rate of a Video Stream

The calculator keeps the frames of the last second, with the sum of their sizes
and the number of those with a marker. A frame that is older is taken out from
the front, and out of both numbers.

A rate is the sum over the time since the first frame that is kept. The length
of a frame is added to that time (`quanta`), so that a single frame has a rate.
But the constructor does not set it, and the one that a media format gives can
be zero. Then a rate that is asked for in the millisecond of the frame is a
division by zero.

Times are in milliseconds, and a caller reads them off a clock.

## Main definitions

* `BitRateCalculator`: The history and the numbers.
* `BitRateCall`, `BitRateCalculator.step`: The calls.
* `Exact`: The numbers are those of the history.
* `Sound`: The numbers fit, and time has passed where a rate is asked for.

## Theorems

* `flush_spec`: What is taken out.
* `step_exact`, `step_divides`: One call.
* `bitRate_iff`: Every run.
-/

namespace CryptoOpal

namespace Codec

open Lib (Step stepAt run)

/-- The value of an `int`. -/
def wrapInt (x : Int) : Int := x.bmod 4294967296

/-- `OpalBitRateCalculator::History`. -/
structure HistoryEntry where
  size : Nat
  timeStamp : Int
  marker : Bool
  deriving DecidableEq

/-- `OpalBitRateCalculator`. -/
structure BitRateCalculator where
  history : List HistoryEntry
  historySize : Int
  totalSize : Int
  historyFrames : Int
  quanta : UInt32
  bitRate : Nat
  first : Bool
  baseTimeStamp : Int
  deriving DecidableEq

/-- What a call returns. -/
inductive RateResult where
  | nothing
  | rate (bitsPerSecond : Nat)
  | divisionByZero
  deriving DecidableEq

namespace BitRateCalculator

/-- The constructor, with what the memory had for the quanta and the base. -/
def create (quanta : UInt32) (baseTimeStamp : Int) : BitRateCalculator where
  history := []
  historySize := 0
  totalSize := 0
  historyFrames := 0
  quanta := quanta
  bitRate := 0
  first := true
  baseTimeStamp := baseTimeStamp

/-- `Reset`. -/
def reset (s : BitRateCalculator) : BitRateCalculator :=
  { s with
    first := true
    bitRate := 0
    historySize := 0
    totalSize := 0
    historyFrames := 0
    history := [] }

/-- `SetQuanta`. -/
def setQuanta (s : BitRateCalculator) (quanta : UInt32) : BitRateCalculator :=
  { s with quanta := quanta }

/-- The front of the history is taken out. -/
def popFront (s : BitRateCalculator) (front : HistoryEntry) (rest : List HistoryEntry) :
    BitRateCalculator :=
  { s with
    historySize := wrapInt (s.historySize - front.size)
    historyFrames := if front.marker then wrapInt (s.historyFrames - 1) else s.historyFrames
    history := rest }

/-- The loop of `Flush`. -/
def flushLoop (now : Int) : List HistoryEntry → BitRateCalculator → BitRateCalculator
  | [], s => s
  | front :: rest, s =>
    if now - front.timeStamp > 1000 then flushLoop now rest (s.popFront front rest) else s

/-- `Flush`. -/
def flush (s : BitRateCalculator) (now : Int) : BitRateCalculator := flushLoop now s.history s

/-- A frame is added at the end of the history. -/
def push (s : BitRateCalculator) (size : Nat) (now : Int) (marker : Bool) : BitRateCalculator :=
  { s with
    baseTimeStamp := if s.first then now else s.baseTimeStamp
    first := false
    history := s.history ++ [⟨size, now, marker⟩]
    historySize := wrapInt (s.historySize + size)
    totalSize := s.totalSize + size
    historyFrames := if marker then wrapInt (s.historyFrames + 1) else s.historyFrames }

/-- `AddPacket`, which looks at the clock twice. -/
def addPacket (s : BitRateCalculator) (size : Nat) (marker : Bool) (now later : Int) :
    BitRateCalculator :=
  (s.push size now marker).flush later

/-- A division of an `unsigned` result. -/
def divide (dividend divisor : Int) : RateResult :=
  if divisor = 0 then .divisionByZero else .rate (dividend.tdiv divisor % 4294967296).toNat

/-- The rate of so many octets, over the time since the front of the history. -/
def rateSince (s : BitRateCalculator) (octets now : Int) (front : HistoryEntry) : RateResult :=
  divide (octets * 8 * 1000) (s.quanta.toNat + (now - front.timeStamp))

/-- `GetTrialBitRate`, on a history that has been flushed. -/
def trialBitRate (s : BitRateCalculator) (size : Nat) (now : Int) : RateResult :=
  match s.history with
  | [] => .rate 0
  | front :: _ => s.rateSince (size + s.historySize) now front

/-- `m_bitRate = ...`. -/
def storeRate (s : BitRateCalculator) : RateResult → BitRateCalculator
  | .rate bitsPerSecond => { s with bitRate := bitsPerSecond }
  | _ => s

/-- `GetBitRate`, on a history that has been flushed. -/
def currentBitRate (s : BitRateCalculator) (now : Int) : RateResult :=
  match s.history with
  | [] => .rate s.bitRate
  | front :: _ => s.rateSince s.historySize now front

/-- `GetAverageBitRate`. -/
def averageBitRate (s : BitRateCalculator) (now : Int) : RateResult :=
  if s.first then .rate 0
  else divide (s.totalSize * 8 * 1000) (s.quanta.toNat + now - s.baseTimeStamp)

end BitRateCalculator

/-- A call, with the times that it reads off the clock. -/
inductive BitRateCall where
  | reset
  | setQuanta (quanta : UInt32)
  | addPacket (size : Nat) (marker : Bool) (now later : Int)
  | getTrialBitRate (size : Nat) (now : Int)
  | getBitRate (now : Int)
  | getAverageBitRate (now : Int)
  | flush (now : Int)
  deriving DecidableEq

/-- The times of a call. -/
def BitRateCall.times : BitRateCall → List Int
  | reset | setQuanta _ => []
  | addPacket _ _ now later => [now, later]
  | getTrialBitRate _ now | getBitRate now | getAverageBitRate now | flush now => [now]

/-- The times of some calls never go back. -/
def Timely (calls : List BitRateCall) : Prop := (calls.flatMap (·.times)).Pairwise (· ≤ ·)

instance (calls : List BitRateCall) : Decidable (Timely calls) :=
  inferInstanceAs (Decidable (List.Pairwise _ _))

namespace BitRateCalculator

/-- A call. -/
def step (s : BitRateCalculator) : BitRateCall → BitRateCalculator × RateResult
  | .reset => (s.reset, .nothing)
  | .setQuanta quanta => (s.setQuanta quanta, .nothing)
  | .addPacket size marker now later => (s.addPacket size marker now later, .nothing)
  | .getTrialBitRate size now => (s.flush now, (s.flush now).trialBitRate size now)
  | .getBitRate now =>
    ((s.flush now).storeRate ((s.flush now).currentBitRate now), (s.flush now).currentBitRate now)
  | .getAverageBitRate now => (s, s.averageBitRate now)
  | .flush now => (s.flush now, .nothing)

/-- The sum of the sizes in a history. -/
def sizes (history : List HistoryEntry) : Nat := (history.map (·.size)).sum

/-- The number of entries with a marker. -/
def marked (history : List HistoryEntry) : Nat := history.countP (·.marker)

/-- The numbers are those of the history. -/
def Exact (s : BitRateCalculator) : Prop :=
  s.historySize = sizes s.history ∧ s.historyFrames = marked s.history

/-- The entries that are not older than a second, from the first one on. -/
def recent (history : List HistoryEntry) (now : Int) : List HistoryEntry :=
  history.dropWhile fun e => decide (now - e.timeStamp > 1000)

/-- The history after a call. -/
def kept (s : BitRateCalculator) : BitRateCall → List HistoryEntry
  | .reset => []
  | .setQuanta _ | .getAverageBitRate _ => s.history
  | .addPacket size marker now later => recent (s.history ++ [⟨size, now, marker⟩]) later
  | .getTrialBitRate _ now | .getBitRate now | .flush now => recent s.history now

/-- A rate is not asked for in the millisecond in which the time of it began, when there are no
quanta. -/
def Elapsed (s : BitRateCalculator) : BitRateCall → Prop
  | .getTrialBitRate _ now | .getBitRate now =>
    s.quanta = 0 → ∀ front ∈ (recent s.history now).head?, front.timeStamp < now
  | .getAverageBitRate now => s.quanta = 0 → s.first = false → s.baseTimeStamp < now
  | _ => True

/-- An `int` has room for the numbers of the history after a call, and time has passed for a rate. -/
def Sound (s : BitRateCalculator) (call : BitRateCall) : Prop :=
  sizes (s.kept call) < 2147483648 ∧ marked (s.kept call) < 2147483648 ∧ s.Elapsed call

/-- The numbers are right after the call, and it did not divide by zero. -/
def Right (x : Step BitRateCalculator BitRateCall RateResult) : Prop :=
  x.after.Exact ∧ x.output ≠ .divisionByZero

/-- The numbers are those of the history, as far as an `int` goes. -/
structure Tracks (s : BitRateCalculator) : Prop where
  size : s.historySize = wrapInt (sizes s.history)
  frames : s.historyFrames = wrapInt (marked s.history)

/-- Nothing that is recorded is later than a time. -/
structure Before (s : BitRateCalculator) (now : Int) : Prop where
  history : ∀ e ∈ s.history, e.timeStamp ≤ now
  base : s.first = false → s.baseTimeStamp ≤ now

section Numbers

theorem wrapInt_eq_iff (n : Nat) : wrapInt n = n ↔ n < 2147483648 := by
  unfold wrapInt
  rw [Int.bmod]
  split
  · omega
  · omega

theorem wrapInt_add (x y : Int) : wrapInt (wrapInt x + y) = wrapInt (x + y) :=
  Int.bmod_add_bmod

theorem wrapInt_sub (x y : Int) : wrapInt (wrapInt x - y) = wrapInt (x - y) :=
  Int.bmod_sub_bmod

theorem sizes_cons (e : HistoryEntry) (history : List HistoryEntry) :
    sizes (e :: history) = e.size + sizes history := List.sum_cons

theorem sizes_append (history : List HistoryEntry) (e : HistoryEntry) :
    sizes (history ++ [e]) = sizes history + e.size := by
  unfold sizes
  rw [List.map_append, List.sum_append]
  rfl

theorem marked_append (history : List HistoryEntry) (e : HistoryEntry) :
    marked (history ++ [e]) = marked history + if e.marker then 1 else 0 := by
  unfold marked
  rw [List.countP_append, List.countP_singleton]

/-- Numbers that are right as far as an `int` goes are right when there is room for them. -/
theorem Tracks.exact_iff {s : BitRateCalculator} (h : s.Tracks) :
    s.Exact ↔ sizes s.history < 2147483648 ∧ marked s.history < 2147483648 := by
  unfold Exact
  rw [h.size, h.frames, wrapInt_eq_iff, wrapInt_eq_iff]

/-- There is nothing in an empty history. -/
theorem tracks_empty {s : BitRateCalculator} (hhistory : s.history = []) (hsize : s.historySize = 0)
    (hframes : s.historyFrames = 0) : s.Tracks := by
  have hzero : wrapInt (0 : Nat) = (0 : Nat) := (wrapInt_eq_iff 0).2 (by decide)
  constructor
  · rw [hsize, hhistory]
    exact hzero.symm
  · rw [hframes, hhistory]
    exact hzero.symm

end Numbers

section Calls

variable {s : BitRateCalculator} {now : Int}

/-- The front of the history goes out of the numbers. -/
theorem tracks_popFront {front : HistoryEntry} {rest : List HistoryEntry} (h : s.Tracks)
    (hhistory : s.history = front :: rest) : (s.popFront front rest).Tracks := by
  constructor
  · show wrapInt (s.historySize - front.size) = wrapInt (sizes rest)
    rw [h.size, hhistory, wrapInt_sub, sizes_cons]
    congr 1
    omega
  · show (if front.marker then wrapInt (s.historyFrames - 1) else s.historyFrames) =
      wrapInt (marked rest)
    rw [h.frames, hhistory]
    unfold marked
    rw [List.countP_cons]
    split
    · rw [wrapInt_sub]
      congr 1
      omega
    · rfl

/-- What is taken out: all that is older than a second, up to the first entry that is not. -/
theorem flushLoop_spec (history : List HistoryEntry) : ∀ s : BitRateCalculator, s.Tracks →
    s.history = history → (flushLoop now history s).Tracks ∧
      (flushLoop now history s).history = recent history now ∧
      (flushLoop now history s).quanta = s.quanta ∧ (flushLoop now history s).first = s.first ∧
      (flushLoop now history s).baseTimeStamp = s.baseTimeStamp := by
  induction history with
  | nil => exact fun s h hhistory => ⟨h, hhistory, rfl, rfl, rfl⟩
  | cons front rest ih =>
      intro s h hhistory
      unfold flushLoop recent
      by_cases hold : now - front.timeStamp > 1000
      · have hdrop : (front :: rest).dropWhile (fun e => decide (now - e.timeStamp > 1000)) =
            recent rest now := List.dropWhile_cons_of_pos (decide_eq_true hold)
        rw [if_pos hold, hdrop]
        exact ih (s.popFront front rest) (tracks_popFront h hhistory) rfl
      · have hdrop : (front :: rest).dropWhile (fun e => decide (now - e.timeStamp > 1000)) =
            front :: rest := List.dropWhile_cons_of_neg (by simpa using hold)
        rw [if_neg hold, hdrop]
        exact ⟨h, hhistory, rfl, rfl, rfl⟩

theorem flush_spec (h : s.Tracks) : (s.flush now).Tracks ∧
    (s.flush now).history = recent s.history now ∧ (s.flush now).quanta = s.quanta ∧
    (s.flush now).first = s.first ∧ (s.flush now).baseTimeStamp = s.baseTimeStamp :=
  flushLoop_spec s.history s h rfl

theorem tracks_push (h : s.Tracks) (size : Nat) (marker : Bool) :
    (s.push size now marker).Tracks := by
  have hhistory : (s.push size now marker).history = s.history ++ [⟨size, now, marker⟩] := rfl
  constructor
  · have hsize : (s.push size now marker).historySize = wrapInt (s.historySize + size) := rfl
    rw [hsize, hhistory, h.size, wrapInt_add, sizes_append, Int.natCast_add]
  · have hframes : (s.push size now marker).historyFrames =
        if marker then wrapInt (s.historyFrames + 1) else s.historyFrames := rfl
    rw [hframes, hhistory, h.frames, marked_append]
    cases marker with
    | false => rw [if_neg Bool.false_ne_true, if_neg Bool.false_ne_true, Nat.add_zero]
    | true => rw [if_pos rfl, if_pos rfl, wrapInt_add, Int.natCast_add, Int.natCast_one]

/-- What is kept of a history is part of it. -/
theorem mem_recent {history : List HistoryEntry} {e : HistoryEntry}
    (h : e ∈ recent history now) : e ∈ history := (List.dropWhile_sublist _).subset h

theorem before_flush {t : Int} (h : s.Tracks) (hbefore : s.Before t) : (s.flush now).Before t := by
  rcases @flush_spec _ now h with ⟨-, hhistory, -, hfirst, hbase⟩
  constructor
  · rw [hhistory]
    exact fun e he => hbefore.history e (mem_recent he)
  · rw [hfirst, hbase]
    exact hbefore.base

theorem before_push {t : Int} (hbefore : s.Before t) (hnow : now ≤ t) (size : Nat) (marker : Bool) :
    (s.push size now marker).Before t := by
  constructor
  · intro e he
    rcases List.mem_append.1 he with he | he
    · exact hbefore.history e he
    · rw [List.mem_singleton.1 he]
      exact hnow
  · intro _
    show (if s.first then now else s.baseTimeStamp) ≤ t
    split
    · exact hnow
    · rename_i hfirst
      exact hbefore.base (Bool.eq_false_iff.2 hfirst)

/-- A division is by zero when there are no quanta and no time has passed. -/
theorem divide_ne (dividend : Int) {quanta : UInt32} {start : Int} (hstart : start ≤ now) :
    divide dividend (quanta.toNat + (now - start)) ≠ .divisionByZero ↔
      (quanta = 0 → start < now) := by
  have hquanta : quanta = 0 ↔ quanta.toNat = 0 := UInt32.toNat_inj.symm
  unfold divide
  rw [hquanta]
  split
  · rename_i hzero
    exact iff_of_false (fun h => h rfl) (by omega)
  · rename_i hne
    refine iff_of_true (fun h => nomatch h) (by omega)

/-- The rate of a history that has been flushed. -/
theorem rateSince_ne (h : s.Tracks) (hbefore : s.Before now) (octets : Int) {front : HistoryEntry}
    (hfront : front ∈ (recent s.history now).head?) :
    (s.flush now).rateSince octets now front ≠ .divisionByZero ↔
      (s.quanta = 0 → front.timeStamp < now) := by
  have hmem : front ∈ s.history := mem_recent (List.mem_of_mem_head? hfront)
  unfold rateSince
  rw [(@flush_spec _ now h).2.2.1]
  exact divide_ne _ (hbefore.history front hmem)

/-- A rate of the history is asked for. -/
theorem rate_ne (h : s.Tracks) (hbefore : s.Before now) {result : RateResult}
    (hempty : recent s.history now = [] → result ≠ .divisionByZero)
    (hrate : ∀ front ∈ (recent s.history now).head?,
      ∃ octets, result = (s.flush now).rateSince octets now front) :
    result ≠ .divisionByZero ↔
      (s.quanta = 0 → ∀ front ∈ (recent s.history now).head?, front.timeStamp < now) := by
  cases hhead : (recent s.history now).head? with
  | none =>
      exact iff_of_true (hempty (List.head?_eq_none_iff.1 hhead)) fun _ front hfront =>
        (nomatch hfront)
  | some front =>
      have hfront : front ∈ (recent s.history now).head? := hhead
      rcases hrate front hfront with ⟨octets, heq⟩
      rw [heq, rateSince_ne h hbefore octets hfront]
      simp only [Option.mem_some_iff, forall_eq']

/-- The history and its numbers after a call. -/
theorem step_tracks (h : s.Tracks) (call : BitRateCall) :
    (s.step call).1.Tracks ∧ (s.step call).1.history = s.kept call := by
  cases call with
  | reset => exact ⟨tracks_empty rfl rfl rfl, rfl⟩
  | setQuanta quanta => exact ⟨⟨h.size, h.frames⟩, rfl⟩
  | addPacket size marker now later =>
      have hspec := @flush_spec _ later (@tracks_push _ now h size marker)
      exact ⟨hspec.1, hspec.2.1⟩
  | getTrialBitRate size now => exact ⟨(flush_spec h).1, (flush_spec h).2.1⟩
  | getBitRate now =>
      rcases @flush_spec _ now h with ⟨htracks, hhistory, -⟩
      simp only [step]
      unfold storeRate
      split
      · exact ⟨⟨htracks.size, htracks.frames⟩, hhistory⟩
      · exact ⟨htracks, hhistory⟩
  | getAverageBitRate now => exact ⟨h, rfl⟩
  | flush now => exact ⟨(flush_spec h).1, (flush_spec h).2.1⟩

/-- When a call does not divide by zero. -/
theorem step_divides (h : s.Tracks) (call : BitRateCall) (hbefore : ∀ t ∈ call.times, s.Before t) :
    (s.step call).2 ≠ .divisionByZero ↔ s.Elapsed call := by
  cases call with
  | reset => exact iff_of_true (fun hne => nomatch hne) trivial
  | setQuanta quanta => exact iff_of_true (fun hne => nomatch hne) trivial
  | addPacket size marker now later => exact iff_of_true (fun hne => nomatch hne) trivial
  | getTrialBitRate size now =>
      have hhistory := (@flush_spec _ now h).2.1
      refine rate_ne h (hbefore now (List.mem_singleton.2 rfl)) (fun hempty => ?_)
        fun front hfront => ⟨size + (s.flush now).historySize, ?_⟩
      · simp only [step, trialBitRate, hhistory, hempty]
        exact fun hne => nomatch hne
      · rcases List.head?_eq_some_iff.1 hfront with ⟨rest, hrest⟩
        simp only [step, trialBitRate, hhistory, hrest]
  | getBitRate now =>
      have hhistory := (@flush_spec _ now h).2.1
      refine rate_ne h (hbefore now (List.mem_singleton.2 rfl)) (fun hempty => ?_)
        fun front hfront => ⟨(s.flush now).historySize, ?_⟩
      · simp only [step, currentBitRate, hhistory, hempty]
        exact fun hne => nomatch hne
      · rcases List.head?_eq_some_iff.1 hfront with ⟨rest, hrest⟩
        simp only [step, currentBitRate, hhistory, hrest]
  | getAverageBitRate now =>
      simp only [step, averageBitRate, Elapsed]
      cases hfirst : s.first with
      | true => exact iff_of_true (fun hne => nomatch hne) fun _ hf => nomatch hf
      | false =>
          have hbase := (hbefore now (List.mem_singleton.2 rfl)).base hfirst
          rw [if_neg Bool.false_ne_true, Int.add_sub_assoc, divide_ne _ hbase]
          exact imp_congr_right fun _ => ⟨fun hlt _ => hlt, fun himp => himp rfl⟩
  | flush now => exact iff_of_true (fun hne => nomatch hne) trivial

/-- Nothing that is recorded is later than the times that follow. -/
theorem step_before {t : Int} (h : s.Tracks) (call : BitRateCall) (hbefore : s.Before t)
    (htimes : ∀ u ∈ call.times, u ≤ t) : (s.step call).1.Before t := by
  cases call with
  | reset => exact ⟨fun e he => absurd he List.not_mem_nil, fun hf => (nomatch hf)⟩
  | setQuanta quanta => exact ⟨hbefore.history, hbefore.base⟩
  | addPacket size marker now later =>
      exact before_flush (tracks_push h size marker)
        (before_push hbefore (htimes now List.mem_cons_self) size marker)
  | getTrialBitRate size now => exact before_flush h hbefore
  | getBitRate now =>
      have hflush := @before_flush _ now _ h hbefore
      simp only [step]
      unfold storeRate
      split
      · exact ⟨hflush.history, hflush.base⟩
      · exact hflush
  | getAverageBitRate now => exact hbefore
  | flush now => exact before_flush h hbefore

/-- A call: when the numbers are right after it and it does not divide by zero. -/
theorem right_iff (h : s.Tracks) (call : BitRateCall) (hbefore : ∀ t ∈ call.times, s.Before t) :
    Right (stepAt step s call) ↔ s.Sound call := by
  rcases step_tracks h call with ⟨htracks, hhistory⟩
  unfold Right Sound
  rw [← hhistory, ← step_divides h call hbefore, ← and_assoc, ← htracks.exact_iff]
  rfl

end Calls

/-- The numbers are right after every call, and none divides by zero. -/
def AlwaysRight (s : BitRateCalculator) (calls : List BitRateCall) : Prop :=
  ∀ x ∈ run step s calls, Right x

/-- Every call is sound. -/
def AlwaysSound (s : BitRateCalculator) (calls : List BitRateCall) : Prop :=
  ∀ x ∈ run step s calls, x.before.Sound x.input

section Runs

theorem always_iff (calls : List BitRateCall) : ∀ s : BitRateCalculator, s.Tracks →
    Timely calls → (∀ t ∈ calls.flatMap (·.times), s.Before t) →
    (s.AlwaysRight calls ↔ s.AlwaysSound calls) := by
  induction calls with
  | nil =>
      exact fun s _ _ _ => iff_of_true (fun x hx => absurd hx List.not_mem_nil)
        fun x hx => absurd hx List.not_mem_nil
  | cons call calls ih =>
      intro s h htimely hbefore
      unfold Timely at htimely
      rw [List.flatMap_cons] at hbefore
      rw [List.flatMap_cons, List.pairwise_append] at htimely
      rcases htimely with ⟨-, hrest, hcross⟩
      have hcall := right_iff h call fun t ht => hbefore t (List.mem_append_left _ ht)
      have hnext := ih (s.step call).1 (step_tracks h call).1 hrest fun t ht =>
        step_before h call (hbefore t (List.mem_append_right _ ht)) fun u hu => hcross u hu t ht
      unfold AlwaysRight AlwaysSound at hnext ⊢
      simp only [run, List.forall_mem_cons]
      exact and_congr hcall hnext

/-- The bit rates of every run. -/
theorem bitRate_iff (quanta : UInt32) (baseTimeStamp : Int) (calls : List BitRateCall)
    (htimely : Timely calls) :
    (create quanta baseTimeStamp).AlwaysRight calls ↔
      (create quanta baseTimeStamp).AlwaysSound calls :=
  always_iff calls _ (tracks_empty rfl rfl rfl) htimely fun _ _ =>
    ⟨fun _ he => absurd he List.not_mem_nil, fun hf => (nomatch hf)⟩

/-- A frame, and the bit rate in the millisecond in which it was added. -/
def frameAndRate : List BitRateCall := [.addPacket 100 true 5 5, .getBitRate 5]

theorem frameAndRate_right : (create 40 0).AlwaysRight frameAndRate := by
  refine (bitRate_iff 40 0 frameAndRate (by decide)).2 fun x hx => ?_
  rcases List.mem_cons.1 hx with rfl | hx
  · exact ⟨by decide, by decide, trivial⟩
  · rw [List.mem_singleton.1 hx]
    exact ⟨by decide, by decide, fun hquanta => absurd hquanta (by decide)⟩

/-- Without quanta the rate is a division by zero. -/
theorem frameAndRate_divides : ¬(create 0 0).AlwaysRight frameAndRate := by
  intro h
  have hrate := h (stepAt step (step (create 0 0) (.addPacket 100 true 5 5)).1 (.getBitRate 5))
    (List.mem_cons_of_mem _ List.mem_cons_self)
  exact hrate.2 (by decide +kernel)

end Runs

end BitRateCalculator

end Codec

end CryptoOpal

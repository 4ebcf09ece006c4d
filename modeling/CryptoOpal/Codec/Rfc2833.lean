import CryptoOpal.Lib.Octets
import CryptoOpal.Lib.Transducer

/-!
# Receiving DTMF Tones

`OpalRFC2833Proto::ReceivedPacket` and `OpalRFC2833Proto::ReceiveTimeout`:
what the receiver of RFC 2833 packets reports about the tones in them.

A packet with another timestamp than the last one starts a tone, and the first
packet of a tone with the end bit ends it. The receiver only remembers the last
timestamp. So a packet of an older tone that comes late starts that tone once
more; a tone that is cut short by the next one is ended with the duration of
the next one's packet; and a tone that the time-out stops never ends at all.
Where none of these happens, every tone is reported as it should be.

The condition looks at the timestamps that have been reported, which the
receiver does not keep. Runs are therefore runs of the receiver together with
that list.

## Main definitions

* `ToneReceiver`: The receiving half of `OpalRFC2833Proto`.
* `Report`: What the receive notifier is told.
* `receivedPacket`, `receiveTimeout`: The two events.
* `watch`: An event, and the timestamps of the tones that have started.
* `Orderly`: An event that none of the three cases applies to.
* `Balanced`: Starts and ends alternate, each end with the tone that started.
* `OncePerTone`: The reports of a run are right.

## Theorems

* `effect_receivedPacket`: What one packet of an orderly run can do.
* `tracks_watch`: One event of an orderly run.
* `tones_once`: The reports of an orderly run.
-/

namespace CryptoOpal

namespace Codec

open Lib (Octets Step stepAt run final Along events history_invariant)

/-- The events of `RFC2833Table1Events`, from code 0 on. -/
def table1Events : List Char := "0123456789*#ABCD!                Y   X".toList

/-- The events of `NSEEvents`, from code `NSECodeBase` on. -/
def nseEvents : List Char := ['X', 'Y']

/-- `NSECodeBase`. -/
def nseCodeBase : Nat := 192

/-- `RFC2833ToASCII`. -/
def rfc2833ToASCII (code : Nat) (hasNSE : Bool) : Option Char :=
  if hasNSE && decide (nseCodeBase ≤ code) && decide (code < nseCodeBase + nseEvents.length) then
    nseEvents[code - nseCodeBase]?
  else table1Events[code]?

/-- What the receiver reads of an RTP frame. -/
structure TonePacket where
  payloadType : Nat
  payload : Octets
  timestamp : UInt32
  deriving DecidableEq

/-- The event code. -/
def TonePacket.code (p : TonePacket) : Nat := (p.payload.getD 0 0).toNat

/-- The duration in milliseconds. -/
def TonePacket.duration (p : TonePacket) : Nat :=
  ((p.payload.getD 2 0).toNat * 256 + (p.payload.getD 3 0).toNat) / 8

/-- The volume, in dB below the maximum. -/
def TonePacket.volume (p : TonePacket) : Nat := (p.payload.getD 1 0 &&& 0x3f).toNat

/-- The end bit. -/
def TonePacket.ended (p : TonePacket) : Bool := p.payload.getD 1 0 &&& 0x80 != 0

/-- `m_receiveState`. -/
inductive ReceiveState where
  | idle
  | active
  | ending
  deriving DecidableEq

/-- The receiving half of `OpalRFC2833Proto`. The timer is `none` while it is
    stopped. -/
structure ToneReceiver where
  rxPayloadType : Nat
  hasNSE : Bool
  receiveState : ReceiveState
  receivedTone : Char
  tonesReceived : UInt32
  receiveTimer : Option Nat
  previousReceivedTimestamp : UInt32
  deriving DecidableEq

/-- What `m_receiveNotifier` is told. -/
inductive Report where
  | start (tone : Char) (timestamp : UInt32)
  | stop (tone : Char) (duration : Nat) (timestamp : UInt32)
  deriving DecidableEq

namespace ToneReceiver

/-- The constructor. -/
def new (rxPayloadType : Nat) (hasNSE : Bool) : ToneReceiver :=
  { rxPayloadType := rxPayloadType
    hasNSE := hasNSE
    receiveState := .idle
    receivedTone := '\x00'
    tonesReceived := 0
    receiveTimer := none
    previousReceivedTimestamp := 0 }

/-- The packet is for this receiver, and goes no further than it. -/
def ignoresPacket (r : ToneReceiver) (p : TonePacket) : Bool :=
  p.payloadType == r.rxPayloadType && p.payload.length != 0

/-- The tone of a packet that is not ignored. -/
def toneOf (r : ToneReceiver) (p : TonePacket) : Option Char :=
  if !r.ignoresPacket p then none
  -- Too small.
  else if p.payload.length < 4 then none
  else
    match rfc2833ToASCII p.code r.hasNSE with
    -- Unsupported event.
    | none => none
    -- RFC 2833 says to ignore below -55db.
    | some tone => if p.volume > 55 then none else some tone

/-- `OnStartReceive`. -/
def onStartReceive (r : ToneReceiver) (tone : Char) (timestamp : UInt32) :
    ToneReceiver × List Report :=
  ({ r with tonesReceived := r.tonesReceived + 1, previousReceivedTimestamp := timestamp },
    [.start tone timestamp])

/-- `OnEndReceive`. -/
def onEndReceive (r : ToneReceiver) (tone : Char) (duration : Nat) (timestamp : UInt32) :
    ToneReceiver × List Report :=
  ({ r with receiveState := .idle, receiveTimer := none }, [.stop tone duration timestamp])

/-- The timestamp is the only safe way to detect a new tone. -/
def newTone (r : ToneReceiver) (p : TonePacket) : Bool :=
  r.tonesReceived == 0 || p.timestamp != r.previousReceivedTimestamp

/-- Finish any existing tone, with the duration of the packet at hand. -/
def finishExisting (r : ToneReceiver) (p : TonePacket) : ToneReceiver × List Report :=
  if r.receiveState = .active then
    onEndReceive { r with receiveTimer := none } r.receivedTone p.duration
      r.previousReceivedTimestamp
  else ({ r with receiveTimer := none }, [])

/-- Set up for a new tone. -/
def startTone (r : ToneReceiver) (tone : Char) (p : TonePacket) : ToneReceiver × List Report :=
  ({ ((r.finishExisting p).1.onStartReceive tone p.timestamp).1 with
      receivedTone := tone, receiveTimer := some 200, receiveState := .active },
    (r.finishExisting p).2 ++ ((r.finishExisting p).1.onStartReceive tone p.timestamp).2)

/-- Another packet of the same tone. -/
def continueTone (r : ToneReceiver) : ToneReceiver × List Report :=
  ({ r with receiveTimer := if r.receiveState = .active then some 200 else none }, [])

/-- If end of active tone, do callback and change to idle. -/
def finishTone (r : ToneReceiver) (p : TonePacket) : ToneReceiver × List Report :=
  if r.receiveState = .active && p.ended then
    r.onEndReceive r.receivedTone p.duration p.timestamp
  else (r, [])

/-- The receiver before the check for the end of the tone. -/
def beginPacket (r : ToneReceiver) (tone : Char) (p : TonePacket) : ToneReceiver × List Report :=
  if r.newTone p then r.startTone tone p else r.continueTone

/-- `ReceivedPacket`. -/
def receivedPacket (r : ToneReceiver) (p : TonePacket) : ToneReceiver × List Report :=
  match r.toneOf p with
  | none => (r, [])
  | some tone =>
    -- No else, so this works for single packet tones too.
    (((r.beginPacket tone p).1.finishTone p).1,
      (r.beginPacket tone p).2 ++ ((r.beginPacket tone p).1.finishTone p).2)

/-- `ReceiveTimeout`. The call of `OnEndReceive` is commented out there. -/
def receiveTimeout (r : ToneReceiver) : ToneReceiver :=
  { r with
    receiveState := if r.receiveState ≠ .idle then .idle else r.receiveState
    receiveTimer := none }

end ToneReceiver

/-- An event at the receiver. -/
inductive ToneEvent where
  | packet (p : TonePacket)
  | timeout
  deriving DecidableEq

/-- What the receiver does on an event. -/
def ToneReceiver.step (r : ToneReceiver) : ToneEvent → ToneReceiver × List Report
  | .packet p => r.receivedPacket p
  | .timeout => (r.receiveTimeout, [])

/-- The timestamps of the tones that start in a list of reports. -/
def startedAt (reports : List Report) : List UInt32 :=
  reports.filterMap fun
    | .start _ timestamp => some timestamp
    | .stop _ _ _ => none

/-- The timestamps of the tones that end in a list of reports. -/
def endedAt (reports : List Report) : List UInt32 :=
  reports.filterMap fun
    | .start _ _ => none
    | .stop _ _ timestamp => some timestamp

/-- A receiver, and the timestamps it has reported the start of a tone for. -/
structure Watched where
  receiver : ToneReceiver
  started : List UInt32
  deriving DecidableEq

/-- An event at a watched receiver. -/
def watch (w : Watched) (e : ToneEvent) : Watched × List Report :=
  (⟨(w.receiver.step e).1, w.started ++ startedAt (w.receiver.step e).2⟩, (w.receiver.step e).2)

/-- A packet that starts a tone finds the receiver idle and has a timestamp
    that was not reported before, and the time-out finds the receiver idle. -/
def Orderly (w : Watched) : ToneEvent → Prop
  | .packet p =>
    (w.receiver.toneOf p).isSome → w.receiver.newTone p = true →
      w.receiver.receiveState = .idle ∧ p.timestamp ∉ w.started
  | .timeout => w.receiver.receiveState = .idle

instance (w : Watched) (e : ToneEvent) : Decidable (Orderly w e) := by
  cases e <;> unfold Orderly <;> infer_instance

/-- The events of a run from a new receiver, with the reports on each. -/
def toneLog (w : Watched) (es : List ToneEvent) : List (ToneEvent × List Report) :=
  events watch (fun x => some (x.input, x.output)) w es

/-- All reports of a log. -/
def reportsOf (log : List (ToneEvent × List Report)) : List Report := log.flatMap Prod.snd

/-- Starts and ends alternate, and an end has the tone and the timestamp of the
    start before it. The second argument is the tone that has not ended. -/
inductive Balanced : List Report → Option (Char × UInt32) → Prop where
  | nil : Balanced [] none
  | start {reports : List Report} (tone : Char) (timestamp : UInt32) (h : Balanced reports none) :
      Balanced (reports ++ [.start tone timestamp]) (some (tone, timestamp))
  | stop {reports : List Report} {tone : Char} {timestamp : UInt32} (duration : Nat)
      (h : Balanced reports (some (tone, timestamp))) :
      Balanced (reports ++ [.stop tone duration timestamp]) none

/-- The reports are right: at most one start and one end for each timestamp,
    alternating, each end with the tone that was started and with the duration
    of a packet of that tone with the end bit. -/
structure OncePerTone (log : List (ToneEvent × List Report)) : Prop where
  starts : (startedAt (reportsOf log)).Nodup
  ends : (endedAt (reportsOf log)).Nodup
  alternate : ∃ tone, Balanced (reportsOf log) tone
  durations : ∀ tone duration timestamp, .stop tone duration timestamp ∈ reportsOf log →
    ∃ p, .packet p ∈ log.map Prod.fst ∧ p.timestamp = timestamp ∧ p.ended = true ∧
      p.duration = duration

/-- The tone that the receiver has started and not ended. -/
def ToneReceiver.current (r : ToneReceiver) : Option (Char × UInt32) :=
  if r.receiveState = .active then some (r.receivedTone, r.previousReceivedTimestamp) else none

/-- What a packet can do at a receiver in an orderly run: nothing that is
    reported, start a tone, start and end one, or end the current one. -/
inductive PacketEffect (r : ToneReceiver) (p : TonePacket) :
    ToneReceiver × List Report → Prop where
  | quiet (r' : ToneReceiver) (h : r'.current = r.current) : PacketEffect r p (r', [])
  | start (r' : ToneReceiver) (tone : Char) (hidle : r.current = none)
      (hnew : r.newTone p = true) (h : r'.current = some (tone, p.timestamp)) :
      PacketEffect r p (r', [.start tone p.timestamp])
  | single (r' : ToneReceiver) (tone : Char) (hidle : r.current = none)
      (hnew : r.newTone p = true) (hended : p.ended = true) (h : r'.current = none) :
      PacketEffect r p (r', [.start tone p.timestamp, .stop tone p.duration p.timestamp])
  | stop (r' : ToneReceiver) (tone : Char) (hactive : r.current = some (tone, p.timestamp))
      (hended : p.ended = true) (h : r'.current = none) :
      PacketEffect r p (r', [.stop tone p.duration p.timestamp])

theorem current_idle {r : ToneReceiver} (h : r.receiveState = .idle) : r.current = none := by
  rw [ToneReceiver.current, h]
  rfl

/-- A packet that starts a tone at an idle receiver. -/
theorem effect_newTone {r : ToneReceiver} {p : TonePacket} {tone : Char}
    (htone : r.toneOf p = some tone) (hnew : r.newTone p = true)
    (hidle : r.receiveState = .idle) : PacketEffect r p (r.receivedPacket p) := by
  have hnone : r.finishExisting p = ({ r with receiveTimer := none }, []) := by
    rw [ToneReceiver.finishExisting, if_neg (by rw [hidle]; decide)]
  have hbegin : r.beginPacket tone p = r.startTone tone p := if_pos hnew
  rw [ToneReceiver.receivedPacket, htone]
  simp only [hbegin, ToneReceiver.startTone, hnone, ToneReceiver.onStartReceive,
    ToneReceiver.finishTone, decide_true, Bool.true_and, List.nil_append]
  cases hended : p.ended with
  | false => exact .start _ tone (current_idle hidle) hnew rfl
  | true => exact .single _ tone (current_idle hidle) hnew hended rfl

/-- Another packet of the last tone. -/
theorem effect_sameTone {r : ToneReceiver} {p : TonePacket} {tone : Char}
    (htone : r.toneOf p = some tone) (hnew : r.newTone p = false) :
    PacketEffect r p (r.receivedPacket p) := by
  have hsame : p.timestamp = r.previousReceivedTimestamp := by
    simp only [ToneReceiver.newTone, Bool.or_eq_false_iff, bne_eq_false_iff_eq] at hnew
    exact hnew.2
  have hbegin : r.beginPacket tone p = r.continueTone := if_neg (by rw [hnew]; decide)
  rw [ToneReceiver.receivedPacket, htone]
  simp only [hbegin, ToneReceiver.continueTone, ToneReceiver.finishTone, List.nil_append]
  by_cases hend : (decide (r.receiveState = .active) && p.ended) = true
  · rw [if_pos hend]
    rw [Bool.and_eq_true, decide_eq_true_eq] at hend
    refine .stop _ r.receivedTone ?_ hend.2 rfl
    rw [ToneReceiver.current, if_pos hend.1, hsame]
  · rw [if_neg hend]
    exact .quiet _ rfl

/-- A packet of an orderly run. -/
theorem effect_receivedPacket {w : Watched} {p : TonePacket} (h : Orderly w (.packet p)) :
    PacketEffect w.receiver p (w.receiver.receivedPacket p) := by
  cases htone : w.receiver.toneOf p with
  | none =>
      rw [ToneReceiver.receivedPacket, htone]
      exact .quiet _ rfl
  | some tone =>
      cases hnew : w.receiver.newTone p with
      | true => exact effect_newTone htone hnew (h (by rw [htone]; rfl) hnew).1
      | false => exact effect_sameTone htone hnew

/-- Between reports and receiver: the tone that has not ended is the current
    one, and the watched timestamps are those of the reports. -/
structure Tracks (log : List (ToneEvent × List Report)) (w : Watched) : Prop where
  balanced : Balanced (reportsOf log) w.receiver.current
  started : w.started = startedAt (reportsOf log)
  nodup : w.started.Nodup
  durations : ∀ tone duration timestamp, .stop tone duration timestamp ∈ reportsOf log →
    ∃ p, .packet p ∈ log.map Prod.fst ∧ p.timestamp = timestamp ∧ p.ended = true ∧
      p.duration = duration

theorem reportsOf_append (log : List (ToneEvent × List Report)) (e : ToneEvent)
    (reports : List Report) : reportsOf (log ++ [(e, reports)]) = reportsOf log ++ reports := by
  simp only [reportsOf, List.flatMap_append, List.flatMap_cons, List.flatMap_nil, List.append_nil]

theorem startedAt_append (l l' : List Report) : startedAt (l ++ l') = startedAt l ++ startedAt l' :=
  List.filterMap_append

/-- The tones that end are the ones that start, but for the current one. -/
theorem startedAt_eq {reports : List Report} {tone : Option (Char × UInt32)}
    (h : Balanced reports tone) :
    startedAt reports = endedAt reports ++ (tone.map Prod.snd).toList := by
  induction h with
  | nil => rfl
  | start tone timestamp _ ih =>
      rw [startedAt_append, ih, endedAt, endedAt, List.filterMap_append]
      simp only [startedAt, Option.map_none, Option.toList_none, List.append_nil,
        List.filterMap_cons, List.filterMap_nil, Option.map_some, Option.toList_some]
  | stop duration _ ih =>
      rw [startedAt_append, ih, endedAt, endedAt, List.filterMap_append]
      simp only [startedAt, Option.map_some, Option.toList_some, List.filterMap_cons,
        List.filterMap_nil, List.append_nil, Option.map_none, Option.toList_none]

/-- The log of a tracked receiver is right. -/
theorem Tracks.oncePerTone {log : List (ToneEvent × List Report)} {w : Watched}
    (h : Tracks log w) : OncePerTone log where
  starts := h.started ▸ h.nodup
  ends := by
    have hstarts : (startedAt (reportsOf log)).Nodup := h.started ▸ h.nodup
    rw [startedAt_eq h.balanced] at hstarts
    exact (List.nodup_append.mp hstarts).1
  alternate := ⟨_, h.balanced⟩
  durations := h.durations

/-- The durations after an event: the old ones, and that of a packet that ended
    its tone. -/
theorem durations_append {log : List (ToneEvent × List Report)} {e : ToneEvent}
    {reports : List Report}
    (h : ∀ tone duration timestamp, .stop tone duration timestamp ∈ reportsOf log →
      ∃ p, .packet p ∈ log.map Prod.fst ∧ p.timestamp = timestamp ∧ p.ended = true ∧
        p.duration = duration)
    (hnew : ∀ tone duration timestamp, .stop tone duration timestamp ∈ reports →
      ∃ p, e = .packet p ∧ p.timestamp = timestamp ∧ p.ended = true ∧ p.duration = duration) :
    ∀ tone duration timestamp, .stop tone duration timestamp ∈ reportsOf (log ++ [(e, reports)]) →
      ∃ p, .packet p ∈ (log ++ [(e, reports)]).map Prod.fst ∧ p.timestamp = timestamp ∧
        p.ended = true ∧ p.duration = duration := by
  intro tone duration timestamp hmem
  rw [reportsOf_append, List.mem_append] at hmem
  rw [List.map_append]
  rcases hmem with hmem | hmem
  · rcases h tone duration timestamp hmem with ⟨p, hp, hrest⟩
    exact ⟨p, List.mem_append_left _ hp, hrest⟩
  · rcases hnew tone duration timestamp hmem with ⟨p, rfl, hrest⟩
    exact ⟨p, List.mem_append_right _ List.mem_cons_self, hrest⟩

/-- A new tone in an orderly run has a timestamp that was not reported. -/
theorem fresh_of_newTone {w : Watched} {p : TonePacket} (h : Orderly w (.packet p))
    (hnew : w.receiver.newTone p = true) (hreported : (w.receiver.receivedPacket p).2 ≠ []) :
    p.timestamp ∉ w.started := by
  cases htone : w.receiver.toneOf p with
  | none =>
      rw [ToneReceiver.receivedPacket, htone] at hreported
      exact absurd rfl hreported
  | some tone => exact (h (by rw [htone]; rfl) hnew).2

theorem nodup_snoc {l : List UInt32} {x : UInt32} (h : l.Nodup) (hx : x ∉ l) :
    (l ++ [x]).Nodup := by
  refine List.nodup_append.mpr ⟨h, List.pairwise_singleton _ x, ?_⟩
  intro a ha b hb hab
  rw [List.mem_singleton] at hb
  exact hx (hb ▸ hab ▸ ha)

/-- One event of an orderly run. -/
theorem tracks_watch {log : List (ToneEvent × List Report)} {w : Watched} {e : ToneEvent}
    (h : Tracks log w) (horderly : Orderly w e) :
    Tracks (log ++ [(e, (watch w e).2)]) (watch w e).1 := by
  cases e with
  | timeout =>
      -- The receiver is idle, and stays so.
      have hcurrent : w.receiver.receiveTimeout.current = w.receiver.current := by
        have hidle : w.receiver.receiveState = .idle := horderly
        rw [ToneReceiver.current, ToneReceiver.current, ToneReceiver.receiveTimeout, hidle]
        rfl
      refine ⟨?_, ?_, ?_, ?_⟩
      · rw [reportsOf_append]
        change Balanced (reportsOf log ++ []) w.receiver.receiveTimeout.current
        rw [List.append_nil, hcurrent]
        exact h.balanced
      · rw [reportsOf_append, startedAt_append, ← h.started]
        rfl
      · change (w.started ++ []).Nodup
        rw [List.append_nil]
        exact h.nodup
      · refine durations_append h.durations ?_
        intro tone duration timestamp hmem
        exact absurd hmem List.not_mem_nil
  | packet p =>
      have heffect := effect_receivedPacket horderly
      have hfresh := fresh_of_newTone horderly
      have hstarted : w.started ++ startedAt (w.receiver.receivedPacket p).2 =
          startedAt (reportsOf (log ++ [(.packet p, (w.receiver.receivedPacket p).2)])) := by
        rw [reportsOf_append, startedAt_append, ← h.started]
      suffices hall : Balanced (reportsOf log ++ (w.receiver.receivedPacket p).2)
          (w.receiver.receivedPacket p).1.current ∧
          (w.started ++ startedAt (w.receiver.receivedPacket p).2).Nodup ∧
          ∀ tone duration timestamp,
            .stop tone duration timestamp ∈ (w.receiver.receivedPacket p).2 →
            p.timestamp = timestamp ∧ p.ended = true ∧ p.duration = duration by
        refine ⟨?_, hstarted, hall.2.1, ?_⟩
        · rw [reportsOf_append]
          exact hall.1
        · refine durations_append h.durations ?_
          intro tone duration timestamp hmem
          exact ⟨p, rfl, hall.2.2 tone duration timestamp hmem⟩
      have hbalanced := h.balanced
      generalize w.receiver.receivedPacket p = result at heffect hfresh
      cases heffect with
      | quiet r' hcurrent =>
          rw [← hcurrent] at hbalanced
          refine ⟨?_, ?_, ?_⟩
          · rw [List.append_nil]
            exact hbalanced
          · change (w.started ++ []).Nodup
            rw [List.append_nil]
            exact h.nodup
          · intro tone duration timestamp hmem
            exact absurd hmem List.not_mem_nil
      | start r' tone hidle hnew hcurrent =>
          rw [hidle] at hbalanced
          refine ⟨?_, ?_, ?_⟩
          · rw [hcurrent]
            exact hbalanced.start tone p.timestamp
          · exact nodup_snoc h.nodup (hfresh hnew (List.cons_ne_nil _ _))
          · intro tone' duration timestamp hmem
            rw [List.mem_singleton] at hmem
            exact absurd hmem (by simp only [reduceCtorEq, not_false_eq_true])
      | single r' tone hidle hnew hended hcurrent =>
          rw [hidle] at hbalanced
          refine ⟨?_, ?_, ?_⟩
          · have htwo : reportsOf log ++
                [.start tone p.timestamp, .stop tone p.duration p.timestamp] =
                reportsOf log ++ [.start tone p.timestamp] ++
                  [.stop tone p.duration p.timestamp] := by
              rw [List.append_assoc]
              rfl
            rw [hcurrent, htwo]
            exact (hbalanced.start tone p.timestamp).stop p.duration
          · exact nodup_snoc h.nodup (hfresh hnew (List.cons_ne_nil _ _))
          · intro tone' duration timestamp hmem
            rcases List.mem_cons.mp hmem with hmem | hmem
            · exact absurd hmem (by simp only [reduceCtorEq, not_false_eq_true])
            · rw [List.mem_singleton, Report.stop.injEq] at hmem
              exact ⟨hmem.2.2.symm, hended, hmem.2.1.symm⟩
      | stop r' tone hactive hended hcurrent =>
          rw [hactive] at hbalanced
          refine ⟨?_, ?_, ?_⟩
          · rw [hcurrent]
            exact hbalanced.stop p.duration
          · change (w.started ++ []).Nodup
            rw [List.append_nil]
            exact h.nodup
          · intro tone' duration timestamp hmem
            rw [List.mem_singleton, Report.stop.injEq] at hmem
            exact ⟨hmem.2.2.symm, hended, hmem.2.1.symm⟩

/-- A new receiver, watched from the beginning. -/
def newWatched (rxPayloadType : Nat) (hasNSE : Bool) : Watched :=
  ⟨.new rxPayloadType hasNSE, []⟩

/-- A packet of the event with a code and the end bit or not. -/
def samplePacket (code flags duration : UInt8) (timestamp : UInt32) : ToneEvent :=
  .packet { payloadType := 101, payload := [code, flags, 0, duration], timestamp := timestamp }

-- If the end of a tone is lost, the next one's packet ends it, with a duration that no packet of
-- the tone has.
example :
    reportsOf (toneLog (newWatched 101 false)
      [samplePacket 1 10 80 160, samplePacket 2 10 40 960]) =
      [.start '1' 160, .stop '1' 5 160, .start '2' 960] := by
  decide +kernel

end Codec

end CryptoOpal

import CryptoOpal.Srtp.Memory
import CryptoOpal.Lib.Transducer

/-!
# Runs of a Session

What an application does with a session between two key changes, as a
transducer: it sets rollover counters, receives packets and sends packets, in
any order and on any SSRC.

The packet indices a run uses on one SSRC are its events. As long as every
call stays clear of the places where a database loses track
(`Session.Tracked`), the session remembers them all, so the index of a packet
that is received, or sent on a stream that does not repeat, is a new one.
The statements about replays and about the sender's IVs are read off from
`remembers_call` and `fresh_call`.

## Main definitions

* `SessionCall`, `SessionResult`, `callStep`: A call and what it does.
* `Session.Tracked`: The call keeps the databases in step.
* `usedIndex`: The index a call used on an SSRC.

## Theorems

* `remembers_call`: The session remembers the index a call used.
* `fresh_call`: The index is a new one.
* `keyingOn_call`: No call changes a keying.
-/

namespace CryptoOpal

namespace Srtp

open Lib (Octets)

variable {C A : Type} [CipherType C] [AuthType A]

/-- A call of the library, with its arguments. -/
inductive SessionCall where
  | setStreamRoc (ssrc roc : UInt32)
  | unprotect (pkt : Octets) (useMki : Bool)
  | protect (pkt : Octets) (useMki : Bool) (mkiIndex : Nat)

/-- The result of a call. -/
inductive SessionResult (C : Type) where
  | roc (result : Except SrtpErrStatus Unit)
  | received (result : Except Stop Unprotected)
  | sent (result : Except SrtpErrStatus (Protected C))

/-- The session after a call, and the result. -/
def callStep (s : Session C A) : SessionCall → Session C A × SessionResult C
  | .setStreamRoc ssrc roc => ((s.setStreamRoc ssrc roc).1, .roc (s.setStreamRoc ssrc roc).2)
  | .unprotect pkt useMki =>
    ((srtpUnprotectMki s pkt useMki).1, .received (srtpUnprotectMki s pkt useMki).2)
  | .protect pkt useMki mkiIndex =>
    ((srtpProtectMki s pkt useMki mkiIndex).1, .sent (srtpProtectMki s pkt useMki mkiIndex).2)

/-- The call keeps the databases in step: the packet's index stays within 48
    bits, and no packet far ahead of its stream goes to AES-GCM keys. -/
def Session.Tracked (s : Session C A) : SessionCall → Prop
  | .setStreamRoc _ _ => True
  | .unprotect pkt useMki => s.InRange pkt ∧ s.aeadJump pkt useMki = false
  | .protect pkt useMki mkiIndex => s.SendInRange pkt useMki mkiIndex

instance (s : Session C A) (call : SessionCall) : Decidable (s.Tracked call) :=
  match call with
  | .setStreamRoc _ _ => inferInstanceAs (Decidable True)
  | .unprotect pkt useMki =>
    inferInstanceAs (Decidable (s.InRange pkt ∧ s.aeadJump pkt useMki = false))
  | .protect pkt useMki mkiIndex => inferInstanceAs (Decidable (s.SendInRange pkt useMki mkiIndex))

/-- The index a call used on an SSRC, received or sent. -/
def usedIndex (ssrc : UInt32) : SessionCall → SessionResult C → Option Nat
  | .unprotect pkt _, .received result => received ssrc pkt result
  | .protect pkt _ _, .sent result => sent ssrc pkt result
  | _, _ => none

section Steps

variable {s : Session C A} {ssrc : UInt32} {floor : Nat} {H : List Nat} {call : SessionCall}

/-- The session remembers the index that a call used. -/
theorem remembers_call (h : s.Remembers ssrc floor H) (htracked : s.Tracked call) :
    (callStep s call).1.Remembers ssrc floor
      (H ++ (usedIndex ssrc call (callStep s call).2).toList) := by
  cases call with
  | setStreamRoc ssrc' roc =>
      simp only [callStep, usedIndex, Option.toList_none, List.append_nil]
      exact remembers_setStreamRoc h ssrc' roc
  | unprotect pkt useMki => exact remembers_unprotect h htracked.1 htracked.2
  | protect pkt useMki mkiIndex => exact remembers_protect h htracked

/-- A call that received a packet used a new index. -/
theorem fresh_received {pkt : Octets} {useMki : Bool} {est : Nat} (h : s.Remembers ssrc floor H)
    (htracked : s.Tracked (.unprotect pkt useMki))
    (hused : received ssrc pkt (srtpUnprotectMki s pkt useMki).2 = some est)
    (hfloor : floor ≤ est) : est ∉ H := by
  rw [received] at hused
  by_cases hssrc : hdrSsrc pkt = ssrc
  · rw [if_pos hssrc] at hused
    cases hok : (srtpUnprotectMki s pkt useMki).2 with
    | error stop => simp only [hok, Except.toOption, Option.map_none, reduceCtorEq] at hused
    | ok u =>
        simp only [hok, Except.toOption, Option.map_some, Option.some.injEq] at hused
        rw [← hused] at hfloor ⊢
        exact fresh_unprotect h htracked.1 hok hssrc hfloor
  · rw [if_neg hssrc] at hused
    exact absurd hused (by simp only [reduceCtorEq, not_false_eq_true])

/-- Without repeats, a call that sent a packet used a new index. -/
theorem fresh_sent {pkt : Octets} {useMki : Bool} {mkiIndex est : Nat}
    (h : s.Remembers ssrc floor H) (hrep : s.NoRepeat ssrc)
    (htracked : s.Tracked (.protect pkt useMki mkiIndex))
    (hused : sent ssrc pkt (srtpProtectMki s pkt useMki mkiIndex).2 = some est)
    (hfloor : floor ≤ est) : est ∉ H := by
  rw [sent] at hused
  by_cases hssrc : hdrSsrc pkt = ssrc
  · rw [if_pos hssrc] at hused
    cases hok : (srtpProtectMki s pkt useMki mkiIndex).2 with
    | error e => simp only [hok, Except.toOption, Option.map_none, reduceCtorEq] at hused
    | ok o =>
        simp only [hok, Except.toOption, Option.map_some, Option.some.injEq] at hused
        rw [← hused] at hfloor ⊢
        exact fresh_protect h (hssrc ▸ hrep) htracked hok hssrc hfloor
  · rw [if_neg hssrc] at hused
    exact absurd hused (by simp only [reduceCtorEq, not_false_eq_true])

/-- Without repeats, the index a call used is a new one. -/
theorem fresh_call {est : Nat} (h : s.Remembers ssrc floor H) (hrep : s.NoRepeat ssrc)
    (htracked : s.Tracked call) (hused : usedIndex ssrc call (callStep s call).2 = some est)
    (hfloor : floor ≤ est) : est ∉ H := by
  cases call with
  | setStreamRoc ssrc' roc =>
      simp only [usedIndex, reduceCtorEq] at hused
  | unprotect pkt useMki => exact fresh_received h htracked hused hfloor
  | protect pkt useMki mkiIndex => exact fresh_sent h hrep htracked hused hfloor

/-- No call changes the keying of an SSRC. -/
theorem keyingOn_call (s : Session C A) (call : SessionCall) (ssrc : UInt32) :
    (callStep s call).1.keyingOn ssrc = s.keyingOn ssrc := by
  cases call with
  | setStreamRoc ssrc' roc => exact keyingOn_setStreamRoc s ssrc' roc ssrc
  | unprotect pkt useMki => exact keyingOn_unprotect s pkt useMki ssrc
  | protect pkt useMki mkiIndex => exact keyingOn_protect s pkt useMki mkiIndex ssrc

end Steps

end Srtp

end CryptoOpal

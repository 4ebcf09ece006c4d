import CryptoOpal.Srtp.Calls
import CryptoOpal.Srtp.Ideal

/-!
# Exhausted Keys

What a key limit is for: a key that has protected its share of packets is not
used again. The limit is counted down by every packet, sent or received, and
the use that brings it to zero reports the hard limit and fails.

The next use counts down from zero. The counter wraps around, the event is a
normal one, and the key goes on working. So a limit keeps its promise for as
many uses as it was set to and no longer (`staysExhausted_iff`), and a
session keeps it in every run that does not touch a key after its hard limit
(`exhausted_key`).

## Main definitions

* `StaysExhausted`: The promise, over a number of uses.
* `Session.KeyAlive`: A call does not go by a key past its hard limit.
* `usesOf`: The packets that went through under a key.

## Theorems

* `staysExhausted_iff`: How long the promise is kept.
* `limits_unprotect`, `limits_protect`: What a call does to a limit.
* `exhausted_key`: The number of packets that go through.
-/

namespace CryptoOpal

namespace Srtp

open Lib (Octets)

/-- In `n` uses of a key whose limit was set to `s`, every use after one that
    reports the hard limit reports it too. -/
def StaysExhausted (s : UInt64) (n : Nat) : Prop :=
  ∀ key, KeyLimit.set s = .ok key → ∀ i j, i < j → j < n → key.eventAt i = .hardLimit →
    key.eventAt j = .hardLimit

theorem numLeft_set {s : UInt64} {key : KeyLimit} (h : KeyLimit.set s = .ok key) :
    key.numLeft = s ∧ key.state = .normal := by
  unfold KeyLimit.set at h
  split at h
  · exact absurd h (by simp only [reduceCtorEq, not_false_eq_true])
  · rw [Except.ok.injEq] at h
    rw [← h]
    exact ⟨rfl, rfl⟩

/-- A limit is kept for as many uses as it was set to, and not for one more. -/
theorem staysExhausted_iff {s : UInt64} (hs : 0x10000 ≤ s.toNat) (n : Nat) :
    StaysExhausted s n ↔ n ≤ s.toNat := by
  have hlt := s.toNat_lt
  constructor
  · intro h
    by_contra hn
    have hset : KeyLimit.set s = .ok { numLeft := s, state := .normal } := by
      unfold KeyLimit.set
      rw [if_neg]
      rw [UInt64.lt_iff_toNat_lt, show softLimit.toNat = 0x10000 from rfl]
      omega
    -- The use that brings the counter to zero is number `s - 1`, from zero on.
    have hnext := h _ hset (s.toNat - 1) s.toNat (by omega) (by omega)
    rw [KeyLimit.eventAt_hard_iff, KeyLimit.eventAt_hard_iff] at hnext
    dsimp only at hnext
    omega
  · intro hn key hset i j hij hj hi
    rw [KeyLimit.eventAt_hard_iff, (numLeft_set hset).1] at hi
    omega

section Limits

variable {C A : Type}

/-- What a call that goes by the key `key` does to the limit behind a
    reference: nothing, or one use. A packet goes through only where the use
    does not reach the hard limit. -/
inductive LimitStep (ref : Nat) (key : Option Nat) (limit : KeyLimit) :
    KeyLimit → Option Unit → Prop where
  | unused : LimitStep ref key limit limit none
  | used (hkey : key = some ref) : LimitStep ref key limit limit.update.1 none
  | through (hkey : key = some ref) (h : limit.update.2 ≠ .hardLimit) :
      LimitStep ref key limit limit.update.1 (some ())

theorem limits_useKey (s : Session C A) (keys : SessionKeys C A) (ref : Nat) :
    (s.useKey keys).1.limits ref =
      if ref = keys.ref then (s.limits ref).update.1 else s.limits ref := by
  simp only [Session.useKey, Session.putLimit]
  by_cases href : ref = keys.ref
  · rw [if_pos href, if_pos href, href]
  · rw [if_neg href, if_neg href]

/-- A use of some key, by a call that then fails. -/
theorem limitStep_used (s : Session C A) (keys : SessionKeys C A) (ref : Nat) :
    LimitStep ref (some keys.ref) (s.limits ref) ((s.useKey keys).1.limits ref) none := by
  rw [limits_useKey]
  by_cases href : ref = keys.ref
  · rw [if_pos href]
    exact .used (by rw [href])
  · rw [if_neg href]
    exact .unused

/-- A use of some key, by a call that puts a packet through. -/
theorem limitStep_through {s : Session C A} {keys : SessionKeys C A} (ref : Nat)
    (hlimit : (s.useKey keys).2 ≠ .hardLimit) :
    LimitStep ref (some keys.ref) (s.limits ref) ((s.useKey keys).1.limits ref)
      (if keys.ref = ref then some () else none) := by
  rw [limits_useKey]
  by_cases href : keys.ref = ref
  · subst href
    rw [if_pos rfl, if_pos rfl]
    exact .through rfl hlimit
  · rw [if_neg href, if_neg (fun h => href h.symm)]
    exact .unused

theorem limits_accept (s : Session C A) (inc : Incoming C A) (pkt : Octets) (advance : Bool) :
    (s.accept inc pkt advance).limits = s.limits := by
  unfold Session.accept
  dsimp only
  split <;> rfl

theorem limits_outgoing {s s₁ : Session C A} {stream : Stream C A} {ssrc : UInt32}
    (h : s.outgoing ssrc true = .ok (s₁, stream)) : s₁.limits = s.limits := by
  rcases outgoing_cases h with ⟨old, -, -, hs₁⟩ | ⟨template, dir, -, -, -, hs₁⟩ <;> rw [hs₁] <;> rfl

variable [CipherType C] [AuthType A]

/-- The reference of the key that a call goes by, if it comes to that. -/
def Session.keyOf (s : Session C A) : SessionCall → Option Nat
  | .setStreamRoc _ _ => none
  | .unprotect pkt useMki =>
    match s.incoming pkt with
    | .error _ => none
    | .ok inc =>
      match selectKeys inc.stream pkt useMki with
      | .error _ => none
      | .ok (keys, _) => some keys.ref
  | .protect pkt useMki mkiIndex =>
    match s.outgoing (hdrSsrc pkt) true with
    | .error _ => none
    | .ok (_, stream) => some (stream.keysAt useMki mkiIndex).ref

/-- If a call goes by the key behind a reference, the key has not reported its
    hard limit yet. -/
def Session.KeyAlive (ref : Nat) (s : Session C A) (call : SessionCall) : Prop :=
  s.keyOf call = some ref → (s.limits ref).state ≠ .expired

instance (ref : Nat) (s : Session C A) (call : SessionCall) : Decidable (s.KeyAlive ref call) :=
  inferInstanceAs (Decidable (_ → _))

/-- A step that put a packet through under a key. -/
def useOf (ref : Nat) (x : Lib.Step (Session C A) SessionCall (SessionResult C)) : Option Unit :=
  match x.output with
  | .received (.ok u) => if u.ref = ref then some () else none
  | .sent (.ok p) => if p.ref = ref then some () else none
  | _ => none

/-- The packets that went through under a key in a run. -/
def usesOf (s : Session C A) (ref : Nat) (calls : List SessionCall) : List Unit :=
  Lib.events callStep (useOf ref) s calls

/-- Receiving a packet uses a key at most once. -/
theorem limits_unprotect (s : Session C A) (pkt : Octets) (useMki : Bool) (ref : Nat) :
    LimitStep ref (s.keyOf (.unprotect pkt useMki)) (s.limits ref)
      ((callStep s (.unprotect pkt useMki)).1.limits ref)
      (useOf ref (Lib.stepAt callStep s (.unprotect pkt useMki))) := by
  have hstep := unprotect_cases s pkt useMki
  simp only [Lib.stepAt, callStep, useOf]
  generalize srtpUnprotectMki s pkt useMki = r at hstep ⊢
  rcases r with ⟨s', result⟩
  dsimp only at hstep
  cases hstep with
  | refused stop => exact .unused
  | counted inc keys mkiSize stop hinc hkeys =>
      simp only [Session.keyOf, hinc, hkeys]
      exact limitStep_used s keys ref
  | accepted inc keys mkiSize body hinc hkeys hlimit hopens =>
      rw [limits_accept]
      simp only [Session.keyOf, hinc, hkeys]
      exact limitStep_through ref hlimit

/-- Sending a packet uses a key at most once. -/
theorem limits_protect (s : Session C A) (pkt : Octets) (useMki : Bool) (mkiIndex ref : Nat) :
    LimitStep ref (s.keyOf (.protect pkt useMki mkiIndex)) (s.limits ref)
      ((callStep s (.protect pkt useMki mkiIndex)).1.limits ref)
      (useOf ref (Lib.stepAt callStep s (.protect pkt useMki mkiIndex))) := by
  have hstep := protect_cases s pkt useMki mkiIndex
  simp only [Lib.stepAt, callStep, useOf]
  generalize srtpProtectMki s pkt useMki mkiIndex = r at hstep ⊢
  rcases r with ⟨s', result⟩
  dsimp only at hstep
  cases hstep with
  | refused e => exact .unused
  | counted s₁ stream e hout =>
      simp only [Session.keyOf, hout]
      rw [← limits_outgoing hout]
      exact limitStep_used s₁ _ ref
  | taken s₁ stream stream' est e hout htake =>
      simp only [Session.keyOf, hout]
      rw [← limits_outgoing hout]
      exact limitStep_used s₁ _ ref
  | sent s₁ stream stream' est o hout hlimit htake hseal =>
      simp only [Session.keyOf, hout]
      rw [← limits_outgoing hout]
      exact limitStep_through ref hlimit

/-- Every call uses a key at most once. -/
theorem limitStep_call (s : Session C A) (call : SessionCall) (ref : Nat) :
    LimitStep ref (s.keyOf call) (s.limits ref) ((callStep s call).1.limits ref)
      (useOf ref (Lib.stepAt callStep s call)) := by
  cases call with
  | setStreamRoc ssrc roc =>
      have hlimits : (s.setStreamRoc ssrc roc).1.limits = s.limits := by
        unfold Session.setStreamRoc
        split <;> rfl
      simp only [Lib.stepAt, callStep, useOf, hlimits]
      exact .unused
  | unprotect pkt useMki => exact limits_unprotect s pkt useMki ref
  | protect pkt useMki mkiIndex => exact limits_protect s pkt useMki mkiIndex ref

/-- The packets that have gone through and what is left of the limit add up
    to no more than the limit, and something is left until the key expires. -/
structure WithinLimit (ref n : Nat) (H : List Unit) (s : Session C A) : Prop where
  total : H.length + (s.limits ref).numLeft.toNat ≤ n
  left : (s.limits ref).state ≠ .expired → 1 ≤ (s.limits ref).numLeft.toNat

/-- One call keeps within the limit, if the key was still alive. -/
theorem withinLimit_call {ref n : Nat} (H : List Unit) (s : Session C A) (call : SessionCall)
    (h : WithinLimit ref n H s) (halive : s.KeyAlive ref call) :
    WithinLimit ref n (H ++ (useOf ref (Lib.stepAt callStep s call)).toList)
      (callStep s call).1 := by
  have hstep := limitStep_call s call ref
  have htotal := h.total
  have hlt := (s.limits ref).numLeft.toNat_lt
  have hnum := (s.limits ref).toNat_update
  have hhard := (s.limits ref).update_hard_iff
  have hexpired := (s.limits ref).state_update_expired_iff
  -- A use that does not reach the hard limit leaves something of what was left.
  have hrest : 1 ≤ (s.limits ref).numLeft.toNat → (s.limits ref).update.1.state ≠ .expired →
      1 ≤ (s.limits ref).update.1.numLeft.toNat := by
    intro hleft hne
    have hno : (s.limits ref).update.2 ≠ .hardLimit := fun hh => hne (hexpired.mpr (Or.inr hh))
    rw [Ne, hhard] at hno
    omega
  generalize hevent : useOf ref (Lib.stepAt callStep s call) = event at hstep ⊢
  generalize hlimit : (callStep s call).1.limits ref = limit at hstep
  cases hstep with
  | unused =>
      refine ⟨?_, ?_⟩
      · simpa only [Option.toList_none, List.append_nil, hlimit] using htotal
      · rw [hlimit]
        exact h.left
  | used hkey =>
      have hleft := h.left (halive hkey)
      refine ⟨?_, by rw [hlimit]; exact hrest hleft⟩
      simp only [Option.toList_none, List.append_nil, hlimit]
      omega
  | through hkey hno =>
      have hleft := h.left (halive hkey)
      refine ⟨?_, by rw [hlimit]; exact hrest hleft⟩
      simp only [Option.toList_some, List.length_append, List.length_singleton, hlimit]
      omega

/-- An exhausted key. A limit keeps every use after the hard limit from
    passing exactly as long as there are no more uses than the limit; and in
    every run that leaves the key alone once it has expired, no more packets
    go through under the key than the limit allows. -/
theorem exhausted_key (limit : UInt64) (hlimit : 0x10000 ≤ limit.toNat) :
    (∀ n, StaysExhausted limit n ↔ n ≤ limit.toNat) ∧
      ∀ (s : Session C A) (ref : Nat) (calls : List SessionCall),
        KeyLimit.set limit = .ok (s.limits ref) →
        Lib.Along callStep (Session.KeyAlive ref) s calls →
        (usesOf s ref calls).length ≤ limit.toNat := by
  refine ⟨staysExhausted_iff hlimit, ?_⟩
  intro s ref calls hset halive
  have hstart : WithinLimit ref limit.toNat [] s := by
    refine ⟨?_, ?_⟩
    · rw [List.length_nil, (numLeft_set hset).1, Nat.zero_add]
    · intro hne
      rw [(numLeft_set hset).1]
      omega
  have hend := Lib.history_invariant (WithinLimit ref limit.toNat) withinLimit_call [] s calls
    hstart halive
  exact Nat.le_trans (Nat.le_add_right _ _) hend.total

section Samples

/-- The least limit, and a packet that goes through under it. -/
theorem exhausted_key_least :
    (∀ n, StaysExhausted 0x10000 n ↔ n ≤ 0x10000) ∧
      (usesOf { sampleSession .aesIcm128 with
          limits := fun _ => { numLeft := 0x10000, state := .normal } } 0
        [.protect (samplePacket 0 5 []) false 0]).length ≤ 0x10000 := by
  have h := exhausted_key (C := KeystreamCipher) (A := FixedAuth) 0x10000 (by decide)
  exact ⟨h.1, h.2 _ 0 _ rfl (by decide +kernel)⟩

/-- One use after the hard limit, the least limit no longer holds. -/
theorem exhausted_key_wraps : ¬ ∀ (s : UInt64), 0x10000 ≤ s.toNat → ∀ n, StaysExhausted s n := by
  intro h
  have hnext := (@staysExhausted_iff 0x10000 (by decide) 0x10001).mp
    (h 0x10000 (by decide) 0x10001)
  exact absurd hnext (by decide)

end Samples

end Limits

end Srtp

end CryptoOpal

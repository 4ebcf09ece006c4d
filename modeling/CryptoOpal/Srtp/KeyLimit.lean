import CryptoOpal.Srtp.Status
import Mathlib.Algebra.Group.Nat.Defs
import Mathlib.Logic.Function.Iterate
import Mathlib.Tactic.Common

/-!
# Key Usage Limits

`crypto/kernel/key.c`: a counter of the packets a key may still protect, and
a state that records how far it has run down.

The counter is an unsigned 64-bit number that each use decrements, and the
hard limit is reported by the use that brings it to zero
(`KeyLimit.update_hard_iff`). Nothing looks at the state before
decrementing, so the use after that one starts from zero and wraps around.

## Main definitions

* `KeyLimit`, `KeyState`, `KeyEvent`: The counter and what it reports.
* `KeyLimit.set`, `KeyLimit.update`: Setting a limit and using a key.

* `KeyLimit.uses`, `KeyLimit.eventAt`: Using a key time after time.

## Theorems

* `KeyLimit.toNat_update`: A use decrements the counter, modulo `2 ^ 64`.
* `KeyLimit.update_hard_iff`: Only the last use reports the hard limit.
* `KeyLimit.eventAt_hard_iff`: Which of many uses report it.
* `KeyLimit.update_ne`: A use never leaves the counter as it was.
-/

namespace CryptoOpal

namespace Srtp

/-- `srtp_key_event_t`. -/
inductive KeyEvent where
  | normal
  | softLimit
  | hardLimit
  deriving DecidableEq

/-- `srtp_key_state_t`. -/
inductive KeyState where
  | normal
  | pastSoftLimit
  | expired
  deriving DecidableEq

/-- `srtp_key_limit_ctx_t`. -/
structure KeyLimit where
  numLeft : UInt64
  state : KeyState
  deriving DecidableEq

/-- `soft_limit`. -/
def softLimit : UInt64 := 0x10000

namespace KeyLimit

/-- `srtp_key_limit_set`. -/
def set (s : UInt64) : Except SrtpErrStatus KeyLimit :=
  if s < softLimit then .error .badParam
  else .ok { numLeft := s, state := .normal }

/-- `srtp_key_limit_update`. -/
def update (key : KeyLimit) : KeyLimit × KeyEvent :=
  let numLeft := key.numLeft - 1
  if softLimit ≤ numLeft then
    -- we're above the soft limit
    ({ numLeft := numLeft, state := key.state }, .normal)
  else if numLeft < 1 then
    -- we just hit the hard limit
    ({ numLeft := numLeft, state := .expired }, .hardLimit)
  else if key.state = .normal then
    -- we just passed the soft limit, so change the state
    ({ numLeft := numLeft, state := .pastSoftLimit }, .softLimit)
  else
    ({ numLeft := numLeft, state := key.state }, .softLimit)

theorem numLeft_update (key : KeyLimit) : key.update.1.numLeft = key.numLeft - 1 := by
  simp only [update]
  split
  · rfl
  split
  · rfl
  split <;> rfl

/-- A use decrements the counter, in 64 bits. -/
theorem toNat_update (key : KeyLimit) :
    key.update.1.numLeft.toNat = (2 ^ 64 - 1 + key.numLeft.toNat) % 2 ^ 64 := by
  rw [numLeft_update, UInt64.toNat_sub]
  rfl

/-- The hard limit is reported by the use that brings the counter to zero, and
    by no other. -/
theorem update_hard_iff (key : KeyLimit) :
    key.update.2 = .hardLimit ↔ key.numLeft.toNat = 1 := by
  have hlt := key.numLeft.toNat_lt
  have hnat := toNat_update key
  rw [numLeft_update] at hnat
  have hsoft : softLimit.toNat = 0x10000 := rfl
  simp only [update]
  by_cases hn : softLimit ≤ key.numLeft - 1
  · rw [if_pos hn]
    rw [UInt64.le_iff_toNat_le] at hn
    simp only [reduceCtorEq, false_iff]
    omega
  rw [if_neg hn]
  by_cases hz : key.numLeft - 1 < 1
  · rw [if_pos hz]
    rw [UInt64.lt_iff_toNat_lt, UInt64.toNat_one] at hz
    simp only [true_iff]
    omega
  rw [if_neg hz]
  rw [UInt64.lt_iff_toNat_lt, UInt64.toNat_one] at hz
  split
  · simp only [reduceCtorEq, false_iff]
    omega
  · simp only [reduceCtorEq, false_iff]
    omega

/-- The limit after `n` uses. -/
def uses (key : KeyLimit) (n : Nat) : KeyLimit := (fun k => k.update.1)^[n] key

/-- The event that the `n`-th use reports, counted from zero. -/
def eventAt (key : KeyLimit) (n : Nat) : KeyEvent := (key.uses n).update.2

/-- Counting down, modulo `2 ^ 64`. -/
theorem toNat_uses (key : KeyLimit) (n : Nat) :
    (key.uses n).numLeft.toNat = ((2 ^ 64 - 1) * n + key.numLeft.toNat) % 2 ^ 64 := by
  induction n with
  | zero =>
      have hlt := key.numLeft.toNat_lt
      rw [uses, Function.iterate_zero_apply]
      omega
  | succ n ih =>
      rw [uses, Function.iterate_succ_apply', ← uses, toNat_update, ih]
      omega

/-- Which uses report the hard limit: the one that uses up what was left, and
    then one in every `2 ^ 64`. -/
theorem eventAt_hard_iff (key : KeyLimit) (n : Nat) :
    key.eventAt n = .hardLimit ↔ (n + 1) % 2 ^ 64 = key.numLeft.toNat := by
  have hlt := key.numLeft.toNat_lt
  rw [eventAt, update_hard_iff, toNat_uses]
  omega

/-- The key is expired after a use exactly when it was before or the use hit
    the hard limit. -/
theorem state_update_expired_iff (key : KeyLimit) :
    key.update.1.state = .expired ↔ key.state = .expired ∨ key.update.2 = .hardLimit := by
  simp only [update]
  split
  · simp only [reduceCtorEq, or_false]
  split
  · simp only [or_true]
  split
  · rename_i hnormal
    simp only [hnormal, reduceCtorEq, or_false]
  · simp only [reduceCtorEq, or_false]

/-- A use never leaves the counter as it was. -/
theorem update_ne (key : KeyLimit) : key.update.1 ≠ key := by
  intro h
  have hlt := key.numLeft.toNat_lt
  have hnat := toNat_update key
  rw [h] at hnat
  omega

end KeyLimit

end Srtp

end CryptoOpal

/-!
# Status Codes

`srtp_err_status_t`, and how a modelled call can end.

A call of the library returns a status, and `ok` is one of them. A model of
such a call instead returns a value when the status is `ok` and stops
otherwise. It can stop for a second reason: the C code may compute a location
or a length that does not lie inside the packet it was given. C gives no
meaning to what follows, so the model has no result there either, and ends
with `fault`. A call that ends with a status has done no such thing.

The stages of a packet function are checks and calls in sequence, each of
which may end it. They are written with `do`, and `bind_eq_ok` and
`bind_eq_error` take such a sequence apart again.

## Main definitions

* `SrtpErrStatus`: The status codes.
* `Stop`: How a call ends when it does not end with `ok`.
* `refuseIf`: A check of the code.
* `orStop`: A call whose status is handed on, or replaced by another.

## Theorems

* `bind_eq_ok`, `bind_eq_error`: The outcome of a sequence.
* `refuseIf_eq_ok`, `refuseIf_eq_error`: The outcome of a check.
-/

namespace CryptoOpal

namespace Srtp

/-- `srtp_err_status_t`. -/
inductive SrtpErrStatus where
  | ok
  | fail
  | badParam
  | allocFail
  | deallocFail
  | initFail
  | terminus
  | authFail
  | cipherFail
  | replayFail
  | replayOld
  | algoFail
  | noSuchOp
  | noCtx
  | cantCheck
  | keyExpired
  | socketErr
  | signalErr
  | nonceBad
  | readFail
  | writeFail
  | parseErr
  | encodeErr
  | semaphoreErr
  | pfkeyErr
  | badMki
  | pktIdxOld
  | pktIdxAdv
  | dealHandleFail
  deriving DecidableEq

/-- How a call ends when it does not end with `ok`: with another status, or
    at a location or length outside the packet. -/
inductive Stop where
  | status (e : SrtpErrStatus)
  | fault
  deriving DecidableEq

/-- A check of the code: end with `stop` if the condition holds. -/
def refuseIf (c : Prop) [Decidable c] (stop : Stop) : Except Stop Unit :=
  if c then .error stop else .ok ()

/-- The result of a call, or the end that its caller makes of any failure. -/
def orStop {ε α : Type} (stop : ε → Stop) : Except ε α → Except Stop α
  | .ok a => .ok a
  | .error e => .error (stop e)

section Sequences

variable {ε α β : Type}

theorem bind_eq_ok {x : Except ε α} {f : α → Except ε β} {b : β} :
    x >>= f = .ok b ↔ ∃ a, x = .ok a ∧ f a = .ok b := by
  cases x with
  | error e =>
      simp only [bind, Except.bind, reduceCtorEq, false_and, exists_false]
  | ok a =>
      simp only [bind, Except.bind, Except.ok.injEq, exists_eq_left']

theorem bind_eq_error {x : Except ε α} {f : α → Except ε β} {e : ε} :
    x >>= f = .error e ↔ x = .error e ∨ ∃ a, x = .ok a ∧ f a = .error e := by
  cases x with
  | error e' =>
      simp only [bind, Except.bind, Except.error.injEq, reduceCtorEq, false_and, exists_false,
        or_false]
  | ok a =>
      simp only [bind, Except.bind, reduceCtorEq, Except.ok.injEq, exists_eq_left', false_or]

theorem map_eq_ok {x : Except ε α} {f : α → β} {b : β} :
    x.map f = .ok b ↔ ∃ a, x = .ok a ∧ f a = b := by
  cases x with
  | error e => simp only [Except.map, reduceCtorEq, false_and, exists_false]
  | ok a => simp only [Except.map, Except.ok.injEq, exists_eq_left']

theorem toOption_eq_some {x : Except ε α} {a : α} : x.toOption = some a ↔ x = .ok a := by
  cases x with
  | error e => simp only [Except.toOption, reduceCtorEq]
  | ok b => simp only [Except.toOption, Option.some.injEq, Except.ok.injEq]

theorem refuseIf_eq_ok {c : Prop} [Decidable c] {stop : Stop} {u : Unit} :
    refuseIf c stop = .ok u ↔ ¬ c := by
  rw [refuseIf]
  split <;> simp_all only [reduceCtorEq, not_true_eq_false, not_false_eq_true]

theorem refuseIf_eq_error {c : Prop} [Decidable c] {stop stop' : Stop} :
    refuseIf c stop = .error stop' ↔ c ∧ stop = stop' := by
  rw [refuseIf]
  split <;> simp_all only [Except.error.injEq, true_and, reduceCtorEq, false_and]

theorem orStop_eq_ok {stop : ε → Stop} {x : Except ε α} {a : α} :
    orStop stop x = .ok a ↔ x = .ok a := by
  cases x <;> simp only [orStop, reduceCtorEq, Except.ok.injEq]

end Sequences

end Srtp

end CryptoOpal

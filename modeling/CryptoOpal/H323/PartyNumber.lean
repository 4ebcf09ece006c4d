import CryptoOpal.H323.Q931RoundTrip
import Mathlib.Data.List.TakeWhile

/-!
# Party Numbers of Q.931 Messages

A party number has one to three octets before its digits. Octet 3 is the plan
and the type of the number, octet 3a the presentation and the screening, and
octet 3b the reason for a redirection. The top bit of octet 3 and of octet 3a
says that the next one of them is not there.

When all three are there, the setter puts that bit in octet 3 all the same. The
getter takes octets 3a and 3b for digits then. And when octet 3a is not there,
the getter leaves the variable for the reason as it was, where octet 3b alone
not being there puts the default in it.

All other numbers come back.

## Main definitions

* `Q931.getNumberIE`: `GetNumberIE`.
* `Variables`, `Defaults`: What a getter is given.
* `PartyNumber`: A number, as a setter is given it.
* `PartyNumber.ReadsBack`: What the getter finds is what the setter was given.
* `PartyNumber.Understood`: The octets that the getter understands.

## Theorems

* `getNumberIE_absent`, `getNumberIE_shown`, `getNumberIE_redirected`: The three layouts.
* `PartyNumber.readsBack_iff`: Which numbers come back.
-/

namespace CryptoOpal

namespace H323

open Lib (Octets)

/-- The variables that the pointers of a getter point to, `none` for a null pointer. -/
structure Variables where
  plan : Option Nat
  type : Option Nat
  presentation : Option Nat
  screening : Option Nat
  reason : Option Nat
  deriving DecidableEq

/-- The defaults of a getter. -/
structure Defaults where
  presentation : Nat
  screening : Nat
  reason : Nat
  deriving DecidableEq

/-- What a getter leaves behind: what it returns, the number, and the variables. -/
structure NumberRead where
  found : Bool
  number : Octets
  outs : Variables
  deriving DecidableEq

/-- `if (pointer != NULL) *pointer = value`. -/
def store (pointer : Option Nat) (value : Nat) : Option Nat := pointer.map fun _ => value

namespace Q931

/-- `GetIE`. -/
def getIE (m : Q931) (ie idx : Nat) : Octets := (m.informationElements ie).getD idx []

/-- `plan` and `type`, in `GetNumberIE`. -/
def storePlan (octet : UInt8) (v : Variables) : Variables :=
  { v with
    plan := store v.plan (octet.toNat &&& 15)
    type := store v.type ((octet.toNat >>> 4) &&& 7) }

/-- The end of `GetNumberIE`. A text ends before its first zero. -/
def readDigits (digits : Octets) (v : Variables) : NumberRead :=
  let number := digits.takeWhile (· ≠ 0)
  ⟨decide (number ≠ []), number, v⟩

/-- `GetNumberIE`. -/
def getNumberIE (bytes : Octets) (v : Variables) (d : Defaults) : NumberRead :=
  match bytes with
  | [] => ⟨false, [], v⟩
  | octet3 :: rest =>
    let v := storePlan octet3 v
    if octet3 &&& 0x80 ≠ 0 then
      readDigits rest { v with
        presentation := store v.presentation d.presentation
        screening := store v.screening d.screening }
    else
      match rest with
      | [] => ⟨false, [], v⟩
      | octet3a :: rest =>
        let v := { v with
          presentation := store v.presentation ((octet3a.toNat >>> 5) &&& 3)
          screening := store v.screening (octet3a.toNat &&& 3) }
        if octet3a &&& 0x80 ≠ 0 then
          readDigits rest { v with reason := store v.reason d.reason }
        else
          match rest with
          | [] => ⟨false, [], v⟩
          | octet3b :: rest =>
            readDigits rest { v with reason := store v.reason (octet3b.toNat &&& 15) }

section Getters

variable (m : Q931) (plan type presentation screening reason : Option Nat)
  (defPresentation defScreening defReason : Nat)

/-- `GetCallingPartyNumber`. -/
def getCallingPartyNumber : NumberRead :=
  getNumberIE (m.getIE callingPartyNumberIE 0) ⟨plan, type, presentation, screening, none⟩
    ⟨defPresentation, defScreening, 0⟩

/-- `GetCalledPartyNumber`. -/
def getCalledPartyNumber : NumberRead :=
  getNumberIE (m.getIE calledPartyNumberIE 0) ⟨plan, type, none, none, none⟩ ⟨0, 0, 0⟩

/-- `GetRedirectingNumber`. -/
def getRedirectingNumber : NumberRead :=
  getNumberIE (m.getIE redirectingNumberIE 0) ⟨plan, type, presentation, screening, reason⟩
    ⟨defPresentation, defScreening, defReason⟩

/-- `GetConnectedNumber`. -/
def getConnectedNumber : NumberRead :=
  getNumberIE (m.getIE connectedNumberIE 0) ⟨plan, type, presentation, screening, reason⟩
    ⟨defPresentation, defScreening, defReason⟩

end Getters

end Q931

/-- Octet 3a, and octet 3b if it is there. -/
structure Shown where
  presentation : Fin 4
  screening : Fin 4
  reason : Option (Fin 16)
  deriving DecidableEq

/-- Whose number it is, with the octets that its setter can write. -/
inductive PartyRole where
  | calling (shown : Option (Fin 4 × Fin 4))
  | called
  | redirecting (shown : Option Shown)
  | connected (shown : Option Shown)
  deriving DecidableEq

/-- A number, as a setter is given it. -/
structure PartyNumber where
  number : Octets
  plan : Fin 16
  type : Fin 8
  party : PartyRole
  nonempty : number ≠ []
  text : ∀ digit ∈ number, digit ≠ 0

namespace PartyRole

/-- The octets that are written. -/
def shown : PartyRole → Option Shown
  | calling shown => shown.map fun p => ⟨p.1, p.2, none⟩
  | called => none
  | redirecting shown | connected shown => shown

/-- The pointers that the getter has. -/
def pointers (v : Variables) : PartyRole → Variables
  | calling _ => { v with reason := none }
  | called => { v with presentation := none, screening := none, reason := none }
  | redirecting _ | connected _ => v

/-- The defaults that the getter has. -/
def defaults (d : Defaults) : PartyRole → Defaults
  | calling _ => { d with reason := 0 }
  | called => ⟨0, 0, 0⟩
  | redirecting _ | connected _ => d

end PartyRole

namespace PartyNumber

variable (p : PartyNumber)

/-- The call of the setter. -/
def set (m : Q931) : Q931 :=
  let presentation : Int := p.party.shown.elim (-1) fun s => s.presentation.val
  let screening : Int := p.party.shown.elim (-1) fun s => s.screening.val
  let reason : Int := (p.party.shown.bind (·.reason)).elim (-1) fun r => r.val
  match p.party with
  | .calling _ => m.setCallingPartyNumber p.number p.plan p.type presentation screening
  | .called => m.setCalledPartyNumber p.number p.plan p.type
  | .redirecting _ => m.setRedirectingNumber p.number p.plan p.type presentation screening reason
  | .connected _ => m.setConnectedNumber p.number p.plan p.type presentation screening reason

/-- The call of the matching getter. -/
def get (m : Q931) (v : Variables) (d : Defaults) : NumberRead :=
  match p.party with
  | .calling _ =>
    m.getCallingPartyNumber v.plan v.type v.presentation v.screening d.presentation d.screening
  | .called => m.getCalledPartyNumber v.plan v.type
  | .redirecting _ =>
    m.getRedirectingNumber v.plan v.type v.presentation v.screening v.reason d.presentation
      d.screening d.reason
  | .connected _ =>
    m.getConnectedNumber v.plan v.type v.presentation v.screening v.reason d.presentation
      d.screening d.reason

/-- The getter finds what the setter was given, and the defaults for what is not there. -/
def ReadsBack (m : Q931) (v : Variables) (d : Defaults) : Prop :=
  let pointers := p.party.pointers v
  p.get (p.set m) v d =
    { found := true
      number := p.number
      outs :=
        { plan := store pointers.plan p.plan
          type := store pointers.type p.type
          presentation := store pointers.presentation
            (p.party.shown.elim d.presentation fun s => s.presentation.val)
          screening := store pointers.screening
            (p.party.shown.elim d.screening fun s => s.screening.val)
          reason := store pointers.reason
            ((p.party.shown.bind (·.reason)).elim d.reason fun r => r.val) } }

instance (m : Q931) (v : Variables) (d : Defaults) : Decidable (p.ReadsBack m v d) :=
  inferInstanceAs (Decidable (_ = _))

/-- Octet 3b is not written. Where octet 3a is not either, there is no variable for the reason, or
it has the default already. -/
def Understood (v : Variables) (d : Defaults) : Prop :=
  match p.party.shown with
  | none => ∀ reason ∈ (p.party.pointers v).reason, reason = d.reason
  | some shown => shown.reason = none

section Layouts

open Q931

variable {number : Octets} {v : Variables} {d : Defaults}

/-- What is read back from octets 3, 3a and 3b, for all of their values. -/
theorem octets3_read :
    (∀ (plan : Fin 16) (type : Fin 8), (numberOctet 0x80 type plan &&& 0x80 ≠ 0 ∧
        (numberOctet 0x80 type plan).toNat &&& 15 = plan ∧
        ((numberOctet 0x80 type plan).toNat >>> 4) &&& 7 = type) ∧
      numberOctet 0 type plan &&& 0x80 = 0 ∧ (numberOctet 0 type plan).toNat &&& 15 = plan ∧
        ((numberOctet 0 type plan).toNat >>> 4) &&& 7 = type) ∧
      (∀ presentation screening : Fin 4,
        let octet := UInt8.ofNat (0x80 ||| (((presentation.val : Int) % 4).toNat <<< 5) |||
          ((screening.val : Int) % 4).toNat)
        octet &&& 0x80 ≠ 0 ∧ octet ≠ 0 ∧ (octet.toNat >>> 5) &&& 3 = presentation ∧
          octet.toNat &&& 3 = screening) ∧
      ∀ reason : Fin 16, UInt8.ofNat (0x80 ||| ((reason.val : Int) % 16).toNat) ≠ 0 := by
  decide +kernel

/-- The octets of a number without octets 3a and 3b. -/
theorem octet3_last (plan : Fin 16) (type : Fin 8) :
    numberOctet 0x80 type plan &&& 0x80 ≠ 0 ∧
      (numberOctet 0x80 type plan).toNat &&& 15 = plan ∧
      ((numberOctet 0x80 type plan).toNat >>> 4) &&& 7 = type :=
  (octets3_read.1 plan type).1

theorem octet3_followed (plan : Fin 16) (type : Fin 8) :
    numberOctet 0 type plan &&& 0x80 = 0 ∧
      (numberOctet 0 type plan).toNat &&& 15 = plan ∧
      ((numberOctet 0 type plan).toNat >>> 4) &&& 7 = type :=
  (octets3_read.1 plan type).2

theorem octet3a_last (presentation screening : Fin 4) :
    let octet := UInt8.ofNat (0x80 ||| (((presentation.val : Int) % 4).toNat <<< 5) |||
      ((screening.val : Int) % 4).toNat)
    octet &&& 0x80 ≠ 0 ∧ octet ≠ 0 ∧ (octet.toNat >>> 5) &&& 3 = presentation ∧
      octet.toNat &&& 3 = screening :=
  octets3_read.2.1 presentation screening

theorem octet3b_text (reason : Fin 16) :
    UInt8.ofNat (0x80 ||| ((reason.val : Int) % 16).toNat) ≠ 0 :=
  octets3_read.2.2 reason

theorem not_absent (i : Nat) : (i : Int) ≠ -1 := by omega

/-- Digits are read up to the end. -/
theorem readDigits_text (htext : ∀ digit ∈ number, digit ≠ 0) (hne : number ≠ []) :
    readDigits number v = ⟨true, number, v⟩ := by
  have hall : number.takeWhile (· ≠ 0) = number :=
    by
    simpa [List.takeWhile_eq_self_iff] using htext
  unfold readDigits
  simp only [hall, decide_eq_true hne]

/-- Octet 3 alone. The variable for the reason is left as it was. -/
theorem getNumberIE_absent (plan : Fin 16) (type : Fin 8) (reason : Int)
    (htext : ∀ digit ∈ number, digit ≠ 0) (hne : number ≠ []) :
    getNumberIE (setNumberIE number plan type (-1) (-1) reason) v d =
      ⟨true, number, ⟨store v.plan plan, store v.type type, store v.presentation d.presentation,
        store v.screening d.screening, v.reason⟩⟩ := by
  rcases octet3_last plan type with ⟨hbit, hplan, htype⟩
  unfold setNumberIE
  rw [if_pos (Or.inl rfl)]
  unfold getNumberIE
  simp only [if_pos hbit, readDigits_text htext hne, storePlan, hplan, htype]

/-- Octets 3 and 3a. -/
theorem getNumberIE_shown (plan : Fin 16) (type : Fin 8) (presentation screening : Fin 4)
    (htext : ∀ digit ∈ number, digit ≠ 0) (hne : number ≠ []) :
    getNumberIE (setNumberIE number plan type presentation.val screening.val (-1)) v d =
      ⟨true, number, ⟨store v.plan plan, store v.type type, store v.presentation presentation,
        store v.screening screening, store v.reason d.reason⟩⟩ := by
  rcases octet3_followed plan type with ⟨hbit, hplan, htype⟩
  rcases octet3a_last presentation screening with ⟨hlast, -, hpresentation, hscreening⟩
  unfold setNumberIE
  rw [if_neg (not_or.2 ⟨not_absent _, not_absent _⟩), if_pos rfl]
  unfold getNumberIE
  simp only [hbit, ne_eq, not_true_eq_false, if_false, if_pos hlast, readDigits_text htext hne,
    storePlan, hplan, htype, hpresentation, hscreening]

/-- All three octets. Two of them are taken for digits. -/
theorem getNumberIE_redirected (plan : Fin 16) (type : Fin 8) (presentation screening : Fin 4)
    (reason : Fin 16) (htext : ∀ digit ∈ number, digit ≠ 0) :
    (getNumberIE (setNumberIE number plan type presentation.val screening.val reason.val)
      v d).number.length = number.length + 2 := by
  rcases octet3_last plan type with ⟨hbit, -, -⟩
  rcases octet3a_last presentation screening with ⟨-, hne3a, -, -⟩
  unfold setNumberIE
  rw [if_neg (not_or.2 ⟨not_absent _, not_absent _⟩), if_neg (not_absent _)]
  unfold getNumberIE
  simp only [if_pos hbit]
  rw [readDigits_text]
  · rfl
  · intro digit h
    rcases List.mem_cons.1 h with rfl | h
    · exact hne3a
    · rcases List.mem_cons.1 h with rfl | h
      · exact octet3b_text reason
      · exact htext digit h
  · exact List.cons_ne_nil _ _

end Layouts

section ReadingBack

open Q931

variable (m : Q931) (v : Variables) (d : Defaults)

/-- The getter looks at the element of the setter. -/
theorem getNumberIE_setIE (ie : Nat) (userData : Octets) :
    getNumberIE ((m.setIE ie userData false).getIE ie 0) v d = getNumberIE userData v d := by
  unfold getIE
  rw [setIE_elements, Function.update_self]
  rfl

/-- The element that is written. -/
theorem get_set (p : PartyNumber) : p.get (p.set m) v d =
    getNumberIE
      (setNumberIE p.number p.plan p.type (p.party.shown.elim (-1) fun s => s.presentation.val)
        (p.party.shown.elim (-1) fun s => s.screening.val)
        ((p.party.shown.bind (·.reason)).elim (-1) fun r => r.val))
      (p.party.pointers v) (p.party.defaults d) := by
  rcases p with ⟨number, plan, type, party, hne, htext⟩
  cases party with
  | calling shown =>
      simp only [get, set, setCallingPartyNumber, getCallingPartyNumber, getNumberIE_setIE]
      cases shown with
      | none => rfl
      | some s => rfl
  | called =>
      simp only [get, set, setCalledPartyNumber, getCalledPartyNumber, getNumberIE_setIE]
      rfl
  | redirecting shown =>
      simp only [get, set, setRedirectingNumber, getRedirectingNumber, getNumberIE_setIE]
      rfl
  | connected shown =>
      simp only [get, set, setConnectedNumber, getConnectedNumber, getNumberIE_setIE]
      rfl

/-- The getters without defaults of their own have no pointers either. -/
theorem store_defaults (party : PartyRole) :
    store (party.pointers v).presentation (party.defaults d).presentation =
        store (party.pointers v).presentation d.presentation ∧
      store (party.pointers v).screening (party.defaults d).screening =
        store (party.pointers v).screening d.screening ∧
      store (party.pointers v).reason (party.defaults d).reason =
        store (party.pointers v).reason d.reason := by
  cases party with
  | calling shown => exact ⟨rfl, rfl, rfl⟩
  | called => exact ⟨rfl, rfl, rfl⟩
  | redirecting shown => exact ⟨rfl, rfl, rfl⟩
  | connected shown => exact ⟨rfl, rfl, rfl⟩

/-- A variable that is left as it was has the value already. -/
theorem eq_store_iff (pointer : Option Nat) (value : Nat) :
    pointer = store pointer value ↔ ∀ x ∈ pointer, x = value := by
  cases pointer with
  | none => exact ⟨fun _ x hx => (nomatch hx), fun _ => rfl⟩
  | some x =>
      constructor
      · intro h y hy
        rw [← Option.mem_some_iff.1 hy]
        exact Option.some.inj h
      · intro h
        exact congrArg some (h x rfl)

/-- The numbers that come back. -/
theorem readsBack_iff (p : PartyNumber) : p.ReadsBack m v d ↔ p.Understood v d := by
  rcases store_defaults v d p.party with ⟨hpresentation, hscreening, hreason⟩
  unfold ReadsBack Understood
  rw [get_set]
  cases hshown : p.party.shown with
  | none =>
      simp only [Option.elim_none, Option.bind_none]
      rw [getNumberIE_absent p.plan p.type _ p.text p.nonempty, hpresentation, hscreening,
        ← eq_store_iff]
      simp only [NumberRead.mk.injEq, Variables.mk.injEq, true_and]
  | some s =>
      cases hr : s.reason with
      | none =>
          simp only [Option.elim_some, Option.bind_some, hr, Option.elim_none]
          rw [getNumberIE_shown p.plan p.type _ _ p.text p.nonempty, hreason]
          exact iff_of_true rfl trivial
      | some r =>
          simp only [Option.elim_some, Option.bind_some, hr]
          refine iff_of_false (fun h => ?_) (Option.some_ne_none r)
          -- The number that is read is longer.
          have hlen := getNumberIE_redirected p.plan p.type s.presentation s.screening r p.text
            (v := p.party.pointers v) (d := p.party.defaults d)
          rw [h] at hlen
          exact absurd hlen (by simp)

end ReadingBack

/-- The number 12, redirected, with all octets. -/
def redirectedTwelve : PartyNumber where
  number := [0x31, 0x32]
  plan := ⟨1, by decide⟩
  type := ⟨0, by decide⟩
  party := .redirecting (some ⟨⟨0, by decide⟩, ⟨0, by decide⟩, some ⟨2, by decide⟩⟩)
  nonempty := List.cons_ne_nil _ _
  text := by simp

/-- Octets 3a and 3b are read as digits. -/
theorem redirectedTwelve_lost :
    ¬redirectedTwelve.ReadsBack Q931.new ⟨none, none, none, none, none⟩ ⟨0, 0, 0⟩ := by
  decide

end PartyNumber

end H323

end CryptoOpal

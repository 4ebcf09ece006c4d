import CryptoOpal.Lib.Duplex

/-!
# Capability Exchange of H.245

Each side sends its capabilities in a set with an 8-bit number, and goes by the
number alone when an answer comes. A set with the number of the one before is
ignored without an answer.

A number can be used again: Stop gives it back, and after 256 sets the numbers
start over. While the answer to an older set with the number of a new one may
still come, that answer confirms the new set, which the other side may have
ignored or may reject. So long as no set is sent under a number that is in
flight, in a set or in its acknowledgement, a confirmed set is the one that was
accepted last (`confirmed_run`).

## Main definitions

* `Endpoint`: One side, with the last set that it sent and accepted.
* `capabilityParty`: The calls and the handlers.
* `NumberFree`: No set and no ack in flight has the number of the new set.
* `Confirming`: The invariant of one direction.

## Theorems

* `confirming_receive`: The step of the receiver.
* `confirming_start`: The step of the sender: a new set.
* `confirming_answer`: The step of the sender: an answer.
* `confirmed_run`: A confirmed set was accepted.
-/

namespace CryptoOpal

namespace H323

open Lib (Party Link Side Move Along final)

/-- `States`. -/
inductive ExchangeState where
  | idle
  | inProgress
  | confirmed
  deriving DecidableEq

/-- The messages, with the number that each of them carries. -/
inductive CapabilityPdu (κ : Type) where
  | terminalCapabilitySet (sequenceNumber : Nat) (capabilities : Option κ)
  | terminalCapabilitySetAck (sequenceNumber : Nat)
  | terminalCapabilitySetReject (sequenceNumber : Nat)
  deriving DecidableEq

/-- `H245NegTerminalCapabilitySet`. The last two fields are not in the source:
they say which set was sent last, and which set of the other side was accepted
last. -/
structure Endpoint (κ : Type) where
  inSequenceNumber : Nat
  outSequenceNumber : Nat
  state : ExchangeState
  receivedCapabilities : Bool
  protocolError : Option String
  lastSent : Option (Option κ)
  lastAccepted : Option (Option κ)
  deriving DecidableEq

/-- What is called on this side. The sets are any that `OnSendCapabilitySet`
fills in. -/
inductive CapabilityCall (κ : Type) where
  | start (renegotiate empty : Bool) (capabilities : κ)
  | stop (dec : Bool)
  deriving DecidableEq

variable {κ : Type}

namespace Endpoint

/-- The constructor. The number for the sets that come in is `UINT_MAX`, which
no set has. -/
def create : Endpoint κ where
  inSequenceNumber := 4294967295
  outSequenceNumber := 0
  state := .idle
  receivedCapabilities := false
  protocolError := none
  lastSent := none
  lastAccepted := none

variable (e : Endpoint κ)

/-- Whether `Start` goes on to send a set. -/
def Sends (renegotiate : Bool) : Prop :=
  e.state ≠ .inProgress ∧ ¬ (renegotiate = false ∧ e.state = .confirmed)

instance (renegotiate : Bool) : Decidable (e.Sends renegotiate) :=
  inferInstanceAs (Decidable (_ ∧ _))

/-- The number of the next set. -/
def nextNumber : Nat := (e.outSequenceNumber + 1) % 256

/-- `Start`. -/
def start (renegotiate empty : Bool) (capabilities : κ) :
    Endpoint κ × List (CapabilityPdu κ) :=
  if e.Sends renegotiate then
    let sent := if empty then none else some capabilities
    ({ e with outSequenceNumber := e.nextNumber, state := .inProgress, lastSent := some sent },
      [.terminalCapabilitySet e.nextNumber sent])
  else
    (e, [])

/-- `Stop`. -/
def stop (dec : Bool) : Endpoint κ :=
  if e.state = .idle then
    e
  else
    { e with
      state := .idle
      receivedCapabilities := false
      outSequenceNumber :=
        if !dec then e.outSequenceNumber
        else if e.outSequenceNumber = 0 then 255
        else e.outSequenceNumber - 1 }

/-- `HandleIncoming`, with the verdict of `OnReceivedCapabilitySet`. -/
def handleIncoming (accepted : Bool) (sequenceNumber : Nat) (capabilities : Option κ) :
    Endpoint κ × List (CapabilityPdu κ) :=
  if sequenceNumber = e.inSequenceNumber then
    (e, [])
  else if accepted then
    ({ e with
        inSequenceNumber := sequenceNumber
        receivedCapabilities := true
        lastAccepted := some capabilities },
      [.terminalCapabilitySetAck sequenceNumber])
  else
    ({ e with inSequenceNumber := sequenceNumber },
      [.terminalCapabilitySetReject sequenceNumber])

/-- `HandleAck`. -/
def handleAck (sequenceNumber : Nat) : Endpoint κ :=
  if e.state ≠ .inProgress then
    e
  else if sequenceNumber ≠ e.outSequenceNumber then
    e
  else
    { e with state := .confirmed }

/-- `HandleReject`. -/
def handleReject (sequenceNumber : Nat) : Endpoint κ :=
  if e.state ≠ .inProgress then
    e
  else if sequenceNumber ≠ e.outSequenceNumber then
    e
  else
    { e with state := .idle, protocolError := some "Rejected" }

end Endpoint

/-- One side of the exchange. What comes beside a message is the verdict on a
capability set. -/
def capabilityParty : Party (Endpoint κ) (CapabilityCall κ) Bool (CapabilityPdu κ) where
  call e
    | .start renegotiate empty capabilities => e.start renegotiate empty capabilities
    | .stop dec => (e.stop dec, [])
  receive e accepted
    | .terminalCapabilitySet sequenceNumber capabilities =>
      e.handleIncoming accepted sequenceNumber capabilities
    | .terminalCapabilitySetAck sequenceNumber => (e.handleAck sequenceNumber, [])
    | .terminalCapabilitySetReject sequenceNumber => (e.handleReject sequenceNumber, [])

/-- Two sides before anything was sent. -/
def capabilityLink : Link (Endpoint κ) (CapabilityPdu κ) where
  left := Endpoint.create
  right := Endpoint.create
  toLeft := []
  toRight := []

/-- The capability sets among the messages, with their numbers. -/
def setsIn (messages : List (CapabilityPdu κ)) : List (Nat × Option κ) :=
  messages.filterMap fun
    | .terminalCapabilitySet sequenceNumber capabilities => some (sequenceNumber, capabilities)
    | _ => none

/-- The numbers of the acknowledgements among the messages. -/
def acksIn (messages : List (CapabilityPdu κ)) : List Nat :=
  messages.filterMap fun
    | .terminalCapabilitySetAck sequenceNumber => some sequenceNumber
    | _ => none

/-- A set that the left is about to send has a number that is not in flight. -/
def NumberFree (s : Link (Endpoint κ) (CapabilityPdu κ)) :
    Move (CapabilityCall κ) Bool → Prop
  | .call (.start renegotiate _ _) => s.left.Sends renegotiate →
      s.left.nextNumber ∉ (setsIn s.toRight).map Prod.fst ∧
        s.left.nextNumber ∉ acksIn s.toLeft
  | _ => True

instance (s : Link (Endpoint κ) (CapabilityPdu κ)) (m : Move (CapabilityCall κ) Bool) :
    Decidable (NumberFree s m) :=
  match m with
  | .call (.start _ _ _) => inferInstanceAs (Decidable (_ → _))
  | .call (.stop _) => inferInstanceAs (Decidable True)
  | .deliver _ => inferInstanceAs (Decidable True)

/-- A side is right about being confirmed: the other side accepted the set that
was sent last. -/
def Confirms (sender receiver : Endpoint κ) : Prop :=
  sender.state = .confirmed → receiver.lastAccepted = sender.lastSent

/-- What is in flight while a set waits for its answer. Either the set is the
last of those on their way, and its number is nowhere else; or none is on its
way, and an ack with its number is true. -/
def Awaits (sender receiver : Endpoint κ) (sets : List (Nat × Option κ)) (acks : List Nat) :
    Prop :=
  (∃ earlier sent, sets = earlier ++ [(sender.outSequenceNumber, sent)] ∧
      sender.lastSent = some sent ∧
      sender.outSequenceNumber ∉ earlier.map Prod.fst ∧ sender.outSequenceNumber ∉ acks) ∨
    (sets = [] ∧ (sender.outSequenceNumber ∈ acks → receiver.lastAccepted = sender.lastSent))

/-- The invariant of one direction. -/
def Confirming (sender receiver : Endpoint κ) (sets : List (Nat × Option κ)) (acks : List Nat) :
    Prop :=
  match sender.state with
  | .idle => True
  | .inProgress => Awaits sender receiver sets acks
  | .confirmed => sets = [] ∧ receiver.lastAccepted = sender.lastSent

section Messages

variable (messages messages' : List (CapabilityPdu κ))

@[simp] theorem setsIn_append :
    setsIn (messages ++ messages') = setsIn messages ++ setsIn messages' :=
  List.filterMap_append

@[simp] theorem acksIn_append :
    acksIn (messages ++ messages') = acksIn messages ++ acksIn messages' :=
  List.filterMap_append

end Messages

section Direction

variable {sender receiver : Endpoint κ} {sets : List (Nat × Option κ)} {acks : List Nat}

/-- The fields that the invariant looks at. -/
theorem Confirming.congr {sender' receiver' : Endpoint κ}
    (h : Confirming sender receiver sets acks) (hstate : sender'.state = sender.state)
    (hout : sender'.outSequenceNumber = sender.outSequenceNumber)
    (hsent : sender'.lastSent = sender.lastSent)
    (haccepted : receiver'.lastAccepted = receiver.lastAccepted) :
    Confirming sender' receiver' sets acks := by
  simpa only [Confirming, Awaits, hstate, hout, hsent, haccepted] using h

/-- A set comes to the receiver. It is the one that is waited for, or its number
is another one. -/
theorem confirming_receive {number : Nat} {capabilities : Option κ} (accepted : Bool)
    (h : Confirming sender receiver ((number, capabilities) :: sets) acks) :
    Confirming sender (receiver.handleIncoming accepted number capabilities).1 sets
      (acks ++ acksIn (receiver.handleIncoming accepted number capabilities).2) := by
  cases hstate : sender.state with
  | idle => simp only [Confirming, hstate]
  | confirmed =>
      simp only [Confirming, hstate] at h
      exact absurd h.1 (List.cons_ne_nil _ _)
  | inProgress =>
      simp only [Confirming, hstate] at h ⊢
      obtain ⟨earlier, sent, hsets, hlast, hearlier, hacks⟩ | ⟨hsets, -⟩ := h
      · cases earlier with
        | nil =>
            -- The last set comes in, and what answers it is about this set.
            obtain ⟨⟨rfl, rfl⟩, rfl⟩ : (number = sender.outSequenceNumber ∧ capabilities = sent) ∧
                sets = [] := by
              simpa using hsets
            refine .inr ⟨rfl, fun hack => ?_⟩
            unfold Endpoint.handleIncoming at hack ⊢
            split at hack
            · exact absurd hack (by simpa [acksIn] using hacks)
            · split at hack
              · rename_i hnew haccepted
                rw [if_neg hnew, if_pos haccepted, hlast]
              · exact absurd hack (by simpa [acksIn] using hacks)
        | cons first earlier =>
            obtain ⟨rfl, rfl⟩ : first = (number, capabilities) ∧
                sets = earlier ++ [(sender.outSequenceNumber, sent)] := by
              have hcons := List.cons.inj hsets
              exact ⟨hcons.1.symm, hcons.2⟩
            rw [List.map_cons, List.mem_cons, not_or] at hearlier
            refine .inl ⟨earlier, sent, rfl, hlast, hearlier.2, ?_⟩
            -- An answer to an earlier set has the number of that set.
            have hanswer : ∀ k ∈ acksIn (receiver.handleIncoming accepted number capabilities).2,
                k = number := by
              intro k hk
              unfold Endpoint.handleIncoming at hk
              split at hk
              · exact absurd hk List.not_mem_nil
              · split at hk
                · simpa [acksIn] using hk
                · exact absurd hk List.not_mem_nil
            intro hmem
            rcases List.mem_append.1 hmem with hold | hnew
            · exact hacks hold
            · exact hearlier.1 (hanswer _ hnew)
      · exact absurd hsets (List.cons_ne_nil _ _)

/-- A new set is sent under a number that is not in flight. -/
theorem confirming_start (h : Confirming sender receiver sets acks) {renegotiate : Bool}
    (hfree : sender.Sends renegotiate →
      sender.nextNumber ∉ sets.map Prod.fst ∧ sender.nextNumber ∉ acks)
    (empty : Bool) (capabilities : κ) :
    Confirming (sender.start renegotiate empty capabilities).1 receiver
      (sets ++ setsIn (sender.start renegotiate empty capabilities).2) acks := by
  unfold Endpoint.start
  split
  · rename_i hsends
    obtain ⟨hset, hack⟩ := hfree hsends
    exact .inl ⟨sets, _, rfl, rfl, hset, hack⟩
  · simpa [setsIn] using h

theorem confirming_stop (h : Confirming sender receiver sets acks) (dec : Bool) :
    Confirming (sender.stop dec) receiver sets acks := by
  unfold Endpoint.stop
  split
  · exact h
  · exact trivial

/-- An ack comes to the sender. If it has the number that is waited for, no set
is on its way and the ack is true. -/
theorem confirming_ack {number : Nat} (h : Confirming sender receiver sets (number :: acks)) :
    Confirming (sender.handleAck number) receiver sets acks := by
  unfold Endpoint.handleAck
  split
  · rename_i hstate
    cases hs : sender.state with
    | idle => simp only [Confirming, hs]
    | inProgress => exact absurd hs hstate
    | confirmed => simpa only [Confirming, hs] using h
  · rename_i hstate
    have hs : sender.state = .inProgress := Decidable.not_not.1 hstate
    simp only [Confirming, hs] at h
    split
    · rename_i hnumber
      simp only [Confirming, hs]
      obtain ⟨earlier, sent, hsets, hlast, hearlier, hacks⟩ | ⟨hsets, htrue⟩ := h
      · exact .inl ⟨earlier, sent, hsets, hlast, hearlier,
          fun hmem => hacks (List.mem_cons_of_mem _ hmem)⟩
      · exact .inr ⟨hsets, fun hmem => htrue (List.mem_cons_of_mem _ hmem)⟩
    · rename_i hnumber
      obtain ⟨earlier, sent, hsets, hlast, hearlier, hacks⟩ | ⟨hsets, htrue⟩ := h
      · exact absurd (List.mem_cons.2 (.inl (Decidable.not_not.1 hnumber).symm)) hacks
      · exact ⟨hsets, htrue (List.mem_cons.2 (.inl (Decidable.not_not.1 hnumber).symm))⟩

theorem confirming_reject (h : Confirming sender receiver sets acks) (number : Nat) :
    Confirming (sender.handleReject number) receiver sets acks := by
  unfold Endpoint.handleReject
  split
  · exact h
  · split
    · exact h
    · exact trivial

end Direction

/-- Both directions. -/
def BothConfirming (s : Link (Endpoint κ) (CapabilityPdu κ)) : Prop :=
  Confirming s.left s.right (setsIn s.toRight) (acksIn s.toLeft) ∧
    Confirming s.right s.left (setsIn s.toLeft) (acksIn s.toRight)

/-- What the receiver of a set leaves as it is. -/
theorem handleIncoming_sender (e : Endpoint κ) (accepted : Bool) (number : Nat)
    (capabilities : Option κ) :
    (e.handleIncoming accepted number capabilities).1.state = e.state ∧
      (e.handleIncoming accepted number capabilities).1.outSequenceNumber =
        e.outSequenceNumber ∧
      (e.handleIncoming accepted number capabilities).1.lastSent = e.lastSent ∧
      setsIn (e.handleIncoming accepted number capabilities).2 = [] := by
  unfold Endpoint.handleIncoming
  split
  · exact ⟨rfl, rfl, rfl, rfl⟩
  · split
    · exact ⟨rfl, rfl, rfl, rfl⟩
    · exact ⟨rfl, rfl, rfl, rfl⟩

/-- What the sender leaves as it is. -/
theorem start_receiver (e : Endpoint κ) (renegotiate empty : Bool) (capabilities : κ) :
    (e.start renegotiate empty capabilities).1.lastAccepted = e.lastAccepted ∧
      acksIn (e.start renegotiate empty capabilities).2 = [] := by
  unfold Endpoint.start
  split
  · exact ⟨rfl, rfl⟩
  · exact ⟨rfl, rfl⟩

theorem lastAccepted_stop (e : Endpoint κ) (dec : Bool) :
    (e.stop dec).lastAccepted = e.lastAccepted := by
  unfold Endpoint.stop
  split <;> rfl

theorem lastAccepted_handleAck (e : Endpoint κ) (number : Nat) :
    (e.handleAck number).lastAccepted = e.lastAccepted := by
  unfold Endpoint.handleAck
  split
  · rfl
  · split <;> rfl

theorem lastAccepted_handleReject (e : Endpoint κ) (number : Nat) :
    (e.handleReject number).lastAccepted = e.lastAccepted := by
  unfold Endpoint.handleReject
  split
  · rfl
  · split <;> rfl

/-- The step: a move of the left keeps both directions. -/
theorem bothConfirming_moveLeft (s : Link (Endpoint κ) (CapabilityPdu κ))
    (m : Move (CapabilityCall κ) Bool) (h : BothConfirming s) (hfree : NumberFree s m) :
    BothConfirming (s.moveLeft capabilityParty m) := by
  obtain ⟨hsend, hreceive⟩ := h
  cases m with
  | call a =>
      rw [Link.moveLeft_call]
      cases a with
      | start renegotiate empty capabilities =>
          obtain ⟨haccepted, hacks⟩ := start_receiver s.left renegotiate empty capabilities
          constructor
          · simp only [capabilityParty, setsIn_append]
            exact confirming_start hsend hfree empty capabilities
          · simp only [capabilityParty, acksIn_append, hacks, List.append_nil]
            exact hreceive.congr rfl rfl rfl haccepted
      | stop dec =>
          constructor
          · simpa only [capabilityParty, List.append_nil] using confirming_stop hsend dec
          · simp only [capabilityParty, List.append_nil]
            exact hreceive.congr rfl rfl rfl (lastAccepted_stop s.left dec)
  | deliver b =>
      cases hin : s.toLeft with
      | nil =>
          rw [Link.moveLeft_nil hin]
          exact ⟨hsend, hreceive⟩
      | cons message rest =>
          rw [Link.moveLeft_cons hin]
          rw [hin] at hsend hreceive
          cases message with
          | terminalCapabilitySet number capabilities =>
              obtain ⟨hstate, hout, hlast, hsets⟩ :=
                handleIncoming_sender s.left b number capabilities
              constructor
              · simp only [capabilityParty, setsIn_append, hsets, List.append_nil]
                exact Confirming.congr hsend hstate hout hlast rfl
              · simp only [capabilityParty, acksIn_append]
                exact confirming_receive b hreceive
          | terminalCapabilitySetAck number =>
              constructor
              · simp only [capabilityParty, List.append_nil]
                exact confirming_ack hsend
              · simp only [capabilityParty, List.append_nil]
                exact Confirming.congr hreceive rfl rfl rfl (lastAccepted_handleAck s.left number)
          | terminalCapabilitySetReject number =>
              constructor
              · simp only [capabilityParty, List.append_nil]
                exact confirming_reject hsend number
              · simp only [capabilityParty, List.append_nil]
                exact Confirming.congr hreceive rfl rfl rfl
                  (lastAccepted_handleReject s.left number)

theorem confirms_of_confirming {sender receiver : Endpoint κ} {sets : List (Nat × Option κ)}
    {acks : List Nat} (h : Confirming sender receiver sets acks) : Confirms sender receiver := by
  intro hstate
  simp only [Confirming, hstate] at h
  exact h.2

/-- In every run in which no set is sent under a number that is in flight, each
side that is confirmed has had its last set accepted. -/
theorem confirmed_run (moves : List (Side × Move (CapabilityCall κ) Bool))
    (hfree : Along (Link.step capabilityParty) (Link.Facing NumberFree)
      (capabilityLink : Link (Endpoint κ) (CapabilityPdu κ)) moves) :
    Confirms (final (Link.step capabilityParty) capabilityLink moves).left
        (final (Link.step capabilityParty) capabilityLink moves).right ∧
      Confirms (final (Link.step capabilityParty) capabilityLink moves).right
        (final (Link.step capabilityParty) capabilityLink moves).left := by
  have hinit : BothConfirming (capabilityLink : Link (Endpoint κ) (CapabilityPdu κ)) :=
    ⟨trivial, trivial⟩
  have hswap : ∀ s : Link (Endpoint κ) (CapabilityPdu κ),
      BothConfirming s → BothConfirming s.swap := fun _ h => ⟨h.2, h.1⟩
  obtain ⟨hleft, hright⟩ :=
    Link.final_facing hswap bothConfirming_moveLeft hinit hfree
  exact ⟨confirms_of_confirming hleft, confirms_of_confirming hright⟩

/-- A set is sent and accepted, and then another one. -/
theorem confirmed_run_twice :
    Confirms (final (Link.step capabilityParty)
        (capabilityLink : Link (Endpoint Nat) (CapabilityPdu Nat))
        [(.left, .call (.start false false 1)), (.right, .deliver true), (.left, .deliver true),
          (.left, .call (.start true false 2)), (.right, .deliver true),
          (.left, .deliver true)]).left
      (final (Link.step capabilityParty) capabilityLink
        [(.left, .call (.start false false 1)), (.right, .deliver true), (.left, .deliver true),
          (.left, .call (.start true false 2)), (.right, .deliver true),
          (.left, .deliver true)]).right :=
  (confirmed_run _ (by decide)).1

/-- The number of a set is given back while the set is on its way, and used
again: the other side ignores the second set, and its answer to the first one
confirms it. -/
theorem confirmed_wrongly :
    let s := final (Link.step capabilityParty)
      (capabilityLink : Link (Endpoint Nat) (CapabilityPdu Nat))
      [(.left, .call (.start false false 1)), (.left, .call (.stop true)),
        (.left, .call (.start false false 2)), (.right, .deliver true),
        (.right, .deliver true), (.left, .deliver true)]
    s.toLeft = [] ∧ s.toRight = [] ∧ s.left.state = .confirmed ∧
      s.left.lastSent = some (some 2) ∧ s.right.lastAccepted = some (some 1) := by
  decide

end H323

end CryptoOpal

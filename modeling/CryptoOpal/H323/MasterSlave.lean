import CryptoOpal.Lib.Duplex

/-!
# Master and Slave of H.245

One side asks with a random number, and the other side compares it with its own
last number, says which role the asking side has, and takes the other one. Both
may ask at once, equal numbers are rejected and tried again, and a side that
was asked while idle does not wait for the last acknowledgement.

This is where it goes wrong. An acknowledgement does not say what it answers.
A side that starts while one is still on its way to it takes the old one for
the answer to its new number, and the other side decides by that number, so
both may become master. The same happens to a side that starts while its own
acknowledgement is still on its way to one who waits for it. If no side starts
at such a moment, or if the terminal types differ, both sides agree
(`master_slave_run`).

## Main definitions

* `Terminal`: One side.
* `masterSlaveParty`: The calls and the handlers.
* `Unanswered`: No acknowledgement is where a new number would meet it.
* `Phase`: How far the sides are, up to turning the link.

## Theorems

* `newStatus_flip`: Two sides that compare the same numbers decide opposite roles.
* `settled_moveLeft`, `settled_moveRight`: The step, for equal types.
* `roles_moveLeft`: The step, for different types.
* `master_slave_run`: Agreement.
-/

namespace CryptoOpal

namespace H323

open Lib (Party Link Side Move Along final)

/-- `States`. -/
inductive DeterminationState where
  | idle
  | outgoing
  | incoming
  deriving DecidableEq

/-- `MasterSlaveStatus`. -/
inductive MasterSlaveStatus where
  | indeterminate
  | determinedMaster
  | determinedSlave
  deriving DecidableEq

/-- The decision of an acknowledgement, for the side that it is sent to. -/
inductive Decision where
  | master
  | slave
  deriving DecidableEq

/-- The role that a decision gives to the side that gets it. -/
def Decision.status : Decision → MasterSlaveStatus
  | .master => .determinedMaster
  | .slave => .determinedSlave

/-- The only cause of a reject that is sent is `identicalNumbers`. -/
inductive DeterminationPdu where
  | masterSlaveDetermination (terminalType : Nat) (statusDeterminationNumber : UInt32)
  | masterSlaveDeterminationAck (decision : Decision)
  | masterSlaveDeterminationReject
  deriving DecidableEq

/-- `H245NegMasterSlaveDetermination`, with what the endpoint says of its terminal
type and of retries, and the last protocol error that was reported. -/
structure Terminal where
  terminalType : Nat
  retries : Nat
  state : DeterminationState
  status : MasterSlaveStatus
  determinationNumber : UInt32
  retryCount : Nat
  protocolError : Option String
  deriving DecidableEq

/-- `Start`, with the random number in case it is needed. -/
structure StartCall where
  renegotiate : Bool
  random : UInt32
  deriving DecidableEq

/-- `BuildMasterSlaveDeterminationAck`. -/
def buildAck (isMaster : Bool) : DeterminationPdu :=
  .masterSlaveDeterminationAck (if isMaster then .slave else .master)

/-- How `HandleIncoming` compares a terminal type and a number with its own. -/
def newStatus (ownType : Nat) (own : UInt32) (pduType : Nat) (number : UInt32) :
    MasterSlaveStatus :=
  if pduType < ownType then
    .determinedMaster
  else if ownType < pduType then
    .determinedSlave
  else
    let moduloDiff := (number - own) &&& 0xffffff
    if moduloDiff = 0 ∨ moduloDiff = 0x800000 then
      .indeterminate
    else if moduloDiff < 0x800000 then
      .determinedMaster
    else
      .determinedSlave

namespace Terminal

/-- The constructor leaves the number as it is in memory. -/
def create (terminalType retries : Nat) (determinationNumber : UInt32) : Terminal where
  terminalType := terminalType
  retries := retries
  state := .idle
  status := .indeterminate
  determinationNumber := determinationNumber
  retryCount := 1
  protocolError := none

variable (e : Terminal)

/-- The request that a side makes with its number. -/
def request : DeterminationPdu :=
  .masterSlaveDetermination e.terminalType e.determinationNumber

/-- The acknowledgement of a side with a role. -/
def answer : DeterminationPdu := buildAck (e.status = .determinedMaster)

/-- `OnControlProtocolError`, once the side is idle. -/
def failed (text : String) : Terminal × List DeterminationPdu :=
  ({ e with state := .idle, protocolError := some text }, [])

/-- `Restart`. -/
def restart (random : UInt32) : Terminal × List DeterminationPdu :=
  let asking := { e with determinationNumber := random % 16777216, state := .outgoing }
  (asking, [asking.request])

/-- Whether `Start` goes on to send a request. -/
def Sends (renegotiate : Bool) : Prop :=
  e.state = .idle ∧ ¬ (renegotiate = false ∧ e.status ≠ .indeterminate)

instance (renegotiate : Bool) : Decidable (e.Sends renegotiate) :=
  inferInstanceAs (Decidable (_ ∧ _))

/-- `Start`. -/
def start (renegotiate : Bool) (random : UInt32) : Terminal × List DeterminationPdu :=
  if e.Sends renegotiate then
    restart { e with retryCount := 1 } random
  else
    (e, [])

/-- One more try, or the end of them. -/
def retry (random : UInt32) : Terminal × List DeterminationPdu :=
  let counted := { e with retryCount := e.retryCount + 1 }
  if counted.retryCount < counted.retries then
    counted.restart random
  else
    counted.failed "Retries exceeded"

/-- `HandleIncoming`. -/
def handleIncoming (random : UInt32) (pduType : Nat) (number : UInt32) :
    Terminal × List DeterminationPdu :=
  if e.state = .incoming then
    e.failed "Duplicate MasterSlaveDetermination"
  else
    let decided := newStatus e.terminalType e.determinationNumber pduType number
    if decided ≠ .indeterminate then
      ({ e with
          state := if e.state = .outgoing then .incoming else .idle
          status := decided },
        [buildAck (decided = .determinedMaster)])
    else if e.state = .outgoing then
      e.retry random
    else
      (e, [.masterSlaveDeterminationReject])

/-- `HandleAck`. -/
def handleAck (decision : Decision) : Terminal × List DeterminationPdu :=
  if e.state = .idle then
    (e, [])
  else if e.state = .outgoing then
    ({ e with state := .idle, status := decision.status },
      [buildAck (decision.status = .determinedMaster)])
  else if e.status ≠ decision.status then
    e.failed "Master/Slave mismatch"
  else
    ({ e with state := .idle }, [])

/-- `HandleReject`, for identical numbers. -/
def handleReject (random : UInt32) : Terminal × List DeterminationPdu :=
  if e.state = .idle then
    (e, [])
  else if e.state = .outgoing then
    e.retry random
  else
    e.failed "Retries exceeded"

end Terminal

/-- One side of the determination. What comes beside a message is the random
number of another try. -/
def masterSlaveParty : Party Terminal StartCall UInt32 DeterminationPdu where
  call e c := e.start c.renegotiate c.random
  receive e random
    | .masterSlaveDetermination terminalType number => e.handleIncoming random terminalType number
    | .masterSlaveDeterminationAck decision => e.handleAck decision
    | .masterSlaveDeterminationReject => e.handleReject random

/-- Two sides before anything was sent. -/
def determinationLink (left right : Terminal) : Link Terminal DeterminationPdu where
  left := left
  right := right
  toLeft := []
  toRight := []

def DeterminationPdu.isAck : DeterminationPdu → Bool
  | .masterSlaveDeterminationAck _ => true
  | _ => false

/-- When the left starts, no acknowledgement is on its way to it, and none of
its own to a side that waits for it; unless the types differ. -/
def Unanswered (s : Link Terminal DeterminationPdu) : Move StartCall UInt32 → Prop
  | .call c => s.left.Sends c.renegotiate →
      s.left.terminalType ≠ s.right.terminalType ∨
        ((∀ m ∈ s.toLeft, m.isAck = false) ∧
          ((∀ m ∈ s.toRight, m.isAck = false) ∨ s.right.state ≠ .outgoing))
  | .deliver _ => True

instance (s : Link Terminal DeterminationPdu) (m : Move StartCall UInt32) :
    Decidable (Unanswered s m) :=
  match m with
  | .call _ => inferInstanceAs (Decidable (_ → _))
  | .deliver _ => inferInstanceAs (Decidable True)

/-- The role of the other side. -/
def MasterSlaveStatus.flip : MasterSlaveStatus → MasterSlaveStatus
  | .indeterminate => .indeterminate
  | .determinedMaster => .determinedSlave
  | .determinedSlave => .determinedMaster

/-- One side is the master and the other is the slave. -/
def Opposed (left right : Terminal) : Prop :=
  left.status ≠ .indeterminate ∧ right.status = left.status.flip

/-- Two idle sides with roles, no message in flight and no error agree. -/
def Agreed (s : Link Terminal DeterminationPdu) : Prop :=
  s.left.state = .idle → s.right.state = .idle → s.left.status ≠ .indeterminate →
    s.right.status ≠ .indeterminate → s.toLeft = [] → s.toRight = [] →
    s.left.protocolError = none → s.right.protocolError = none → Opposed s.left s.right

theorem toNat_moduloDiff (a b : UInt32) : ((a - b) &&& 0xffffff).toNat =
    (4294967296 - b.toNat + a.toNat) % 4294967296 % 16777216 := by
  have hmask := Nat.and_two_pow_sub_one_eq_mod
    ((4294967296 - b.toNat + a.toNat) % 4294967296) 24
  rw [UInt32.toNat_and, UInt32.toNat_sub]
  exact hmask

theorem moduloDiff_lt (a b : UInt32) : ((a - b) &&& 0xffffff).toNat < 16777216 := by
  rw [toNat_moduloDiff]
  exact Nat.mod_lt _ (by decide)

/-- The differences in both directions add up to nothing. -/
theorem moduloDiff_add (a b : UInt32) :
    ((a - b) &&& 0xffffff).toNat + ((b - a) &&& 0xffffff).toNat = 0 ∨
      ((a - b) &&& 0xffffff).toNat + ((b - a) &&& 0xffffff).toNat = 16777216 := by
  rw [toNat_moduloDiff, toNat_moduloDiff]
  have ha := a.toNat_lt
  have hb := b.toNat_lt
  omega

/-- Comparing the same numbers, both sides decide opposite roles. -/
theorem newStatus_flip (type type' : Nat) (number number' : UInt32) :
    newStatus type' number' type number = (newStatus type number type' number').flip := by
  unfold newStatus
  rcases Nat.lt_trichotomy type type' with hlt | rfl | hgt
  · rw [if_pos hlt, if_neg (Nat.lt_asymm hlt), if_pos hlt]
    rfl
  · simp only [Nat.lt_irrefl, if_false]
    have hsum := moduloDiff_add number' number
    have hlt := moduloDiff_lt number' number
    have hlt' := moduloDiff_lt number number'
    generalize (number' - number) &&& 0xffffff = d at hsum hlt ⊢
    generalize (number - number') &&& 0xffffff = d' at hsum hlt' ⊢
    have hzero : (0 : UInt32).toNat = 0 := rfl
    have hhalf : (0x800000 : UInt32).toNat = 8388608 := rfl
    simp only [← UInt32.toNat_inj, UInt32.lt_iff_toNat_lt, hzero, hhalf]
    repeat' split
    all_goals first
      | rfl
      | omega
  · rw [if_neg (Nat.lt_asymm hgt), if_pos hgt, if_pos hgt]
    rfl

section Spec

variable (e : Terminal)

/-- A side that is asking again, or has asked. -/
def Asking (e : Terminal) (done : Terminal × List DeterminationPdu) : Prop :=
  done.1.terminalType = e.terminalType ∧ done.1.state = .outgoing ∧ done.2 = [done.1.request]

theorem asking_restart (random : UInt32) : Asking e (e.restart random) := ⟨rfl, rfl, rfl⟩

theorem start_of_not_sends {renegotiate : Bool} (h : ¬ e.Sends renegotiate) (random : UInt32) :
    e.start renegotiate random = (e, []) := if_neg h

theorem asking_start {renegotiate : Bool} (h : e.Sends renegotiate) (random : UInt32) :
    Asking e (e.start renegotiate random) := by
  rw [Terminal.start, if_pos h]
  exact ⟨rfl, rfl, rfl⟩

theorem asking_retry (random : UInt32) :
    (e.retry random).1.protocolError ≠ none ∨ Asking e (e.retry random) := by
  unfold Terminal.retry
  dsimp only
  split
  · exact .inr ⟨rfl, rfl, rfl⟩
  · exact .inl (Option.some_ne_none _)

/-- An acknowledgement gives the role that its sender has not. -/
theorem exists_decision (h : e.status ≠ .indeterminate) :
    ∃ d, e.answer = .masterSlaveDeterminationAck d ∧ d.status = e.status.flip := by
  unfold Terminal.answer buildAck
  cases hs : e.status with
  | indeterminate => exact absurd hs h
  | determinedMaster => exact ⟨.slave, rfl, rfl⟩
  | determinedSlave => exact ⟨.master, rfl, rfl⟩

section Receive

variable (random : UInt32) {pduType : Nat} {number : UInt32}

/-- A side that is idle or asking takes a role from the numbers. -/
theorem receive_decided (h : e.state ≠ .incoming)
    (hd : newStatus e.terminalType e.determinationNumber pduType number ≠ .indeterminate) :
    masterSlaveParty.receive e random (.masterSlaveDetermination pduType number) =
      let answering := { e with
        state := if e.state = .outgoing then .incoming else .idle
        status := newStatus e.terminalType e.determinationNumber pduType number }
      (answering, [answering.answer]) := by
  change e.handleIncoming random pduType number = _
  rw [Terminal.handleIncoming, if_neg h]
  exact if_pos hd

theorem receive_idle (h : e.state = .idle)
    (hd : newStatus e.terminalType e.determinationNumber pduType number = .indeterminate) :
    masterSlaveParty.receive e random (.masterSlaveDetermination pduType number) =
      (e, [.masterSlaveDeterminationReject]) := by
  change e.handleIncoming random pduType number = _
  simp [Terminal.handleIncoming, h, hd]

theorem receive_outgoing (h : e.state = .outgoing)
    (hd : newStatus e.terminalType e.determinationNumber pduType number = .indeterminate) :
    masterSlaveParty.receive e random (.masterSlaveDetermination pduType number) =
      e.retry random := by
  change e.handleIncoming random pduType number = _
  simp [Terminal.handleIncoming, h, hd]

theorem receiveAck_idle (h : e.state = .idle) (d : Decision) :
    masterSlaveParty.receive e random (.masterSlaveDeterminationAck d) = (e, []) :=
  if_pos h

theorem receiveAck_outgoing (h : e.state = .outgoing) (d : Decision) :
    masterSlaveParty.receive e random (.masterSlaveDeterminationAck d) =
      let settled := { e with state := .idle, status := d.status }
      (settled, [settled.answer]) := by
  change e.handleAck d = _
  rw [Terminal.handleAck, if_neg (by simp [h]), if_pos h]
  rfl

theorem receiveAck_incoming (h : e.state = .incoming) (d : Decision) :
    (masterSlaveParty.receive e random (.masterSlaveDeterminationAck d)).1.protocolError ≠ none ∨
      (e.status = d.status ∧
        masterSlaveParty.receive e random (.masterSlaveDeterminationAck d) =
          ({ e with state := .idle }, [])) := by
  change (e.handleAck d).1.protocolError ≠ none ∨ (_ ∧ e.handleAck d = _)
  rw [Terminal.handleAck, if_neg (by simp [h]), if_neg (by simp [h])]
  split
  · exact .inl (Option.some_ne_none _)
  · rename_i hs
    exact .inr ⟨Decidable.not_not.1 hs, rfl⟩

theorem receiveReject_outgoing (h : e.state = .outgoing) :
    masterSlaveParty.receive e random .masterSlaveDeterminationReject = e.retry random := by
  change e.handleReject random = _
  rw [Terminal.handleReject, if_neg (by simp [h]), if_pos h]

end Receive

end Spec

section Kept

variable (e : Terminal)

/-- An error that was reported stays reported. -/
def Keeps (e : Terminal) (done : Terminal × List DeterminationPdu) : Prop :=
  done.1.terminalType = e.terminalType ∧
    (e.protocolError ≠ none → done.1.protocolError ≠ none)

theorem keeps_failed (text : String) : Keeps e (e.failed text) :=
  ⟨rfl, fun _ => Option.some_ne_none _⟩

theorem keeps_retry (random : UInt32) : Keeps e (e.retry random) := by
  unfold Terminal.retry
  dsimp only
  split
  · exact ⟨rfl, id⟩
  · exact ⟨rfl, fun _ => Option.some_ne_none _⟩

theorem keeps_call (c : StartCall) : Keeps e (masterSlaveParty.call e c) := by
  change Keeps e (e.start c.renegotiate c.random)
  unfold Terminal.start
  split
  · exact ⟨rfl, id⟩
  · exact ⟨rfl, id⟩

theorem keeps_receive (random : UInt32) (m : DeterminationPdu) :
    Keeps e (masterSlaveParty.receive e random m) := by
  cases m with
  | masterSlaveDetermination pduType number =>
      change Keeps e (e.handleIncoming random pduType number)
      unfold Terminal.handleIncoming
      dsimp only
      split
      · exact keeps_failed e _
      · split
        · exact ⟨rfl, id⟩
        · split
          · exact keeps_retry e random
          · exact ⟨rfl, id⟩
  | masterSlaveDeterminationAck d =>
      change Keeps e (e.handleAck d)
      unfold Terminal.handleAck
      split
      · exact ⟨rfl, id⟩
      · split
        · exact ⟨rfl, id⟩
        · split
          · exact keeps_failed e _
          · exact ⟨rfl, id⟩
  | masterSlaveDeterminationReject =>
      change Keeps e (e.handleReject random)
      unfold Terminal.handleReject
      split
      · exact ⟨rfl, id⟩
      · split
        · exact keeps_retry e random
        · exact keeps_failed e _

theorem keeps_moveLeft (s : Link Terminal DeterminationPdu) (m : Move StartCall UInt32) :
    Keeps s.left ((s.moveLeft masterSlaveParty m).left, []) ∧
      (s.moveLeft masterSlaveParty m).right = s.right := by
  cases m with
  | call c => exact ⟨keeps_call s.left c, rfl⟩
  | deliver random =>
      cases hin : s.toLeft with
      | nil =>
          rw [Link.moveLeft_nil hin]
          exact ⟨⟨rfl, id⟩, rfl⟩
      | cons message rest =>
          rw [Link.moveLeft_cons hin]
          exact ⟨keeps_receive s.left random message, rfl⟩

end Kept

/-- How far two sides of one type are, with the messages to the left and to the
right, up to turning the link. -/
inductive Phase : Terminal → Terminal → List DeterminationPdu → List DeterminationPdu → Prop
  /-- Nothing is going on. -/
  | quiet {l r : Terminal} (hl : l.state = .idle) (hr : r.state = .idle)
      (h : l.status ≠ .indeterminate → r.status ≠ .indeterminate → Opposed l r) :
      Phase l r [] []
  /-- The left has asked. -/
  | asked {l r : Terminal} (hl : l.state = .outgoing) (hr : r.state = .idle) :
      Phase l r [] [l.request]
  /-- The left has asked again, and its last acknowledgement still comes first. -/
  | askedAgain {l r : Terminal} (d : Decision) (hl : l.state = .outgoing)
      (hr : r.state ≠ .outgoing) :
      Phase l r [] [.masterSlaveDeterminationAck d, l.request]
  /-- The right has answered. -/
  | answered {l r : Terminal} (hl : l.state = .outgoing) (hr : r.state = .idle)
      (hd : r.status ≠ .indeterminate) : Phase l r [r.answer] []
  /-- The left has acknowledged the answer. -/
  | acknowledged {l r : Terminal} (d : Decision) (hl : l.state = .idle) (hr : r.state = .idle)
      (h : Opposed l r) : Phase l r [] [.masterSlaveDeterminationAck d]
  /-- The right waits for the acknowledgement. -/
  | awaited {l r : Terminal} (hl : l.state = .idle) (hr : r.state = .incoming)
      (hd : l.status ≠ .indeterminate) : Phase l r [] [l.answer]
  /-- The right has rejected. -/
  | rejected {l r : Terminal} (hl : l.state = .outgoing) (hr : r.state = .idle) :
      Phase l r [.masterSlaveDeterminationReject] []
  /-- The right has rejected, and has asked then. -/
  | rejectedAsked {l r : Terminal} (hl : l.state = .outgoing) (hr : r.state = .outgoing) :
      Phase l r [.masterSlaveDeterminationReject, r.request] []
  /-- Both have asked. -/
  | crossed {l r : Terminal} (hl : l.state = .outgoing) (hr : r.state = .outgoing) :
      Phase l r [r.request] [l.request]
  /-- Both have asked, and the left has taken a role. -/
  | crossedAnswered {l r : Terminal} (hl : l.state = .incoming) (hr : r.state = .outgoing)
      (hd : l.status ≠ .indeterminate)
      (hn : newStatus r.terminalType r.determinationNumber l.terminalType l.determinationNumber ≠
        .indeterminate) : Phase l r [] [l.request, l.answer]
  /-- Both have asked, and the left has tried again. -/
  | crossedAgain {l r : Terminal} (old : UInt32) (hl : l.state = .outgoing)
      (hr : r.state = .outgoing)
      (hn : newStatus r.terminalType r.determinationNumber l.terminalType old = .indeterminate) :
      Phase l r [] [.masterSlaveDetermination l.terminalType old, l.request]
  /-- Both have asked and taken a role. -/
  | bothAnswered {l r : Terminal} (hl : l.state = .incoming) (hr : r.state = .incoming)
      (hdl : l.status ≠ .indeterminate) (hdr : r.status ≠ .indeterminate) :
      Phase l r [r.answer] [l.answer]

/-- An error was reported, or the sides are in some phase. -/
def Settled (s : Link Terminal DeterminationPdu) : Prop :=
  (s.left.protocolError ≠ none ∨ s.right.protocolError ≠ none) ∨
    Phase s.left s.right s.toLeft s.toRight ∨ Phase s.right s.left s.toRight s.toLeft

section Phases

theorem opposed_symm {l r : Terminal} (h : Opposed l r) : Opposed r l := by
  obtain ⟨hd, hflip⟩ := h
  unfold Opposed
  cases hl : l.status <;> simp_all [MasterSlaveStatus.flip]

theorem flip_eq_indeterminate {st : MasterSlaveStatus} :
    st.flip = .indeterminate ↔ st = .indeterminate := by
  cases st <;> simp [MasterSlaveStatus.flip]

theorem Settled.swap {s : Link Terminal DeterminationPdu} (h : Settled s) : Settled s.swap := by
  rcases h with (hl | hr) | hphase | hphase
  · exact .inl (.inr hl)
  · exact .inl (.inl hr)
  · exact .inr (.inr hphase)
  · exact .inr (.inl hphase)

variable {l r : Terminal} {toLeft toRight : List DeterminationPdu}

/-- A call that sends nothing changes nothing. -/
theorem moveLeft_unsent {c : StartCall} (h : ¬ l.Sends c.renegotiate) :
    (Link.mk l r toLeft toRight).moveLeft masterSlaveParty (.call c) =
      ⟨l, r, toLeft, toRight⟩ := by
  have hcall : masterSlaveParty.call l c = (l, []) := start_of_not_sends l h c.random
  rw [Link.moveLeft_call, hcall, List.append_nil]

/-- A call that sends something leaves a request. -/
theorem moveLeft_sent {c : StartCall} (h : l.Sends c.renegotiate) :
    ∃ l', l'.state = .outgoing ∧
      (Link.mk l r toLeft toRight).moveLeft masterSlaveParty (.call c) =
        ⟨l', r, toLeft, toRight ++ [l'.request]⟩ := by
  obtain ⟨-, hstate, hout⟩ := asking_start l h c.random
  refine ⟨(l.start c.renegotiate c.random).1, hstate, ?_⟩
  rw [← hout]
  rfl

/-- A request that comes to a side that asks too, or is idle. -/
theorem moveLeft_cons_mk {m : DeterminationPdu} {random : UInt32} {done : Terminal}
    {out : List DeterminationPdu} (h : masterSlaveParty.receive l random m = (done, out)) :
    (Link.mk l r (m :: toLeft) toRight).moveLeft masterSlaveParty (.deliver random) =
      ⟨done, r, toLeft, toRight ++ out⟩ := by
  rw [Link.moveLeft_cons rfl, h]

/-- Another try ends in an error or in a request. -/
theorem settled_retry {m : DeterminationPdu} {random : UInt32}
    (h : masterSlaveParty.receive l random m = l.retry random)
    (hnext : ∀ l', l'.state = .outgoing → l'.terminalType = l.terminalType →
      Settled ⟨l', r, toLeft, toRight ++ [l'.request]⟩) :
    Settled ((Link.mk l r (m :: toLeft) toRight).moveLeft masterSlaveParty (.deliver random)) := by
  rw [Link.moveLeft_cons rfl, h]
  rcases asking_retry l random with herror | ⟨htype, hstate, hout⟩
  · exact .inl (.inl herror)
  · have hasked := hnext (l.retry random).1 hstate htype
    rwa [← hout] at hasked

/-- An acknowledgement for a side that has a role agrees with it, or there is an
error. -/
theorem settled_acknowledged {d : Decision} {random : UInt32} (h : l.state = .incoming)
    (hnext : l.status = d.status → Settled ⟨{ l with state := .idle }, r, toLeft, toRight⟩) :
    Settled ((Link.mk l r (.masterSlaveDeterminationAck d :: toLeft) toRight).moveLeft
      masterSlaveParty (.deliver random)) := by
  rw [Link.moveLeft_cons rfl]
  rcases receiveAck_incoming l random h d with herror | ⟨hstatus, hdone⟩
  · exact .inl (.inl herror)
  · rw [hdone, List.append_nil]
    exact hnext hstatus

/-- Requests that crossed: the first of them to come. -/
theorem settled_crossed (random : UInt32) (hl : l.state = .outgoing) (hr : r.state = .outgoing) :
    Settled ((Link.mk l r [r.request] [l.request]).moveLeft masterSlaveParty
      (.deliver random)) := by
  have hflip := newStatus_flip l.terminalType r.terminalType l.determinationNumber
    r.determinationNumber
  -- Without a decision the left tries again with a new number, and the request that is on the
  -- way to the right still has the old one.
  by_cases hd : newStatus l.terminalType l.determinationNumber r.terminalType
      r.determinationNumber = .indeterminate
  · apply settled_retry (receive_outgoing l random hl hd)
    intro l' hl' htype
    have hn : newStatus r.terminalType r.determinationNumber l'.terminalType
        l.determinationNumber = .indeterminate := by
      rw [htype, hflip, hd]
      rfl
    have hphase := Phase.crossedAgain l.determinationNumber hl' hr hn
    rw [htype] at hphase
    exact .inr (.inl hphase)
  · have hincoming : l.state ≠ .incoming := by
      rw [hl]
      decide
    have hreceived := receive_decided l random hincoming hd
    simp only [hl, if_true] at hreceived
    rw [Terminal.request, moveLeft_cons_mk hreceived]
    refine .inr (.inl (.crossedAnswered rfl hr hd ?_))
    change newStatus r.terminalType r.determinationNumber l.terminalType l.determinationNumber ≠ _
    rw [hflip]
    exact fun hno => hd (flip_eq_indeterminate.1 hno)

/-- Both have a role: the first acknowledgement to come. -/
theorem settled_bothAnswered (random : UInt32) (hl : l.state = .incoming)
    (hr : r.state = .incoming) (hdl : l.status ≠ .indeterminate)
    (hdr : r.status ≠ .indeterminate) :
    Settled ((Link.mk l r [r.answer] [l.answer]).moveLeft masterSlaveParty
      (.deliver random)) := by
  obtain ⟨d, hanswer, -⟩ := exists_decision r hdr
  rw [hanswer]
  apply settled_acknowledged hl
  intro _
  exact .inr (.inl (.awaited rfl hr hdl))

/-- The step: the left moves. -/
theorem settled_moveLeft (hphase : Phase l r toLeft toRight) (m : Move StartCall UInt32) :
    Settled ((Link.mk l r toLeft toRight).moveLeft masterSlaveParty m) := by
  have hsettled : Settled ⟨l, r, toLeft, toRight⟩ := .inr (.inl hphase)
  -- In most phases nothing is on the way to the left.
  have hnone : ∀ random, toLeft = [] →
      Settled ((Link.mk l r toLeft toRight).moveLeft masterSlaveParty (.deliver random)) := by
    intro random hnil
    rw [Link.moveLeft_nil hnil]
    exact hsettled
  cases m with
  | call c =>
      by_cases hsends : l.Sends c.renegotiate
      · obtain ⟨l', hl', hmoved⟩ := @moveLeft_sent l r toLeft toRight c hsends
        rw [hmoved]
        -- A side that starts is idle, which it is in three phases only.
        have hidle := hsends.1
        cases hphase with
        | quiet hl hr h => exact .inr (.inl (.asked hl' hr))
        | acknowledged d hl hr h =>
            exact .inr (.inl (.askedAgain d hl' (by rw [hr]; decide)))
        | awaited hl hr hd =>
            obtain ⟨d, hanswer, -⟩ := exists_decision l hd
            rw [hanswer]
            exact .inr (.inl (.askedAgain d hl' (by rw [hr]; decide)))
        | _ => simp_all
      · rw [moveLeft_unsent hsends]
        exact hsettled
  | deliver random =>
      cases hphase with
      | answered hl hr hd =>
          obtain ⟨d, hanswer, hflip⟩ := exists_decision r hd
          rw [hanswer, moveLeft_cons_mk (receiveAck_outgoing l random hl d)]
          have hopposed : Opposed { l with state := .idle, status := d.status } r := by
            apply opposed_symm
            exact ⟨hd, hflip⟩
          obtain ⟨d', hanswer', -⟩ := exists_decision _ hopposed.1
          rw [hanswer']
          exact .inr (.inl (.acknowledged d' rfl hr hopposed))
      | rejected hl hr =>
          apply settled_retry (receiveReject_outgoing l random hl)
          intro l' hl' _
          exact .inr (.inl (.asked hl' hr))
      | rejectedAsked hl hr =>
          apply settled_retry (receiveReject_outgoing l random hl)
          intro l' hl' _
          exact .inr (.inl (.crossed hl' hr))
      | crossed hl hr => exact settled_crossed random hl hr
      | bothAnswered hl hr hdl hdr => exact settled_bothAnswered random hl hr hdl hdr
      | _ => exact hnone random rfl

/-- The step: the right moves. A side that starts meets no acknowledgement. -/
theorem settled_moveRight (hphase : Phase l r toLeft toRight)
    (htype : l.terminalType = r.terminalType) (m : Move StartCall UInt32)
    (hfree : Unanswered ⟨r, l, toRight, toLeft⟩ m) :
    Settled ((Link.mk r l toRight toLeft).moveLeft masterSlaveParty m) := by
  have hsettled : Settled ⟨r, l, toRight, toLeft⟩ := .inr (.inr hphase)
  have hnone : ∀ random, toRight = [] →
      Settled ((Link.mk r l toRight toLeft).moveLeft masterSlaveParty (.deliver random)) := by
    intro random hnil
    rw [Link.moveLeft_nil hnil]
    exact hsettled
  cases m with
  | call c =>
      by_cases hsends : r.Sends c.renegotiate
      · obtain ⟨hquiet, hwaits⟩ := (hfree hsends).resolve_left fun hne => hne htype.symm
        obtain ⟨r', hr', hmoved⟩ := @moveLeft_sent r l toRight toLeft c hsends
        rw [hmoved]
        have hidle := hsends.1
        cases hphase with
        | quiet hl hr h => exact .inr (.inl (.asked hr' hl))
        | asked hl hr => exact .inr (.inr (.crossed hl hr'))
        | rejected hl hr => exact .inr (.inr (.rejectedAsked hl hr'))
        | askedAgain d hl hr =>
            exact absurd (hquiet _ List.mem_cons_self) (by simp [DeterminationPdu.isAck])
        | acknowledged d hl hr h =>
            exact absurd (hquiet _ List.mem_cons_self) (by simp [DeterminationPdu.isAck])
        | answered hl hr hd =>
            -- Its own answer is on the way to a side that waits for it.
            obtain ⟨d, hanswer, -⟩ := exists_decision r hd
            rw [hanswer] at hwaits
            rcases hwaits with hno | hno
            · exact absurd (hno _ List.mem_cons_self) (by simp [DeterminationPdu.isAck])
            · exact absurd hl hno
        | _ => simp_all
      · rw [moveLeft_unsent hsends]
        exact hsettled
  | deliver random =>
      cases hphase with
      | asked hl hr =>
          by_cases hd : newStatus r.terminalType r.determinationNumber l.terminalType
              l.determinationNumber = .indeterminate
          · have hreceived := receive_idle r random hr hd
            rw [Terminal.request, moveLeft_cons_mk hreceived]
            exact .inr (.inr (.rejected hl hr))
          · have hincoming : r.state ≠ .incoming := by
              rw [hr]
              decide
            have hreceived := receive_decided r random hincoming hd
            simp only [hr, reduceCtorEq, if_false] at hreceived
            rw [Terminal.request, moveLeft_cons_mk hreceived]
            exact .inr (.inr (.answered hl rfl hd))
      | askedAgain d hl hr =>
          -- The acknowledgement of the exchange before comes first.
          cases hstate : r.state with
          | idle =>
              rw [moveLeft_cons_mk (receiveAck_idle r random hstate d)]
              exact .inr (.inr (.asked hl hstate))
          | outgoing => exact absurd hstate hr
          | incoming =>
              apply settled_acknowledged hstate
              intro _
              exact .inr (.inr (.asked hl rfl))
      | acknowledged d hl hr h =>
          rw [moveLeft_cons_mk (receiveAck_idle r random hr d)]
          exact .inr (.inr (.quiet hl hr fun _ _ => h))
      | awaited hl hr hd =>
          obtain ⟨d, hanswer, hflip⟩ := exists_decision l hd
          rw [hanswer]
          apply settled_acknowledged hr
          intro hstatus
          have hopposed : Opposed l { r with state := .idle } := ⟨hd, hstatus.trans hflip⟩
          exact .inr (.inr (.quiet hl rfl fun _ _ => hopposed))
      | crossed hl hr => exact settled_crossed random hr hl
      | crossedAnswered hl hr hd hn =>
          have hincoming : r.state ≠ .incoming := by
            rw [hr]
            decide
          have hreceived := receive_decided r random hincoming hn
          simp only [hr, if_true] at hreceived
          rw [Terminal.request, moveLeft_cons_mk hreceived]
          exact .inr (.inr (.bothAnswered hl rfl hd hn))
      | crossedAgain old hl hr hn =>
          apply settled_retry (receive_outgoing r random hr hn)
          intro r' hr' _
          exact .inr (.inr (.crossed hl hr'))
      | bothAnswered hl hr hdl hdr => exact settled_bothAnswered random hr hl hdr hdl
      | _ => exact hnone random rfl

end Phases

/-- Errors and phases, for equal types. -/
def SettledEqual (s : Link Terminal DeterminationPdu) : Prop :=
  s.left.terminalType = s.right.terminalType ∧ Settled s

theorem settledEqual_moveLeft (s : Link Terminal DeterminationPdu) (m : Move StartCall UInt32)
    (h : SettledEqual s) (hfree : Unanswered s m) :
    SettledEqual (s.moveLeft masterSlaveParty m) := by
  obtain ⟨htype, hsettled⟩ := h
  obtain ⟨⟨hkept, herror⟩, hright⟩ := keeps_moveLeft s m
  refine ⟨?_, ?_⟩
  · rw [hright, ← htype]
    exact hkept
  · rcases hsettled with (hl | hr) | hphase | hphase
    · exact .inl (.inl (herror hl))
    · exact .inl (.inr (hright ▸ hr))
    · exact settled_moveLeft hphase m
    · exact settled_moveRight hphase htype.symm m hfree

/-- The role that the types give to the first of two sides. -/
def roleByType (own other : Nat) : MasterSlaveStatus := newStatus own 0 other 0

/-- What a message says where the types differ. -/
def Honest (sender receiver : Nat) : DeterminationPdu → Prop
  | .masterSlaveDetermination terminalType _ => terminalType = sender
  | .masterSlaveDeterminationAck decision => decision.status = roleByType receiver sender
  | .masterSlaveDeterminationReject => True

section Roles

variable {own other : Nat}

theorem newStatus_types (h : own ≠ other) (number number' : UInt32) :
    newStatus own number other number' = roleByType own other := by
  unfold roleByType newStatus
  rcases Nat.lt_or_gt_of_ne h with hlt | hgt
  · rw [if_neg (Nat.lt_asymm hlt), if_pos hlt, if_neg (Nat.lt_asymm hlt), if_pos hlt]
  · rw [if_pos hgt, if_pos hgt]

theorem roleByType_ne (h : own ≠ other) : roleByType own other ≠ .indeterminate := by
  unfold roleByType newStatus
  rcases Nat.lt_or_gt_of_ne h with hlt | hgt
  · rw [if_neg (Nat.lt_asymm hlt), if_pos hlt]
    decide
  · rw [if_pos hgt]
    decide

/-- A side with the role of its type, after a call or a message. -/
def RoleKept (other : Nat) (done : Terminal × List DeterminationPdu) : Prop :=
  (done.1.status ≠ .indeterminate → done.1.status = roleByType done.1.terminalType other) ∧
    ∀ m ∈ done.2, Honest done.1.terminalType other m

variable {e : Terminal}

theorem roleKept_silent
    (h : e.status ≠ .indeterminate → e.status = roleByType e.terminalType other) :
    RoleKept other (e, []) :=
  ⟨h, fun _ hm => absurd hm List.not_mem_nil⟩

theorem roleKept_asking {done : Terminal × List DeterminationPdu} (h : Asking e done)
    (hstatus : done.1.status = e.status)
    (he : e.status ≠ .indeterminate → e.status = roleByType e.terminalType other) :
    RoleKept other done := by
  obtain ⟨htype, -, hout⟩ := h
  refine ⟨?_, ?_⟩
  · rw [hstatus, htype]
    exact he
  · intro m hm
    rw [hout, List.mem_singleton] at hm
    subst hm
    exact rfl

theorem roleKept_answering (hne : e.terminalType ≠ other)
    (h : e.status = roleByType e.terminalType other) : RoleKept other (e, [e.answer]) := by
  refine ⟨fun _ => h, ?_⟩
  intro m hm
  rw [List.mem_singleton] at hm
  subst hm
  obtain ⟨d, hanswer, hflip⟩ := exists_decision e (h ▸ roleByType_ne hne)
  rw [hanswer]
  change d.status = roleByType other e.terminalType
  rw [hflip, h, roleByType, roleByType, newStatus_flip e.terminalType other]

theorem roleKept_retry (random : UInt32)
    (he : e.status ≠ .indeterminate → e.status = roleByType e.terminalType other) :
    RoleKept other (e.retry random) := by
  unfold Terminal.retry
  dsimp only
  split
  · exact roleKept_asking (asking_restart _ random) rfl he
  · exact roleKept_silent he

theorem roleKept_call (c : StartCall)
    (he : e.status ≠ .indeterminate → e.status = roleByType e.terminalType other) :
    RoleKept other (masterSlaveParty.call e c) := by
  change RoleKept other (e.start c.renegotiate c.random)
  unfold Terminal.start
  split
  · exact roleKept_asking (asking_restart _ c.random) rfl he
  · exact roleKept_silent he

theorem roleKept_receive (hne : e.terminalType ≠ other) (random : UInt32)
    {m : DeterminationPdu} (hm : Honest other e.terminalType m)
    (he : e.status ≠ .indeterminate → e.status = roleByType e.terminalType other) :
    RoleKept other (masterSlaveParty.receive e random m) := by
  cases m with
  | masterSlaveDetermination pduType number =>
      change RoleKept other (e.handleIncoming random pduType number)
      have hdecided : newStatus e.terminalType e.determinationNumber pduType number =
          roleByType e.terminalType other := by
        rw [show pduType = other from hm]
        exact newStatus_types hne _ _
      unfold Terminal.handleIncoming
      split
      · exact roleKept_silent he
      · dsimp only
        rw [hdecided, if_pos (roleByType_ne hne)]
        exact @roleKept_answering other { e with
          state := if e.state = .outgoing then .incoming else .idle
          status := roleByType e.terminalType other } hne rfl
  | masterSlaveDeterminationAck d =>
      change RoleKept other (e.handleAck d)
      unfold Terminal.handleAck
      split
      · exact roleKept_silent he
      · split
        · exact @roleKept_answering other { e with state := .idle, status := d.status } hne hm
        · split
          · exact roleKept_silent he
          · exact roleKept_silent he
  | masterSlaveDeterminationReject =>
      change RoleKept other (e.handleReject random)
      unfold Terminal.handleReject
      split
      · exact roleKept_silent he
      · split
        · exact roleKept_retry random he
        · exact roleKept_silent he

end Roles

/-- The role of the left, and what comes to it, are those of the types. -/
def RightRole (s : Link Terminal DeterminationPdu) : Prop :=
  (s.left.status ≠ .indeterminate →
      s.left.status = roleByType s.left.terminalType s.right.terminalType) ∧
    ∀ m ∈ s.toLeft, Honest s.right.terminalType s.left.terminalType m

/-- Both roles, for different types. -/
def RightRoles (s : Link Terminal DeterminationPdu) : Prop :=
  s.left.terminalType ≠ s.right.terminalType ∧ RightRole s ∧ RightRole s.swap

/-- The step: where the types differ, the numbers do not matter. -/
theorem rightRoles_moveLeft (s : Link Terminal DeterminationPdu) (m : Move StartCall UInt32)
    (h : RightRoles s) : RightRoles (s.moveLeft masterSlaveParty m) := by
  obtain ⟨hne, ⟨hleft, htoLeft⟩, hright, htoRight⟩ := h
  -- What a call or a message leaves is what the types say.
  have hdone : ∀ (done : Terminal × List DeterminationPdu) (rest : List DeterminationPdu),
      Keeps s.left done → RoleKept s.right.terminalType done →
      (∀ m ∈ rest, Honest s.right.terminalType s.left.terminalType m) →
      RightRoles ⟨done.1, s.right, rest, s.toRight ++ done.2⟩ := by
    intro done rest hkeeps hrole hrest
    obtain ⟨htype, -⟩ := hkeeps
    refine ⟨htype ▸ hne, ⟨hrole.1, htype ▸ hrest⟩, htype ▸ hright, ?_⟩
    intro m hm
    rcases List.mem_append.1 hm with hold | hnew
    · exact htype ▸ htoRight m hold
    · exact hrole.2 m hnew
  cases m with
  | call c => exact hdone _ _ (keeps_call s.left c) (roleKept_call c hleft) htoLeft
  | deliver random =>
      cases hin : s.toLeft with
      | nil =>
          rw [Link.moveLeft_nil hin]
          exact ⟨hne, ⟨hleft, htoLeft⟩, hright, htoRight⟩
      | cons message rest =>
          rw [Link.moveLeft_cons hin]
          rw [hin, List.forall_mem_cons] at htoLeft
          exact hdone _ _ (keeps_receive s.left random message)
            (roleKept_receive hne random htoLeft.1 hleft) htoLeft.2

/-- What holds in every state of a run. -/
def Determined (s : Link Terminal DeterminationPdu) : Prop :=
  SettledEqual s ∨ RightRoles s

theorem agreed_of_determined {s : Link Terminal DeterminationPdu} (h : Determined s) :
    Agreed s := by
  intro hl hr hdl hdr htoLeft htoRight hel her
  rcases h with ⟨-, (hno | hno) | hphase | hphase⟩ | ⟨hne, ⟨hleft, -⟩, hright, -⟩
  · exact absurd hel hno
  · exact absurd her hno
  · rw [htoLeft, htoRight] at hphase
    cases hphase with
    | quiet _ _ h => exact h hdl hdr
  · rw [htoLeft, htoRight] at hphase
    cases hphase with
    | quiet _ _ h => exact opposed_symm (h hdr hdl)
  · refine ⟨hdl, ?_⟩
    have hflip := newStatus_flip s.left.terminalType s.right.terminalType 0 0
    rw [hleft hdl]
    exact (hright hdr).trans hflip

/-- In every run in which no side starts where an acknowledgement of the
exchange before could meet its new number, or with different types in every
run, two sides that have done agree on their roles. -/
theorem master_slave_run (terminalType terminalType' retries retries' : Nat)
    (number number' : UInt32) (moves : List (Side × Move StartCall UInt32))
    (hfree : Along (Link.step masterSlaveParty) (Link.Facing Unanswered)
      (determinationLink (.create terminalType retries number)
        (.create terminalType' retries' number')) moves) :
    Agreed (final (Link.step masterSlaveParty)
      (determinationLink (.create terminalType retries number)
        (.create terminalType' retries' number')) moves) := by
  apply agreed_of_determined
  apply Link.final_facing (P := Unanswered) _ _ _ hfree
  · intro s h
    rcases h with ⟨htype, hsettled⟩ | ⟨hne, hleft, hright⟩
    · exact .inl ⟨htype.symm, hsettled.swap⟩
    · exact .inr ⟨hne.symm, hright, hleft⟩
  · intro s m h hm
    rcases h with h | h
    · exact .inl (settledEqual_moveLeft s m h hm)
    · exact .inr (rightRoles_moveLeft s m h)
  · by_cases htype : terminalType = terminalType'
    · exact .inl ⟨htype, .inr (.inl (.quiet rfl rfl fun hno => absurd rfl hno))⟩
    · have hnone : ∀ m ∈ ([] : List DeterminationPdu), False :=
        fun m hm => absurd hm List.not_mem_nil
      exact .inr ⟨htype, ⟨fun hno => absurd rfl hno, fun m hm => (hnone m hm).elim⟩,
        fun hno => absurd rfl hno, fun m hm => (hnone m hm).elim⟩

/-- Both sides ask, and both take the role that the other one gives them. -/
theorem master_slave_run_crossed :
    Agreed (final (Link.step masterSlaveParty)
      (determinationLink (.create 60 10 0) (.create 60 10 0))
      [(.left, .call ⟨false, 5⟩), (.right, .call ⟨false, 10⟩), (.left, .deliver 0),
        (.right, .deliver 0), (.left, .deliver 0), (.right, .deliver 0),
        (.right, .deliver 0)]) :=
  master_slave_run 60 60 10 10 0 0 _ (by decide)

/-- The right answers, and starts again before its answer has arrived. It takes
the acknowledgement of its answer for the answer to its new number, and both
sides are masters. -/
theorem two_masters :
    let s := final (Link.step masterSlaveParty)
      (determinationLink (.create 60 10 0) (.create 60 10 0))
      [(.left, .call ⟨false, 5⟩), (.right, .deliver 0), (.right, .call ⟨true, 10⟩),
        (.left, .deliver 0), (.left, .deliver 0), (.right, .deliver 0), (.right, .deliver 0),
        (.left, .deliver 0)]
    s.left.state = .idle ∧ s.right.state = .idle ∧ s.toLeft = [] ∧ s.toRight = [] ∧
      s.left.protocolError = none ∧ s.right.protocolError = none ∧
      s.left.status = .determinedMaster ∧ s.right.status = .determinedMaster := by
  decide

end H323

end CryptoOpal

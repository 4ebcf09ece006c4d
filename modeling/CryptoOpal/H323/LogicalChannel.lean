/-!
# One Logical Channel of H.245

A negotiator holds the state of one logical channel and a pointer to the
channel object. It is driven by the calls of this side, by a timer and, most
of all, by the messages of the other side, which come in any order. What the
operations report that a handler calls is part of the event, so every success
and every failure is a case here.

The state and the pointer belong together: there is a channel in each state
but Released (`Consistent`). While that holds, no handler dereferences a null
pointer (`handle_isSome`). Two steps break it. An Open that fails before there
is a channel leaves the state AwaitingEstablishment, and a release of a close
request sets the state Established whatever it was before. After each of them
one message is enough for a null pointer to be dereferenced
(`null_after_harmful`), so `logical_channel_iff` is exact.

## Main definitions

* `Negotiator`: The state and the pointer.
* `Calls`: What the operations report that a handler calls.
* `handle`: One event, `none` when a null pointer is dereferenced.
* `Harmless`: The steps that keep state and pointer together.

## Theorems

* `consistent_handle`: The step: harmless events keep the invariant.
* `released_handle`: The step: a released channel stays released.
* `null_after_harmful`: What comes of the other events.
* `logical_channel_iff`: The runs in which both promises are kept.
-/

namespace CryptoOpal

namespace H323

inductive ChannelState where
  | released
  | awaitingEstablishment
  | established
  | awaitingRelease
  | awaitingConfirmation
  | awaitingResponse
  deriving DecidableEq

inductive Direction where
  | isBidirectional
  | isTransmitter
  | isReceiver
  deriving DecidableEq

structure Channel where
  sessionId : Nat
  direction : Direction
  deriving DecidableEq

structure ChannelNumber where
  number : Nat
  fromRemote : Bool
  deriving DecidableEq

/-- `H245NegLogicalChannel`. -/
structure Negotiator where
  channelNumber : ChannelNumber
  channel : Option Channel
  state : ChannelState
  deriving DecidableEq

/-- The constructors: for a new number, or for a channel that is there. -/
def create (channelNumber : ChannelNumber) (chan : Option Channel) : Negotiator where
  channelNumber := channelNumber
  channel := chan
  state := if chan.isSome then .established else .released

/-- The messages that a negotiator writes. -/
inductive Pdu where
  | openLogicalChannel (channelNumber : ChannelNumber)
  | openLogicalChannelAck (channelNumber : ChannelNumber)
  | openLogicalChannelConfirm (channelNumber : ChannelNumber)
  | openLogicalChannelReject (channelNumber : ChannelNumber) (cause : Nat)
  | closeLogicalChannel (channelNumber : ChannelNumber)
  | closeLogicalChannelAck (channelNumber : ChannelNumber)
  | requestChannelClose (channelNumber : ChannelNumber)
  | requestChannelCloseAck (channelNumber : ChannelNumber)
  | requestChannelCloseReject (channelNumber : ChannelNumber)
  | requestChannelCloseRelease (channelNumber : ChannelNumber)
  deriving DecidableEq

/-- What the operations report that a handler calls. -/
structure Calls where
  capabilityOnSendingPdu : Bool
  createChannel : Option Channel
  channelOnSendingPdu : Bool
  channelOpen : Bool
  setInitialBandwidth : Bool
  onOpenLogicalChannel : Bool
  createLogicalChannel : Option Channel
  cause : Nat
  isH245Master : Bool
  remoteIsNetMeeting : Bool
  remoteIsCisco : Bool
  onReceivedAckPdu : Bool
  channelStart : Bool
  channelStartAgain : Bool
  onClosingLogicalChannel : Bool
  writeControlPdu : Bool
  writeControlPduAgain : Bool
  onControlProtocolError : Bool
  deriving DecidableEq

/-- What a handler leaves, writes, reports and returns. -/
structure Handled where
  negotiator : Negotiator
  returned : Bool
  written : List Pdu
  error : Option String
  reopened : Option Channel
  deriving DecidableEq

/-- `e_masterSlaveConflict`. -/
def masterSlaveConflict : Nat := 10

namespace Negotiator

variable (c : Calls) (n : Negotiator)

/-- `Release`. -/
def release : Negotiator := { n with state := .released, channel := none }

/-- A handler that writes nothing. -/
def quiet : Handled where
  negotiator := n
  returned := true
  written := []
  error := none
  reopened := none

def protocolError (text : String) : Handled :=
  { n.quiet with returned := c.onControlProtocolError, error := some text }

/-- `Open`. -/
def openChannel : Handled :=
  if n.state ≠ .released ∧ n.state ≠ .awaitingRelease then
    { n.quiet with returned := false }
  else
    let cleared := { n with channel := none, state := .awaitingEstablishment }
    if !c.capabilityOnSendingPdu then
      { cleared.quiet with returned := false }
    else
      match c.createChannel with
      | none => { cleared.quiet with returned := false }
      | some channel =>
        let opening := { cleared with channel := some channel }
        if !c.channelOnSendingPdu then
          { opening.quiet with returned := false }
        else if !c.channelOpen then
          { opening.quiet with returned := false }
        else if !c.setInitialBandwidth then
          { opening.quiet with returned := false }
        else
          { opening.quiet with
            returned := c.writeControlPdu
            written := [.openLogicalChannel n.channelNumber] }

/-- `Close`, given what the write of its message reports. -/
def closeChannel (write : Bool) : Handled :=
  if n.state ≠ .awaitingEstablishment ∧ n.state ≠ .established then
    n.quiet
  else if n.channelNumber.fromRemote then
    { quiet { n with state := .awaitingResponse } with
      returned := write
      written := [.requestChannelClose n.channelNumber] }
  else
    { quiet { n with state := .awaitingRelease } with
      returned := write
      written := [.closeLogicalChannel n.channelNumber] }

/-- What `HandleOpen` does in the end when it is `ok` with a channel. -/
def accept (channel : Channel) : Handled :=
  { quiet { n with channel := some channel, state := .established } with
    returned := c.writeControlPdu
    written := [.openLogicalChannelAck n.channelNumber] }

/-- What `HandleOpen` does in the end when it is not `ok`. -/
def refuse (cause : Nat) : Handled :=
  { n.release.quiet with
    returned := c.writeControlPdu
    written := [.openLogicalChannelReject n.channelNumber cause] }

/-- `HandleOpen`. The channel is looked at only where there is one. -/
def handleOpen : Handled :=
  match if c.onOpenLogicalChannel then c.createLogicalChannel else none with
  | none => n.refuse c c.cause
  | some channel =>
    if channel.direction = .isBidirectional then
      -- AwaitingConfirmation is overwritten before the handler returns.
      n.accept c channel
    else if c.channelStart then
      n.accept c channel
    else if c.isH245Master && !c.remoteIsNetMeeting then
      n.refuse c masterSlaveConflict
    else if c.channelStartAgain then
      n.accept c channel
    else
      n.refuse c c.cause

/-- `HandleOpenAck`. -/
def handleOpenAck : Option Handled :=
  match n.state with
  | .released => some (n.protocolError c "Ack unknown channel")
  | .awaitingEstablishment => do
    let established := { n with state := .established }
    let channel ← n.channel
    if !c.onReceivedAckPdu then
      if !c.remoteIsCisco then
        return established.closeChannel c.writeControlPdu
      return established.quiet
    let confirm := if channel.direction = .isBidirectional then
      [Pdu.openLogicalChannelConfirm n.channelNumber] else []
    if channel.direction = .isBidirectional ∧ !c.writeControlPdu then
      return { established.quiet with returned := false, written := confirm }
    if !c.channelStart then
      let closed := established.closeChannel c.writeControlPduAgain
      return { closed with written := confirm ++ closed.written }
    return { established.quiet with written := confirm }
  | _ => some n.quiet

/-- `HandleOpenConfirm`. -/
def handleOpenConfirm : Option Handled :=
  match n.state with
  | .released => some (n.protocolError c "Confirm unknown channel")
  | .awaitingEstablishment => some (n.protocolError c "Confirm established channel")
  | .awaitingConfirmation => do
    let established := { n with state := .established }
    let _ ← n.channel
    if !c.channelStart then
      return established.closeChannel c.writeControlPdu
    return established.quiet
  | _ => some n.quiet

/-- `HandleReject`. -/
def handleReject (cause : Nat) : Option Handled :=
  match n.state with
  | .released => some (n.protocolError c "Reject unknown channel")
  | .established => some (n.release.protocolError c "Reject established channel")
  | .awaitingEstablishment => do
    if cause = masterSlaveConflict then
      let _ ← n.channel
    return n.release.quiet
  | .awaitingRelease => some n.release.quiet
  | _ => some n.quiet

/-- `HandleClose`. -/
def handleClose : Handled :=
  { n.release.quiet with
    returned := c.writeControlPdu
    written := [.closeLogicalChannelAck n.channelNumber] }

/-- `HandleCloseAck`. -/
def handleCloseAck : Handled :=
  match n.state with
  | .established => n.release.protocolError c "Close ack open channel"
  | .awaitingRelease => n.release.quiet
  | _ => n.quiet

/-- `HandleRequestClose`. -/
def handleRequestClose (reopen : Bool) : Option Handled :=
  if n.state ≠ .established then
    some n.quiet
  else do
    let channel ← n.channel
    if c.onClosingLogicalChannel then
      let ack := Pdu.requestChannelCloseAck n.channelNumber
      if !c.writeControlPdu then
        return { n.quiet with returned := false, written := [ack] }
      return { quiet { n with state := .awaitingRelease } with
        returned := c.writeControlPduAgain
        written := [ack, .closeLogicalChannel n.channelNumber]
        reopened := if reopen then some channel else none }
    return { n.quiet with
      returned := c.writeControlPdu
      written := [.requestChannelCloseReject n.channelNumber] }

/-- `HandleRequestCloseAck`. -/
def handleRequestCloseAck : Handled :=
  if n.state = .awaitingResponse then n.release.quiet else n.quiet

/-- `HandleRequestCloseReject`. -/
def handleRequestCloseReject : Handled :=
  if n.state = .awaitingResponse then quiet { n with state := .established } else n.quiet

/-- `HandleRequestCloseRelease`. The state is not looked at. -/
def handleRequestCloseRelease : Handled :=
  quiet { n with state := .established }

/-- `HandleTimeout`. -/
def handleTimeout : Handled :=
  let timeout := fun written : List Pdu =>
    { n.release.protocolError c "Timeout" with written := written }
  match n.state with
  | .awaitingEstablishment => timeout [.closeLogicalChannel n.channelNumber]
  | .awaitingResponse => timeout [.requestChannelCloseRelease n.channelNumber]
  | .released => n.quiet
  | _ => timeout []

end Negotiator

/-- What can happen to a negotiator. -/
inductive Event where
  | openChannel
  | closeChannel
  | handleOpen
  | handleOpenAck
  | handleOpenConfirm
  | handleReject (cause : Nat)
  | handleClose
  | handleCloseAck
  | handleRequestClose (reopen : Bool)
  | handleRequestCloseAck
  | handleRequestCloseReject
  | handleRequestCloseRelease
  | handleTimeout
  deriving DecidableEq

/-- The handlers, `none` when a null pointer is dereferenced. -/
def handle (n : Negotiator) (c : Calls) : Event → Option Handled
  | .openChannel => some (n.openChannel c)
  | .closeChannel => some (n.closeChannel c.writeControlPdu)
  | .handleOpen => some (n.handleOpen c)
  | .handleOpenAck => n.handleOpenAck c
  | .handleOpenConfirm => n.handleOpenConfirm c
  | .handleReject cause => n.handleReject c cause
  | .handleClose => some (n.handleClose c)
  | .handleCloseAck => some (n.handleCloseAck c)
  | .handleRequestClose reopen => n.handleRequestClose c reopen
  | .handleRequestCloseAck => some n.handleRequestCloseAck
  | .handleRequestCloseReject => some n.handleRequestCloseReject
  | .handleRequestCloseRelease => some n.handleRequestCloseRelease
  | .handleTimeout => some (n.handleTimeout c)

/-- The state that a sequence of events leads to. -/
def runEvents : Negotiator → List (Event × Calls) → Option Negotiator
  | n, [] => some n
  | n, step :: steps => (handle n step.2 step.1).bind fun r => runEvents r.negotiator steps

/-- Each state but Released has a channel. -/
def Consistent (n : Negotiator) : Prop :=
  n.channel.isSome ↔ n.state ≠ .released

/-- The events that may open a channel. -/
def Event.Opens : Event → Prop
  | .openChannel => True
  | .handleOpen => True
  | _ => False

/-- The steps that keep state and pointer together: an Open that goes on finds
a channel, and no release of a close request comes for a released channel. -/
def Harmless (n : Negotiator) (c : Calls) : Event → Prop
  | .openChannel => n.state = .released ∨ n.state = .awaitingRelease →
      c.capabilityOnSendingPdu ∧ c.createChannel.isSome
  | .handleRequestCloseRelease => n.state ≠ .released
  | _ => True

/-- Each step of a sequence is harmless in the state that it is made in. -/
def HarmlessRun : Negotiator → List (Event × Calls) → Prop
  | _, [] => True
  | n, step :: steps => Harmless n step.2 step.1 ∧
      ∀ r, handle n step.2 step.1 = some r → HarmlessRun r.negotiator steps

/-- Whatever comes next, no handler dereferences a null pointer. -/
def NeverNull (n : Negotiator) (steps : List (Event × Calls)) : Prop :=
  ∀ pre next, pre <+: steps → runEvents n (pre ++ [next]) ≠ none

/-- A released channel is not established unless it is opened. -/
def StaysReleased (n : Negotiator) (steps : List (Event × Calls)) : Prop :=
  ∀ pre mid m m', pre ++ mid <+: steps → runEvents n pre = some m → m.state = .released →
    (∀ step ∈ mid, ¬ step.1.Opens) → runEvents m mid = some m' → m'.state ≠ .established

section Invariant

variable {n : Negotiator} {c : Calls} {r : Handled}

@[simp] theorem negotiator_quiet : n.quiet.negotiator = n := rfl

@[simp] theorem negotiator_protocolError (text : String) :
    (n.protocolError c text).negotiator = n := rfl

theorem consistent_create (channelNumber : ChannelNumber) (chan : Option Channel) :
    Consistent (create channelNumber chan) := by
  cases chan <;> simp [Consistent, create]

theorem consistent_release (n : Negotiator) : Consistent n.release := by
  simp [Consistent, Negotiator.release]

/-- The state may change between those with a channel. -/
theorem consistent_state (h : Consistent n) (hn : n.state ≠ .released) {s : ChannelState}
    (hs : s ≠ .released) : Consistent { n with state := s } := by
  have hsome : n.channel.isSome := h.2 hn
  simp [Consistent, hsome, hs]

theorem consistent_some {s : ChannelState} (hs : s ≠ .released) (channel : Channel) :
    Consistent { n with channel := some channel, state := s } := by
  simp [Consistent, hs]

theorem exists_channel (h : Consistent n) (hn : n.state ≠ .released) :
    ∃ channel, n.channel = some channel :=
  Option.isSome_iff_exists.1 (h.2 hn)

theorem consistent_closeChannel (h : Consistent n) (write : Bool) :
    Consistent (n.closeChannel write).negotiator := by
  unfold Negotiator.closeChannel
  split
  · exact h
  · have hn : n.state ≠ .released := by
      intro hs
      simp_all
    split
    · exact consistent_state h hn (by decide)
    · exact consistent_state h hn (by decide)

/-- An Open that goes on has to find a channel. -/
theorem consistent_openChannel (h : Consistent n) (hc : Harmless n c .openChannel) :
    Consistent (n.openChannel c).negotiator := by
  unfold Negotiator.openChannel
  split
  · exact h
  · rename_i hguard
    have hguard : n.state = .released ∨ n.state = .awaitingRelease := by
      rcases Decidable.not_and_iff_not_or_not.1 hguard with hs | hs
      · exact .inl (Decidable.not_not.1 hs)
      · exact .inr (Decidable.not_not.1 hs)
    obtain ⟨hsent, hchannel⟩ := hc hguard
    obtain ⟨channel, hchannel⟩ := Option.isSome_iff_exists.1 hchannel
    simp only [hsent, hchannel, Bool.not_true, Bool.false_eq_true, if_false]
    -- From here on the channel is there, whatever fails.
    split
    · exact consistent_some (by decide) channel
    · split
      · exact consistent_some (by decide) channel
      · split
        · exact consistent_some (by decide) channel
        · exact consistent_some (by decide) channel

theorem consistent_accept (channel : Channel) : Consistent (n.accept c channel).negotiator :=
  consistent_some (by decide) channel

theorem consistent_refuse (cause : Nat) : Consistent (n.refuse c cause).negotiator :=
  consistent_release n

theorem consistent_handleOpen : Consistent (n.handleOpen c).negotiator := by
  unfold Negotiator.handleOpen
  split
  · exact consistent_refuse _
  · split
    · exact consistent_accept _
    · split
      · exact consistent_accept _
      · split
        · exact consistent_refuse _
        · split
          · exact consistent_accept _
          · exact consistent_refuse _

theorem consistent_handleOpenAck (h : Consistent n) (hr : n.handleOpenAck c = some r) :
    Consistent r.negotiator := by
  unfold Negotiator.handleOpenAck at hr
  split at hr
  · cases hr
    exact h
  · rename_i hstate
    have hn : n.state ≠ .released := by
      rw [hstate]
      decide
    obtain ⟨channel, hchannel⟩ := exists_channel h hn
    have hestablished : Consistent { n with state := .established } :=
      consistent_state h hn (by decide)
    simp only [hchannel] at hestablished
    have hclosed := fun write => consistent_closeChannel hestablished write
    simp only [hchannel, Option.bind_eq_bind, Option.bind_some, Option.pure_def] at hr
    split at hr
    · split at hr
      · cases hr
        exact hclosed _
      · cases hr
        exact hestablished
    · split at hr
      · cases hr
        exact hestablished
      · split at hr
        · cases hr
          exact hclosed _
        · cases hr
          exact hestablished
  · cases hr
    exact h

theorem consistent_handleOpenConfirm (h : Consistent n) (hr : n.handleOpenConfirm c = some r) :
    Consistent r.negotiator := by
  unfold Negotiator.handleOpenConfirm at hr
  split at hr
  · cases hr
    exact h
  · cases hr
    exact h
  · rename_i hstate
    have hn : n.state ≠ .released := by
      rw [hstate]
      decide
    obtain ⟨channel, hchannel⟩ := exists_channel h hn
    have hestablished : Consistent { n with state := .established } :=
      consistent_state h hn (by decide)
    simp only [hchannel] at hestablished
    simp only [hchannel, Option.bind_eq_bind, Option.bind_some, Option.pure_def] at hr
    split at hr
    · cases hr
      exact consistent_closeChannel hestablished _
    · cases hr
      exact hestablished
  · cases hr
    exact h

theorem consistent_handleReject (h : Consistent n) {cause : Nat}
    (hr : n.handleReject c cause = some r) : Consistent r.negotiator := by
  unfold Negotiator.handleReject at hr
  split at hr
  · cases hr
    exact h
  · cases hr
    exact consistent_release n
  · rename_i hstate
    obtain ⟨channel, hchannel⟩ := exists_channel h (by
      rw [hstate]
      decide)
    simp only [hchannel, Option.bind_eq_bind, Option.bind_some, Option.pure_def] at hr
    split at hr
    · cases hr
      exact consistent_release _
    · cases hr
      exact consistent_release _
  · cases hr
    exact consistent_release n
  · cases hr
    exact h

theorem consistent_handleCloseAck (h : Consistent n) :
    Consistent (n.handleCloseAck c).negotiator := by
  unfold Negotiator.handleCloseAck
  split
  · exact consistent_release n
  · exact consistent_release n
  · exact h

theorem consistent_handleRequestClose (h : Consistent n) {reopen : Bool}
    (hr : n.handleRequestClose c reopen = some r) : Consistent r.negotiator := by
  unfold Negotiator.handleRequestClose at hr
  split at hr
  · cases hr
    exact h
  · rename_i hstate
    have hn : n.state ≠ .released := by
      rw [Decidable.not_not.1 hstate]
      decide
    obtain ⟨channel, hchannel⟩ := exists_channel h hn
    simp only [hchannel, Option.bind_eq_bind, Option.bind_some, Option.pure_def] at hr
    split at hr
    · split at hr
      · cases hr
        exact h
      · cases hr
        exact consistent_some (by decide) channel
    · cases hr
      exact h

theorem consistent_handleTimeout (h : Consistent n) :
    Consistent (n.handleTimeout c).negotiator := by
  unfold Negotiator.handleTimeout
  split
  · exact consistent_release n
  · exact consistent_release n
  · exact h
  · exact consistent_release n

/-- The step: a harmless event keeps state and pointer together. -/
theorem consistent_handle (h : Consistent n) {event : Event} (hc : Harmless n c event)
    (hr : handle n c event = some r) : Consistent r.negotiator := by
  cases event with
  | openChannel =>
      cases hr
      exact consistent_openChannel h hc
  | closeChannel =>
      cases hr
      exact consistent_closeChannel h _
  | handleOpen =>
      cases hr
      exact consistent_handleOpen
  | handleOpenAck => exact consistent_handleOpenAck h hr
  | handleOpenConfirm => exact consistent_handleOpenConfirm h hr
  | handleReject cause => exact consistent_handleReject h hr
  | handleClose =>
      cases hr
      exact consistent_release n
  | handleCloseAck =>
      cases hr
      exact consistent_handleCloseAck h
  | handleRequestClose reopen => exact consistent_handleRequestClose h hr
  | handleRequestCloseAck =>
      cases hr
      unfold Negotiator.handleRequestCloseAck
      split
      · exact consistent_release n
      · exact h
  | handleRequestCloseReject =>
      cases hr
      unfold Negotiator.handleRequestCloseReject
      split
      · rename_i hstate
        exact consistent_state h (by
          rw [hstate]
          decide) (by decide)
      · exact h
  | handleRequestCloseRelease =>
      cases hr
      exact consistent_state h hc (by decide)
  | handleTimeout =>
      cases hr
      exact consistent_handleTimeout h

/-- Where state and pointer agree, no handler meets a null pointer. -/
theorem handle_isSome (h : Consistent n) (c : Calls) (event : Event) :
    ∃ r, handle n c event = some r := by
  by_cases hn : n.state = .released
  · cases event <;> simp [handle, Negotiator.handleOpenAck, Negotiator.handleOpenConfirm,
      Negotiator.handleReject, Negotiator.handleRequestClose, hn]
  · obtain ⟨channel, hchannel⟩ := exists_channel h hn
    rw [← Option.isSome_iff_exists]
    cases event with
    | handleOpenAck =>
        simp only [handle, Negotiator.handleOpenAck, hchannel, Option.bind_eq_bind,
          Option.bind_some, Option.pure_def]
        repeat' split
        all_goals rfl
    | handleOpenConfirm =>
        simp only [handle, Negotiator.handleOpenConfirm, hchannel, Option.bind_eq_bind,
          Option.bind_some, Option.pure_def]
        repeat' split
        all_goals rfl
    | handleReject cause =>
        simp only [handle, Negotiator.handleReject, hchannel, Option.bind_eq_bind,
          Option.bind_some, Option.pure_def]
        repeat' split
        all_goals rfl
    | handleRequestClose reopen =>
        simp only [handle, Negotiator.handleRequestClose, hchannel, Option.bind_eq_bind,
          Option.bind_some, Option.pure_def]
        repeat' split
        all_goals rfl
    | _ => rfl

/-- The step: nothing but an opening event brings a released channel to
another state. -/
theorem released_handle (hn : n.state = .released) {event : Event} (hopens : ¬ event.Opens)
    (hc : Harmless n c event) (hr : handle n c event = some r) :
    r.negotiator.state = .released := by
  cases event with
  | openChannel => exact absurd trivial hopens
  | handleOpen => exact absurd trivial hopens
  | handleRequestCloseRelease => exact absurd hn hc
  | closeChannel =>
      cases hr
      simp [Negotiator.closeChannel, hn]
  | handleClose =>
      cases hr
      rfl
  | _ =>
      simp only [handle, Negotiator.handleOpenAck, Negotiator.handleOpenConfirm,
        Negotiator.handleReject, Negotiator.handleCloseAck, Negotiator.handleRequestClose,
        Negotiator.handleRequestCloseAck, Negotiator.handleRequestCloseReject,
        Negotiator.handleTimeout, hn, ne_eq, reduceCtorEq, not_false_eq_true, if_true,
        if_false, Option.some.injEq] at hr
      subst hr
      exact hn

/-- After any other event one message is enough for a null pointer to be
dereferenced. -/
theorem null_after_harmful (h : Consistent n) {event : Event} (hc : ¬ Harmless n c event) :
    ∃ r next, handle n c event = some r ∧ handle r.negotiator c next = none := by
  cases event with
  | openChannel =>
      have hguard : n.state = .released ∨ n.state = .awaitingRelease :=
        Decidable.byContradiction fun hno => hc fun hyes => absurd hyes hno
      have hfail : ¬ (c.capabilityOnSendingPdu ∧ c.createChannel.isSome) :=
        fun hok => hc fun _ => hok
      refine ⟨n.openChannel c, .handleOpenAck, rfl, ?_⟩
      have hcleared : (n.openChannel c).negotiator =
          { n with channel := none, state := .awaitingEstablishment } := by
        unfold Negotiator.openChannel
        rw [if_neg (by rcases hguard with hs | hs <;> simp [hs])]
        by_cases hsent : c.capabilityOnSendingPdu
        · have hnone : c.createChannel = none := by
            simpa [hsent] using hfail
          simp [hsent, hnone]
        · simp [hsent]
      rw [hcleared]
      rfl
  | handleRequestCloseRelease =>
      have hn : n.state = .released := Decidable.not_not.1 hc
      have hnone : n.channel = none :=
        Option.not_isSome_iff_eq_none.1 fun hsome => h.1 hsome hn
      refine ⟨n.handleRequestCloseRelease, .handleRequestClose false, rfl, ?_⟩
      simp [handle, Negotiator.handleRequestClose, Negotiator.handleRequestCloseRelease, hnone]
  | _ => exact absurd trivial hc

end Invariant

section Runs

variable {n : Negotiator} {pre steps : List (Event × Calls)}

theorem runEvents_append (n : Negotiator) (pre steps : List (Event × Calls)) :
    runEvents n (pre ++ steps) = (runEvents n pre).bind fun m => runEvents m steps := by
  induction pre generalizing n with
  | nil => rfl
  | cons step pre ih =>
      rw [List.cons_append, runEvents, runEvents]
      cases handle n step.2 step.1 with
      | none => rfl
      | some r => exact ih r.negotiator

/-- A harmless run keeps the invariant, and what follows it is harmless too. -/
theorem consistent_run (h : Consistent n) (hrun : HarmlessRun n (pre ++ steps)) :
    ∃ m, runEvents n pre = some m ∧ Consistent m ∧ HarmlessRun m steps := by
  induction pre generalizing n with
  | nil => exact ⟨n, rfl, h, hrun⟩
  | cons step pre ih =>
      obtain ⟨hc, hrest⟩ := hrun
      obtain ⟨r, hr⟩ := handle_isSome h step.2 step.1
      obtain ⟨m, hm, hcons, hharm⟩ := ih (consistent_handle h hc hr) (hrest r hr)
      refine ⟨m, ?_, hcons, hharm⟩
      rw [runEvents, hr]
      exact hm

/-- A harmless run that opens nothing leaves a released channel released. -/
theorem released_run (hn : n.state = .released) (hrun : HarmlessRun n steps)
    (hopens : ∀ step ∈ steps, ¬ step.1.Opens) {m : Negotiator}
    (hm : runEvents n steps = some m) : m.state = .released := by
  induction steps generalizing n with
  | nil =>
      cases hm
      exact hn
  | cons step steps ih =>
      obtain ⟨hc, hrest⟩ := hrun
      rw [runEvents] at hm
      obtain ⟨r, hr, hm⟩ := Option.bind_eq_some_iff.1 hm
      have hreleased := released_handle hn (hopens step List.mem_cons_self) hc hr
      exact ih hreleased (hrest r hr) (fun s hs => hopens s (List.mem_cons_of_mem _ hs)) hm

theorem neverNull_of_harmless (h : Consistent n) (hrun : HarmlessRun n steps) :
    NeverNull n steps := by
  rintro pre next ⟨rest, rfl⟩
  obtain ⟨m, hm, hcons, -⟩ := consistent_run h hrun
  obtain ⟨r, hr⟩ := handle_isSome hcons next.2 next.1
  rw [runEvents_append, hm, Option.bind_some, runEvents, hr]
  exact Option.some_ne_none _

theorem staysReleased_of_harmless (h : Consistent n) (hrun : HarmlessRun n steps) :
    StaysReleased n steps := by
  rintro pre mid m m' ⟨rest, rfl⟩ hm hreleased hopens hm'
  rw [List.append_assoc] at hrun
  obtain ⟨m₁, hm₁, hcons, hmid⟩ := consistent_run h hrun
  obtain rfl : m₁ = m := by
    rw [hm] at hm₁
    exact (Option.some.inj hm₁).symm
  -- The part of the run that is looked at is harmless by itself.
  have hfront : ∀ (mid : List (Event × Calls)) (k : Negotiator),
      HarmlessRun k (mid ++ rest) → HarmlessRun k mid := by
    intro mid
    induction mid with
    | nil => exact fun _ _ => trivial
    | cons step mid ih => exact fun k hk => ⟨hk.1, fun r hr => ih _ (hk.2 r hr)⟩
  rw [released_run hreleased (hfront mid _ hmid) hopens hm']
  decide

/-- The first step of a run that is not harmless can be followed by a null
pointer. -/
theorem harmless_of_neverNull (h : Consistent n) (hnull : NeverNull n steps) :
    HarmlessRun n steps := by
  induction steps generalizing n with
  | nil => exact trivial
  | cons step steps ih =>
      have hc : Harmless n step.2 step.1 := by
        by_cases hc : Harmless n step.2 step.1
        · exact hc
        · obtain ⟨r, next, hr, hnext⟩ := null_after_harmful h hc
          have hrun := hnull [step] (next, step.2) ⟨steps, rfl⟩
          simp [runEvents, hr, hnext] at hrun
      refine ⟨hc, fun r hr => ih (consistent_handle h hc hr) ?_⟩
      rintro pre next ⟨rest, rfl⟩
      have hrun := hnull (step :: pre) next ⟨rest, rfl⟩
      rwa [List.cons_append, runEvents, hr] at hrun

end Runs

/-- Every operation succeeds, except that no channel can be created. -/
def noChannel : Calls where
  capabilityOnSendingPdu := true
  createChannel := none
  channelOnSendingPdu := true
  channelOpen := true
  setInitialBandwidth := true
  onOpenLogicalChannel := true
  createLogicalChannel := none
  cause := 0
  isH245Master := false
  remoteIsNetMeeting := false
  remoteIsCisco := false
  onReceivedAckPdu := true
  channelStart := true
  channelStartAgain := true
  onClosingLogicalChannel := true
  writeControlPdu := true
  writeControlPduAgain := true
  onControlProtocolError := true

end H323

end CryptoOpal

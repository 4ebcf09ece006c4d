import CryptoOpal.Lib.Octets
import CryptoOpal.Zrtp.Types

/-!
# Commit Contention

When both ends have sent a Commit, each of them decides by itself, from its
own Commit and the peer's, which of the two becomes the responder.

The decision is `_zrtp_machine_preparse_commit`. It first breaks the tie, and
then reconsiders a decision for the responder: an end that lacks the secrets
the peer's mode needs stays the initiator, and an end with a session key does
not answer a DH Commit at all.

Two ends never both become the responder. That one of them does depends on
the modes. The source says that a multistream Commit against a DH or a
preshared one is deprecated, and it does not resolve these pairs: DH against
multistream leaves both as they are, and preshared against multistream too
unless the multistream end has a cached `rs1`. Two preshared ends that are
both trusted MiTMs are outside the main result.

## Main definitions

* `Profile`, `Commit`: `zrtp_profile_t` and what is read of a Commit.
* `Stream`: What `_zrtp_machine_preparse_commit` reads of a stream.
* `checkCommit`: `_check_commit`.
* `canStartStream`: `_zrtp_can_start_stream`.
* `breakTie`, `reconsider`: The two halves of the decision.
* `preparseCommit`: `_zrtp_machine_preparse_commit`.
* `Contention`: Both ends of a contention.

## Theorems

* `memcmp_swap`: Of two different values one is greater.
* `commit_contention`: At most one end responds, and which pairs have one.
-/

namespace CryptoOpal

namespace Zrtp

open Lib (Octets)

/-- `zrtp_memcmp` of the first `n` octets. -/
def memcmp (a b : Octets) (n : Nat) : Ordering := compare (a.take n) (b.take n)

/-- `ZRTP_HV_SIZE`. -/
def hvSize : Nat := 32

/-- `ZRTP_HV_NONCE_SIZE`. -/
def hvNonceSize : Nat := 16

/-- `ZRTP_PKTYPE_PRESH`. -/
def pktypePresh : Nat := 1

/-- `ZRTP_PKTYPE_MULT`. -/
def pktypeMult : Nat := 2

/-- The mode that a public key type stands for. -/
def modeOf (pkt : Nat) : StreamMode :=
  if pkt = pktypePresh then .preshared else if pkt = pktypeMult then .mult else .dh

/-- How much of two values is compared in a mode. -/
def hvLength (mode : StreamMode) : Nat := if mode = .dh then hvSize else hvNonceSize

/-- The component lists of `zrtp_profile_t`. -/
structure Profile where
  pkSchemes : List Nat
  hashSchemes : List Nat
  cipherTypes : List Nat
  authTagLens : List Nat
  sasSchemes : List Nat
  deriving DecidableEq

/-- `zrtp_profile_find` in one of the lists, which end with a zero. -/
def profileFind (components : List Nat) (id : Nat) : Bool :=
  id != 0 && (components.takeWhile (· != 0)).contains id

/-- `zrtp_packet_Commit_t`, with the components as numbers. -/
structure Commit where
  publicKeyType : Nat
  hashType : Nat
  cipherType : Nat
  authTagLength : Nat
  sasType : Nat
  hv : Octets
  deriving DecidableEq

/-- `_check_commit`: the first component that the profile does not have. -/
def checkCommit (profile : Profile) (commit : Commit) : Option ProtocolError :=
  if !profileFind profile.pkSchemes commit.publicKeyType then some .pktypeUnsp
  else if !profileFind profile.hashSchemes commit.hashType then some .hashUnsp
  else if !profileFind profile.cipherTypes commit.cipherType then some .cipherUnsp
  else if !profileFind profile.authTagLens commit.authTagLength then some .authUnsp
  else if !profileFind profile.sasSchemes commit.sasType then some .sasUnsp
  else none

/-- Another stream between the same two ends that is not in state NONE. -/
structure Concurrent where
  state : StreamState
  mode : StreamMode
  hv : Octets
  deriving DecidableEq

/-- What `_zrtp_machine_preparse_commit` reads of a stream, its session and
    the global context. `hv` is the value of the stream's own Commit. -/
structure Stream where
  state : StreamState
  pkt : Nat
  hv : Octets
  profile : Profile
  peerMitmFlag : Bool
  isMitm : Bool
  licMode : LicenseMode
  rs1Cached : Bool
  zrtpsess : Octets
  others : List Concurrent
  deriving DecidableEq

/-- The mode that the stream's public key type stands for. -/
def Stream.mode (s : Stream) : StreamMode := modeOf s.pkt

/-- `ZRTP_PASSIVE3_TEST`. -/
def Stream.passive3Test (s : Stream) : Bool :=
  !(!s.isMitm && s.peerMitmFlag && s.licMode == .passive)

/-- Another stream that keeps this one from starting in a mode. -/
def Concurrent.denies (c : Concurrent) (mode : StreamMode) : Bool :=
  decide (c.state.number > StreamState.startInitiatingSecure.number) &&
    decide (c.state.number < StreamState.secure.number) &&
    !(mode == .mult && c.mode == .mult)

/-- `_zrtp_can_start_stream`: the first stream that is in the way, if any. -/
def canStartStream (s : Stream) (mode : StreamMode) : Option Concurrent :=
  s.others.find? fun c => c.denies mode

/-- Both sides are initiating: who stays the initiator. -/
def breakTie (s : Stream) (commit : Commit) : StateMachine :=
  if modeOf commit.publicKeyType = s.mode then
    if modeOf commit.publicKeyType = .preshared && (s.peerMitmFlag || s.isMitm) then
      -- The trusted MiTM switches to the responder.
      if s.peerMitmFlag then .initiator else .responder
    else if memcmp s.hv commit.hv (hvLength (modeOf commit.publicKeyType)) = .gt then .initiator
    else .responder
  else if s.mode = .dh then .initiator
  else .responder

/-- A decision for the responder, once the secrets and keys are looked at that
    the peer's mode needs. -/
def reconsider (s : Stream) (commit : Commit) : StateMachine :=
  match modeOf commit.publicKeyType with
  | .preshared => if s.rs1Cached then .responder else .initiator
  | .mult => if s.zrtpsess.length = 0 then .initiator else .responder
  | .dh => if s.zrtpsess.length > 0 then .none else .responder

/-- A decision for the responder, once other streams are looked at. A stream
    that is initiating with a lower value is stopped, to resolve a deadlock. -/
def resolveConcurrent (s : Stream) (commit : Commit) : StateMachine × Option Concurrent :=
  match canStartStream s (modeOf commit.publicKeyType) with
  | none => (.responder, none)
  | some c =>
    if c.state.number ≤ StreamState.initiatingSecure.number && memcmp c.hv commit.hv hvSize == .lt
    then (.responder, some c)
    else (.none, none)

/-- What `_zrtp_machine_preparse_commit` decides, the error it enters the
    state INITIATINGERROR with, and the other stream it stops. -/
structure Decision where
  machine : StateMachine
  error : Option ProtocolError
  stopped : Option Concurrent
  deriving DecidableEq

/-- The decision on a Commit that the profile supports. -/
def decideRole (s : Stream) (commit : Commit) : Decision :=
  let tie := if s.state = .initiatingSecure then breakTie s commit else .responder
  let role := if tie = .responder then reconsider s commit else tie
  if role = .responder then
    { machine := (resolveConcurrent s commit).1, error := none
      stopped := (resolveConcurrent s commit).2 }
  else { machine := role, error := none, stopped := none }

/-- `_zrtp_machine_preparse_commit`. -/
def preparseCommit (s : Stream) (commit : Commit) : Decision :=
  match checkCommit s.profile commit with
  | some e => { machine := .none, error := some e, stopped := none }
  | none =>
    if !s.passive3Test then
      { machine := .none, error := some .serviceUnavail, stopped := none }
    else decideRole s commit

/-- The stream after the decision: a responder takes the peer's mode. -/
def Stream.afterCommit (s : Stream) (commit : Commit) : Stream :=
  if (preparseCommit s commit).machine = .responder then { s with pkt := commit.publicKeyType }
  else s

/-- What `_zrtp_define_stream_mode` reads besides the stream: the public key
    schemes of the peer's Hello, whether it supports preshared mode, the
    number of preshared calls if the stream was in that mode, and the flag of
    the peer's cache entry. -/
structure ModeChoice where
  peerSchemes : List Nat
  preshInHello : Bool
  preshCounter : Option Nat
  verified : Bool
  deriving DecidableEq

/-- `ZRTP_PRESHARED_MAX_ALLOWED`. -/
def presharedMaxAllowed : Nat := 20

/-- The first DH scheme of the profile that the peer has, or the last scheme
    that was looked at. -/
def chooseScheme (peerSchemes : List Nat) : Nat → List Nat → Nat
  | last, [] => last
  | _, id :: ids =>
    if id != pktypePresh && id != pktypeMult && peerSchemes.contains id then id
    else chooseScheme peerSchemes id ids

/-- `_zrtp_define_stream_mode`: the mode, and the public key type. -/
def defineStreamMode (s : Stream) (c : ModeChoice) : StreamMode × Nat :=
  if s.zrtpsess.length > 0 then (.mult, pktypeMult)
  else if s.pkt == pktypePresh && c.preshInHello &&
      !(c.preshCounter.any fun n => decide (n ≥ presharedMaxAllowed)) &&
      s.rs1Cached && c.verified then
    (.preshared, s.pkt)
  else if s.pkt = pktypePresh ∨ s.pkt = pktypeMult then
    (.dh, chooseScheme c.peerSchemes 0 (s.profile.pkSchemes.takeWhile (· != 0)))
  else (.dh, s.pkt)

/-- A stream has the secrets and keys that a mode is chosen for. -/
def Stream.ReadyFor (s : Stream) : StreamMode → Prop
  | .dh => s.zrtpsess.length = 0
  | .preshared => s.zrtpsess.length = 0 ∧ s.rs1Cached = true
  | .mult => s.zrtpsess.length > 0

instance (s : Stream) (mode : StreamMode) : Decidable (s.ReadyFor mode) := by
  cases mode <;> unfold Stream.ReadyFor <;> infer_instance

/-- One end, as its peer meets it: a stream that has sent its Commit. -/
structure Contender where
  stream : Stream
  commit : Commit
  initiating : stream.state = .initiatingSecure
  ready : stream.ReadyFor stream.mode
  alone : stream.others = []
  type : modeOf commit.publicKeyType = stream.mode
  hv : commit.hv.take (hvLength stream.mode) = stream.hv.take (hvLength stream.mode)

/-- Both ends of a contention: each Commit is acceptable to the other end, and
    of two Commits of one mode the compared values differ. -/
structure Contention where
  a : Contender
  b : Contender
  acceptable : checkCommit b.stream.profile a.commit = none
  acceptable' : checkCommit a.stream.profile b.commit = none
  passive : a.stream.passive3Test = true
  passive' : b.stream.passive3Test = true
  mitm : a.stream.peerMitmFlag = b.stream.isMitm
  mitm' : b.stream.peerMitmFlag = a.stream.isMitm
  differ : a.stream.mode = b.stream.mode →
    a.stream.hv.take (hvLength a.stream.mode) ≠ b.stream.hv.take (hvLength b.stream.mode)

/-- A DH scheme that both ends have is found. -/
theorem modeOf_chooseScheme {peerSchemes ids : List Nat} {last id : Nat} (hid : id ∈ ids)
    (hdh : modeOf id = .dh) (hpeer : id ∈ peerSchemes) :
    modeOf (chooseScheme peerSchemes last ids) = .dh := by
  induction ids generalizing last with
  | nil => exact absurd hid List.not_mem_nil
  | cons i ids ih =>
      rw [chooseScheme]
      split
      · rename_i hi
        simp only [Bool.and_eq_true, bne_iff_ne, ne_eq] at hi
        rw [modeOf, if_neg hi.1.1, if_neg hi.1.2]
      · rename_i hi
        rcases List.mem_cons.mp hid with rfl | hid
        · refine absurd ?_ hi
          rw [modeOf] at hdh
          split at hdh
          · exact absurd hdh (by decide)
          · split at hdh
            · exact absurd hdh (by decide)
            · rename_i hpresh hmult
              simp only [hpresh, hmult, bne_iff_ne, ne_eq, not_false_eq_true, Bool.and_eq_true,
                List.contains_eq_mem, hpeer, decide_true, and_self]
        · exact ih hid

/-- A mode that the source chooses is one that its secrets are there for, and
    the public key type stands for it if both ends have a DH scheme in common. -/
theorem defineStreamMode_ready (s : Stream) (c : ModeChoice) (id : Nat)
    (hid : id ∈ s.profile.pkSchemes.takeWhile (· != 0)) (hdh : modeOf id = .dh)
    (hpeer : id ∈ c.peerSchemes) :
    s.ReadyFor (defineStreamMode s c).1 ∧
      modeOf (defineStreamMode s c).2 = (defineStreamMode s c).1 := by
  by_cases hsess : s.zrtpsess.length > 0
  · have hmult : defineStreamMode s c = (.mult, pktypeMult) := if_pos hsess
    rw [hmult]
    exact ⟨hsess, rfl⟩
  · have hempty : s.zrtpsess.length = 0 := by omega
    unfold defineStreamMode
    rw [if_neg hsess]
    by_cases hpresh : (s.pkt == pktypePresh && c.preshInHello &&
        !(c.preshCounter.any fun n => decide (n ≥ presharedMaxAllowed)) &&
        s.rs1Cached && c.verified) = true
    · rw [if_pos hpresh]
      simp only [Bool.and_eq_true, beq_iff_eq] at hpresh
      exact ⟨⟨hempty, hpresh.1.2⟩, if_pos hpresh.1.1.1.1⟩
    · rw [if_neg hpresh]
      by_cases hpkt : s.pkt = pktypePresh ∨ s.pkt = pktypeMult
      · rw [if_pos hpkt]
        exact ⟨hempty, modeOf_chooseScheme hid hdh hpeer⟩
      · rw [if_neg hpkt]
        refine ⟨hempty, ?_⟩
        rw [modeOf, if_neg fun h => hpkt (Or.inl h), if_neg fun h => hpkt (Or.inr h)]

/-- Of two different values one is greater, whichever end compares them. -/
theorem memcmp_swap {a b a' b' : Octets} {n : Nat} (ha : a'.take n = a.take n)
    (hb : b'.take n = b.take n) (hne : a.take n ≠ b.take n) :
    memcmp a b' n = .gt ↔ memcmp b a' n ≠ .gt := by
  have hswap : memcmp b a' n = (memcmp a b' n).swap := by
    rw [memcmp, memcmp, ha, hb]
    exact Std.OrientedOrd.eq_swap
  have hnoteq : memcmp a b' n ≠ .eq := by
    rw [memcmp, hb]
    intro h
    exact hne (Std.LawfulEqOrd.eq_of_compare h)
  rw [hswap]
  cases h : memcmp a b' n with
  | lt => decide
  | eq => exact absurd h hnoteq
  | gt => decide

/-- What an end becomes when it has processed the other one's Commit. -/
def Contender.role (x y : Contender) : StateMachine := (preparseCommit x.stream y.commit).machine

/-- One end becomes the responder and the other one stays the initiator. -/
def Contention.Settled (c : Contention) : Prop :=
  (c.a.role c.b = .responder ∧ c.b.role c.a = .initiator) ∨
    (c.a.role c.b = .initiator ∧ c.b.role c.a = .responder)

/-- A multistream Commit against one that it is not to meet: a DH one, or a
    preshared one without an `rs1` to answer it. -/
def Unmatched (x y : Contender) : Prop :=
  x.stream.mode = .mult ∧ (y.stream.mode = .dh ∨ (y.stream.mode = .preshared ∧ x.stream.rs1Cached = false))

/-- Two trusted MiTMs that both want preshared mode. -/
def Contention.BothMitm (c : Contention) : Prop :=
  c.a.stream.mode = .preshared ∧ c.b.stream.mode = .preshared ∧ c.a.stream.isMitm = true ∧
    c.b.stream.isMitm = true

/-- The decision of an end that accepts the peer's Commit and has no other
    stream. -/
theorem role_eq {x y : Contender} (haccept : checkCommit x.stream.profile y.commit = none)
    (hpassive : x.stream.passive3Test = true) :
    x.role y =
      if breakTie x.stream y.commit = .responder then reconsider x.stream y.commit
      else breakTie x.stream y.commit := by
  have hfree : canStartStream x.stream (modeOf y.commit.publicKeyType) = none := by
    rw [canStartStream, x.alone]
    rfl
  rw [Contender.role, preparseCommit, haccept]
  simp only [hpassive, Bool.not_true, Bool.false_eq_true, if_false, decideRole, x.initiating,
    if_true, resolveConcurrent, hfree]
  split_ifs with h1 h2 <;> simp_all

/-- The tie-break in terms of the modes of both ends. -/
theorem breakTie_eq (x y : Contender) :
    breakTie x.stream y.commit =
      if y.stream.mode = x.stream.mode then
        if y.stream.mode = .preshared && (x.stream.peerMitmFlag || x.stream.isMitm) then
          if x.stream.peerMitmFlag then .initiator else .responder
        else if memcmp x.stream.hv y.commit.hv (hvLength y.stream.mode) = .gt
          then .initiator
        else .responder
      else if x.stream.mode = .dh then .initiator
      else .responder := by
  rw [breakTie, y.type]

/-- An end whose own mode is the peer's has what the peer's mode needs. -/
theorem reconsider_same {x y : Contender} (hmode : y.stream.mode = x.stream.mode) :
    reconsider x.stream y.commit = .responder := by
  have hready : x.stream.ReadyFor y.stream.mode := by
    rw [hmode]
    exact x.ready
  rw [reconsider, y.type]
  cases hy : y.stream.mode with
  | dh =>
      rw [hy] at hready
      exact if_neg (Nat.not_lt.mpr (Nat.le_of_eq hready))
  | preshared =>
      rw [hy] at hready
      exact if_pos hready.2
  | mult =>
      rw [hy] at hready
      exact if_neg (Nat.ne_of_gt hready)

section Decision

variable {x y : Contender} (haccept : checkCommit x.stream.profile y.commit = none)
  (hpassive : x.stream.passive3Test = true)

include haccept hpassive

/-- Between two Commits of one mode the tie-break is the decision. -/
theorem role_same (hmode : y.stream.mode = x.stream.mode) : x.role y = breakTie x.stream y.commit := by
  rw [role_eq haccept hpassive, reconsider_same hmode]
  split
  · rename_i h
    exact h.symm
  · rfl

/-- The greater value stays the initiator, unless a MiTM is involved. -/
theorem role_values (hmode : y.stream.mode = x.stream.mode)
    (hmitm : y.stream.mode = .preshared → (x.stream.peerMitmFlag || x.stream.isMitm) = false) :
    x.role y =
      if memcmp x.stream.hv y.commit.hv (hvLength x.stream.mode) = .gt
      then .initiator else .responder := by
  have hflag : ¬ (decide (y.stream.mode = .preshared) &&
      (x.stream.peerMitmFlag || x.stream.isMitm)) = true := by
    rw [Bool.and_eq_true, decide_eq_true_eq]
    rintro ⟨hpreshared, htrue⟩
    rw [hmitm hpreshared] at htrue
    exact Bool.false_ne_true htrue
  rw [role_same haccept hpassive hmode, breakTie_eq, if_pos hmode, if_neg hflag, hmode]

/-- A DH Commit is not given up for one of another mode. -/
theorem role_dh (hmode : y.stream.mode ≠ x.stream.mode) (hdh : x.stream.mode = .dh) : x.role y = .initiator := by
  rw [role_eq haccept hpassive, breakTie_eq, if_neg hmode, if_pos hdh]
  rfl

/-- An end whose Commit is not a DH one leaves it to the secrets it has. -/
theorem role_other (hmode : y.stream.mode ≠ x.stream.mode) (hdh : x.stream.mode ≠ .dh) :
    x.role y = reconsider x.stream y.commit := by
  rw [role_eq haccept hpassive, breakTie_eq, if_neg hmode, if_neg hdh, if_pos rfl]

end Decision

/-- What is reconsidered goes by the mode of the peer's Commit. -/
theorem reconsider_eq (x y : Contender) :
    reconsider x.stream y.commit =
      match y.stream.mode with
      | .preshared => if x.stream.rs1Cached then .responder else .initiator
      | .mult => if x.stream.zrtpsess.length = 0 then .initiator else .responder
      | .dh => if x.stream.zrtpsess.length > 0 then .none else .responder := by
  rw [reconsider, y.type]

namespace Contention

/-- The same contention with the ends exchanged. -/
def swap (c : Contention) : Contention where
  a := c.b
  b := c.a
  acceptable := c.acceptable'
  acceptable' := c.acceptable
  passive := c.passive'
  passive' := c.passive
  mitm := c.mitm'
  mitm' := c.mitm
  differ := fun h => (c.differ h.symm).symm

theorem settled_swap (c : Contention) : c.swap.Settled ↔ c.Settled := by
  unfold Settled swap
  constructor
  · rintro (⟨h1, h2⟩ | ⟨h1, h2⟩)
    · exact Or.inr ⟨h2, h1⟩
    · exact Or.inl ⟨h2, h1⟩
  · rintro (⟨h1, h2⟩ | ⟨h1, h2⟩)
    · exact Or.inr ⟨h2, h1⟩
    · exact Or.inl ⟨h2, h1⟩

/-- A DH Commit wins against a preshared one. -/
theorem roles_dh_preshared (c : Contention) (ha : c.a.stream.mode = .dh) (hb : c.b.stream.mode = .preshared) :
    c.a.role c.b = .initiator ∧ c.b.role c.a = .responder := by
  have hne : c.b.stream.mode ≠ c.a.stream.mode := by rw [ha, hb]; decide
  have hready := c.b.ready
  rw [hb] at hready
  refine ⟨role_dh c.acceptable' c.passive hne ha, ?_⟩
  rw [role_other c.acceptable c.passive' hne.symm (by rw [hb]; decide), reconsider_eq, ha]
  exact if_neg (Nat.not_lt.mpr (Nat.le_of_eq hready.1))

/-- A DH Commit is not answered by an end that has a session key. -/
theorem roles_dh_mult (c : Contention) (ha : c.a.stream.mode = .dh) (hb : c.b.stream.mode = .mult) :
    c.a.role c.b = .initiator ∧ c.b.role c.a = .none := by
  have hne : c.b.stream.mode ≠ c.a.stream.mode := by rw [ha, hb]; decide
  have hready := c.b.ready
  rw [hb] at hready
  refine ⟨role_dh c.acceptable' c.passive hne ha, ?_⟩
  rw [role_other c.acceptable c.passive' hne.symm (by rw [hb]; decide), reconsider_eq, ha]
  exact if_pos hready

/-- A preshared Commit is answered by a multistream end with an `rs1`. -/
theorem roles_preshared_mult (c : Contention) (ha : c.a.stream.mode = .preshared)
    (hb : c.b.stream.mode = .mult) :
    c.a.role c.b = .initiator ∧
      c.b.role c.a = if c.b.stream.rs1Cached then .responder else .initiator := by
  have hne : c.b.stream.mode ≠ c.a.stream.mode := by rw [ha, hb]; decide
  have hready := c.a.ready
  rw [ha] at hready
  constructor
  · rw [role_other c.acceptable' c.passive hne (by rw [ha]; decide), reconsider_eq, hb]
    exact if_pos hready.1
  · rw [role_other c.acceptable c.passive' hne.symm (by rw [hb]; decide), reconsider_eq, ha]

/-- Two Commits of one mode without a MiTM: the greater value wins. -/
theorem settled_values (c : Contention) (hmode : c.b.stream.mode = c.a.stream.mode)
    (hmitm : c.a.stream.mode = .preshared →
      c.a.stream.isMitm = false ∧ c.b.stream.isMitm = false) : c.Settled := by
  have hnomitm : c.a.stream.mode = .preshared →
      (c.a.stream.peerMitmFlag || c.a.stream.isMitm) = false ∧
        (c.b.stream.peerMitmFlag || c.b.stream.isMitm) = false := by
    intro h
    rw [c.mitm, c.mitm', (hmitm h).1, (hmitm h).2]
    exact ⟨rfl, rfl⟩
  have ha := role_values c.acceptable' c.passive hmode fun h => (hnomitm (hmode.symm.trans h)).1
  have hb := role_values c.acceptable c.passive' hmode.symm fun h => (hnomitm h).2
  rw [hmode] at hb
  have hcommit := c.b.hv
  have hdiffer := c.differ hmode.symm
  rw [hmode] at hcommit hdiffer
  have hswap := memcmp_swap c.a.hv hcommit hdiffer
  by_cases hgt : memcmp c.a.stream.hv c.b.commit.hv
      (hvLength c.a.stream.mode) = .gt
  · rw [if_pos hgt] at ha
    rw [if_neg (hswap.mp hgt)] at hb
    exact Or.inr ⟨ha, hb⟩
  · rw [if_neg hgt] at ha
    rw [if_pos (not_not.mp fun h => hgt (hswap.mpr h))] at hb
    exact Or.inl ⟨ha, hb⟩

/-- Two Commits of one mode. With one MiTM the other end's Commit wins. -/
theorem settled_same (c : Contention) (hmode : c.b.stream.mode = c.a.stream.mode)
    (hboth : ¬ c.BothMitm) : c.Settled := by
  by_cases hpreshared : c.a.stream.mode = .preshared
  · have hpreshared' : c.b.stream.mode = .preshared := hmode.trans hpreshared
    have hrole := role_same c.acceptable' c.passive hmode
    have hrole' := role_same c.acceptable c.passive' hmode.symm
    rw [breakTie_eq, if_pos hmode, hpreshared', c.mitm] at hrole
    rw [breakTie_eq, if_pos hmode.symm, hpreshared, c.mitm'] at hrole'
    cases ha : c.a.stream.isMitm with
    | true =>
        cases hb : c.b.stream.isMitm with
        | true => exact absurd ⟨hpreshared, hpreshared', ha, hb⟩ hboth
        | false =>
            rw [ha, hb] at hrole hrole'
            exact Or.inl ⟨hrole, hrole'⟩
    | false =>
        cases hb : c.b.stream.isMitm with
        | true =>
            rw [ha, hb] at hrole hrole'
            exact Or.inr ⟨hrole, hrole'⟩
        | false => exact c.settled_values hmode fun _ => ⟨ha, hb⟩
  · exact c.settled_values hmode fun h => absurd h hpreshared

/-- What two Commits of different modes come to, with the ends in the order of
    `roles_dh_preshared`, `roles_dh_mult` and `roles_preshared_mult`. -/
theorem settled_ordered (c : Contention)
    (h : (c.a.stream.mode = .dh ∧ c.b.stream.mode ≠ .dh) ∨
      (c.a.stream.mode = .preshared ∧ c.b.stream.mode = .mult)) :
    ¬ (c.a.role c.b = .responder ∧ c.b.role c.a = .responder) ∧
      (c.Settled ↔ ¬ (Unmatched c.a c.b ∨ Unmatched c.b c.a)) := by
  unfold Settled Unmatched
  rcases h with ⟨ha, hb⟩ | ⟨ha, hb⟩
  · cases hb' : c.b.stream.mode with
    | dh => exact absurd hb' hb
    | preshared =>
        rcases c.roles_dh_preshared ha hb' with ⟨hrole, hrole'⟩
        rw [hrole, hrole', ha]
        simp only [reduceCtorEq, false_and, or_self, not_false_eq_true, and_self, or_true]
    | mult =>
        rcases c.roles_dh_mult ha hb' with ⟨hrole, hrole'⟩
        rw [hrole, hrole', ha]
        simp only [reduceCtorEq, false_and, and_false, or_self, not_false_eq_true, or_false,
          and_self, not_true_eq_false, or_true]
  · rcases c.roles_preshared_mult ha hb with ⟨hrole, hrole'⟩
    rw [hrole, hrole', ha, hb]
    cases c.b.stream.rs1Cached <;>
      simp only [reduceCtorEq, Bool.false_eq_true, if_false, if_true, false_and, and_false, or_self,
        not_false_eq_true, and_self, or_true, not_true_eq_false]

/-- Two MiTMs both stay the initiator. -/
theorem roles_bothMitm (c : Contention) (hboth : c.BothMitm) : c.a.role c.b = .initiator := by
  rcases hboth with ⟨ha, hb, -, hmitm⟩
  have hmode : c.b.stream.mode = c.a.stream.mode := hb.trans ha.symm
  have hrole := role_same c.acceptable' c.passive hmode
  rw [breakTie_eq, if_pos hmode, hb, c.mitm, hmitm] at hrole
  exact hrole

end Contention

/-- Two ends never both become the responder. Unless both want preshared mode
    and are MiTMs, one becomes the responder and the other stays the initiator
    if and only if no multistream Commit meets one that it is not to meet. -/
theorem commit_contention (c : Contention) :
    ¬ (c.a.role c.b = .responder ∧ c.b.role c.a = .responder) ∧
      (¬ c.BothMitm → (c.Settled ↔ ¬ (Unmatched c.a c.b ∨ Unmatched c.b c.a))) := by
  by_cases hmode : c.b.stream.mode = c.a.stream.mode
  · have hmatched : ¬ (Unmatched c.a c.b ∨ Unmatched c.b c.a) := by
      unfold Unmatched
      rw [hmode]
      rintro (⟨hmult, hother⟩ | ⟨hmult, hother⟩) <;>
        rcases hother with hother | ⟨hother, -⟩ <;>
        exact absurd (hmult.symm.trans hother) (by decide)
    by_cases hboth : c.BothMitm
    · refine ⟨?_, fun h => absurd hboth h⟩
      rw [c.roles_bothMitm hboth]
      exact fun h => absurd h.1 (by decide)
    · have hsettled := c.settled_same hmode hboth
      refine ⟨?_, fun _ => ⟨fun _ => hmatched, fun _ => hsettled⟩⟩
      rintro ⟨ha, hb⟩
      rcases hsettled with ⟨-, h⟩ | ⟨h, -⟩
      · exact absurd (hb.symm.trans h) (by decide)
      · exact absurd (ha.symm.trans h) (by decide)
  · -- One of the two orders of the ends is that of `settled_ordered`.
    have horder : ((c.a.stream.mode = .dh ∧ c.b.stream.mode ≠ .dh) ∨
        (c.a.stream.mode = .preshared ∧ c.b.stream.mode = .mult)) ∨
        ((c.b.stream.mode = .dh ∧ c.a.stream.mode ≠ .dh) ∨
          (c.b.stream.mode = .preshared ∧ c.a.stream.mode = .mult)) := by
      cases ha : c.a.stream.mode <;> cases hb : c.b.stream.mode <;> rw [ha, hb] at hmode <;>
        simp at hmode ⊢
    rcases horder with horder | horder
    · exact ⟨(c.settled_ordered horder).1, fun _ => (c.settled_ordered horder).2⟩
    · have hswapped := c.swap.settled_ordered horder
      rw [c.settled_swap] at hswapped
      exact ⟨fun h => hswapped.1 ⟨h.2, h.1⟩, fun _ => hswapped.2.trans
        ⟨fun h h' => h h'.symm, fun h h' => h h'.symm⟩⟩

/-- A stream that has sent a Commit of a public key type and with a value of
    octets `n`, to a peer that is no MiTM. -/
def sampleStream (pkt : Nat) (n : UInt8) (rs1Cached : Bool) (zrtpsess : Octets) : Stream :=
  { state := .initiatingSecure
    pkt := pkt
    hv := List.replicate hvSize n
    profile := ⟨[1, 2, 3], [1], [1], [1], [1]⟩
    peerMitmFlag := false
    isMitm := false
    licMode := .unlimited
    rs1Cached := rs1Cached
    zrtpsess := zrtpsess
    others := [] }

/-- A preshared call without a cached secret falls back to the DH scheme both have. -/
theorem defineStreamMode_ready_dh :
    (sampleStream 1 2 false []).ReadyFor
        (defineStreamMode (sampleStream 1 2 false []) ⟨[3], true, none, true⟩).1 ∧
      modeOf (defineStreamMode (sampleStream 1 2 false []) ⟨[3], true, none, true⟩).2 =
        (defineStreamMode (sampleStream 1 2 false []) ⟨[3], true, none, true⟩).1 :=
  defineStreamMode_ready _ _ 3 (by decide) (by decide) (by decide)

/-- Its Commit. -/
def sampleCommit (s : Stream) : Commit := ⟨s.pkt, 1, 1, 1, 1, s.hv⟩

/-- The end with this stream. -/
def sampleContender (pkt : Nat) (n : UInt8) (rs1Cached : Bool) (zrtpsess : Octets)
    (h : (sampleStream pkt n rs1Cached zrtpsess).ReadyFor (modeOf pkt)) : Contender :=
  { stream := sampleStream pkt n rs1Cached zrtpsess
    commit := sampleCommit (sampleStream pkt n rs1Cached zrtpsess)
    initiating := rfl
    ready := h
    alone := rfl
    type := rfl
    hv := rfl }

theorem sampleReady_dh : (sampleStream 3 1 false []).ReadyFor (modeOf 3) := by decide

theorem sampleReady_preshared : (sampleStream 1 2 true []).ReadyFor (modeOf 1) := by decide

theorem sampleReady_mult : (sampleStream 2 2 true [9]).ReadyFor (modeOf 2) := by decide

/-- A DH Commit meets a preshared one. -/
def sampleDhPreshared : Contention :=
  { a := sampleContender 3 1 false [] sampleReady_dh
    b := sampleContender 1 2 true [] sampleReady_preshared
    acceptable := by decide
    acceptable' := by decide
    passive := by decide
    passive' := by decide
    mitm := rfl
    mitm' := rfl
    differ := by decide }

/-- A DH Commit meets a multistream one. -/
def sampleDhMult : Contention :=
  { a := sampleContender 3 1 false [] sampleReady_dh
    b := sampleContender 2 2 true [9] sampleReady_mult
    acceptable := by decide
    acceptable' := by decide
    passive := by decide
    passive' := by decide
    mitm := rfl
    mitm' := rfl
    differ := by decide }

theorem commit_contention_preshared : sampleDhPreshared.Settled := by
  refine ((commit_contention sampleDhPreshared).2 ?_).mpr ?_
  · rintro ⟨hmode, -⟩
    exact absurd hmode (by decide)
  · rintro (⟨hmode, -⟩ | ⟨hmode, -⟩) <;> exact absurd hmode (by decide)

/-- Neither end answers a DH Commit that meets a multistream one. -/
theorem commit_contention_unanswered :
    sampleDhMult.a.role sampleDhMult.b = .initiator ∧
      sampleDhMult.b.role sampleDhMult.a = .none := by
  decide

end Zrtp

end CryptoOpal

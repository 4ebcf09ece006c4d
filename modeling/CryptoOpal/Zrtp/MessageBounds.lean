import CryptoOpal.Zrtp.MessageAccess

/-!
# When a Message Stays Inside

A ZRTP message is checked for its length once, when it comes in, and read and
copied later, by another function that goes by other lengths. The check knows
the mode of the stream. A Commit is read in the mode of its sender, and it is
not checked at all by a stream that has no mode yet. The copies go by the
length field of the message, which has a minimum and no maximum.

So the packets that stay inside are those for which both agree. `Sized` says
which these are for each type: how far a Commit is read, and how long a Hello,
a Commit and a Confirm may be that are copied.

## Main definitions

* `Taken`, `Handled`: The message has passed the checks, and goes to a handler.
* `HelloFits`, `CommitFits`: The messages that fit what is done to them.
* `Sized`: The packets that do.

## Theorems

* `inside_hello`, `inside_commit`, `inside_dhpart`, `inside_confirm`: The
  handlers.
* `inside_iff`: Everything stays inside exactly for these packets.
-/

namespace CryptoOpal

namespace Zrtp

namespace Messages

open Lib (Octets Access Inside inside_nil inside_cons inside_append inside_ite slice)

/-- The message has passed the checks of its CRC, its length field and its size. -/
def Taken (s : Endpoint) (info : RtpInfo) : Prop :=
  Engine.validateCrc info.packet = true ∧
    Engine.messageLength info.message = info.packet.length - 4 - Engine.rtpHdrSize ∧
      sizeCorrect s info = true

/-- The hash image and the stored MAC are right, and the stream handles messages. -/
def Handled (sha256 : Hash) (s : Endpoint) (info : RtpInfo) : Prop :=
  Engine.hashCorrect sha256 s.control info = true ∧
    Engine.storedHmacCorrect sha256 s.control info = true ∧
      StreamState.start.number ≤ s.control.state.number ∧
        ¬ (Engine.needsProtocol s.control.state = true ∧ s.control.protocol.isNone = true)

/-- A Hello whose components are there: they leave room for a zero behind them, and the message is
    no longer than a Hello when it is copied. -/
def HelloFits (s : Endpoint) (info : RtpInfo) : Prop :=
  104 + compBlockLen info.message ≤ info.packet.length →
    (compCounts info.message).any (7 < ·) = false →
      compBlockLen info.message < 140 ∧
        (helloAccepted s info.message = true → info.packet.length ≤ 244)

/-- The components are looked at up to the last one. -/
def checkCommitEnd (profile : Profile) (commit : Commit) : Nat :=
  if profileFind profile.pkSchemes commit.publicKeyType &&
      profileFind profile.hashSchemes commit.hashType &&
        profileFind profile.cipherTypes commit.cipherType &&
          profileFind profile.authTagLens commit.authTagLength then 88
  else 84

/-- A role is decided on. -/
def decides (s : Stream) (commit : Commit) : Bool :=
  (checkCommit s.profile commit).isNone && s.passive3Test

/-- A Commit is as long as it is read, and no longer than a Commit when it is answered. -/
structure CommitFits (s : Endpoint) (info : RtpInfo) : Prop where
  components : checkCommitEnd s.view.profile (commitOf s info.message) ≤ info.packet.length
  tie : decides s.view (commitOf s info.message) = true →
    comparesTie s.view (commitOf s info.message) = true →
      88 + hvLength (modeOf (commitOf s info.message).publicKeyType) ≤ info.packet.length
  concurrent : decides s.view (commitOf s info.message) = true →
    comparesConcurrent s.view (commitOf s info.message) = true → 120 ≤ info.packet.length
  answer : answersCommit s info.message = true →
    (if modeOf (commitOf s info.message).publicKeyType = .mult then 104 else 120) ≤
        info.packet.length ∧ info.packet.length ≤ 132

/-- The packets that stay inside. -/
def Sized (sha256 : Hash) (s : Endpoint) (packet : Octets) : Prop :=
  let info := Engine.rtpInfo packet 0
  info.type ≠ .none → info.type ≠ .unparsed → Taken s info →
    (info.type = .commit ∨ info.type = .dhpart1 ∨ info.type = .dhpart2 → 56 ≤ packet.length) ∧
    (Handled sha256 s info →
      (info.type = .hello → handlesHello s.control.state = true → HelloFits s info) ∧
      (info.type = .commit → handlesCommit s = true → CommitFits s info) ∧
      (info.type = .confirm1 ∨ info.type = .confirm2 → handlesConfirm s info.type = true →
        confirmAccepted sha256 s info.message = true → packet.length ≤ 92))

section Handlers

variable {sha256 : Hash} {s : Endpoint} {info : RtpInfo} {n : Nat}

theorem inside_read {off len : Nat} {l : List Access} :
    Inside n (.read off len :: l) ↔ off + len ≤ n ∧ Inside n l := inside_cons

theorem inside_write {len size : Nat} {l : List Access} :
    Inside n (.write len size :: l) ↔ len ≤ size ∧ Inside n l := inside_cons

theorem inside_iff_true : Inside n [] ↔ True := iff_true_intro inside_nil

/-- Five numbers that are at most seven. -/
theorem compBlockLen_le {hello : Octets} (h : (compCounts hello).any (7 < ·) = false) :
    compBlockLen hello ≤ 140 := by
  simp only [compCounts, List.any_cons, List.any_nil, Bool.or_false, Bool.or_eq_false_iff,
    decide_eq_false_iff_not] at h
  simp only [compBlockLen, compCounts, List.sum_cons, List.sum_nil]
  omega

theorem inside_hello (hlen : Engine.messageLength info.message = info.packet.length - 4 - 12)
    (hn : 28 ≤ info.packet.length) :
    Inside info.packet.length (helloAccesses s info) ↔ HelloFits s info := by
  have hpk : ((compCounts info.message).take 3).sum * 4 + field info.message 79 / 16 * 4 ≤
      compBlockLen info.message := by
    simp only [compBlockLen, compCounts, List.take_succ_cons, List.take_zero, List.sum_cons,
      List.sum_nil]
    omega
  simp only [helloAccesses, HelloFits]
  -- A Hello that is refused for its length or its numbers is read no further.
  by_cases hshort : info.packet.length < 104
  · rw [if_pos hshort]
    exact ⟨fun _ hle => by omega, fun _ => inside_nil⟩
  rw [if_neg hshort, inside_read]
  by_cases hdyn : info.packet.length < 104 + compBlockLen info.message
  · rw [if_pos hdyn]
    exact ⟨fun _ hle => by omega, fun _ => ⟨by omega, inside_nil⟩⟩
  rw [if_neg hdyn]
  cases hcounts : (compCounts info.message).any (7 < ·) with
  | true =>
      rw [if_pos rfl]
      exact ⟨fun _ _ hfalse => absurd hfalse Bool.true_eq_false_eq_False, fun _ =>
        ⟨by omega, inside_nil⟩⟩
  | false =>
      -- What is left are the checks of `helloAccepted`, in their order.
      have hle := compBlockLen_le hcounts
      simp only [Bool.false_eq_true, if_false, inside_append, inside_read, inside_write,
        inside_ite, inside_iff_true, hlen, helloAccepted, Bool.and_eq_true, Bool.not_eq_true',
        decide_eq_false_iff_not, bne_iff_ne, Bool.or_eq_true, beq_iff_eq, Bool.and_eq_false_iff]
      grind

theorem inside_checkCommit {profile : Profile} {commit : Commit} :
    Inside n (checkCommitAccesses profile commit) ↔ checkCommitEnd profile commit ≤ n := by
  rw [checkCommitAccesses, checkCommitEnd]
  cases profileFind profile.pkSchemes commit.publicKeyType <;>
    cases profileFind profile.hashSchemes commit.hashType <;>
      cases profileFind profile.cipherTypes commit.cipherType <;>
        cases profileFind profile.authTagLens commit.authTagLength <;>
          simp [inside_read, inside_iff_true] <;> omega

theorem inside_preparseCommit {view : Stream} {commit : Commit} :
    Inside n (preparseCommitAccesses view commit) ↔ checkCommitEnd view.profile commit ≤ n ∧
      (decides view commit = true → comparesTie view commit = true →
        88 + hvLength (modeOf commit.publicKeyType) ≤ n) ∧
      (decides view commit = true → comparesConcurrent view commit = true → 120 ≤ n) := by
  have hend : 84 ≤ checkCommitEnd view.profile commit := by
    rw [checkCommitEnd]
    split <;> omega
  rw [preparseCommitAccesses, inside_append, inside_append, inside_checkCommit, inside_read,
    inside_iff_true, decides]
  cases (checkCommit view.profile commit) with
  | some e =>
      simp only [Option.isSome_some, if_true, inside_iff_true, Option.isNone_some, Bool.false_and,
        Bool.false_eq_true, false_implies, and_true]
      omega
  | none =>
      cases view.passive3Test with
      | false =>
          simp only [Option.isSome_none, Bool.false_eq_true, if_false, Bool.not_false, if_true,
            inside_iff_true, Option.isNone_none, Bool.and_false, false_implies, and_true]
          omega
      | true =>
          simp only [Option.isSome_none, Bool.false_eq_true, if_false, Bool.not_true,
            inside_append, inside_ite, inside_read, inside_iff_true, Option.isNone_none,
            Bool.and_true, true_implies, and_true, implies_true, hvSize]
          constructor
          · exact fun h => ⟨h.1.2, h.2.1, h.2.2⟩
          · exact fun h => ⟨⟨by omega, h.1⟩, h.2.1, h.2.2⟩

/-- A responder has found all components. -/
theorem checkCommitEnd_responder {view : Stream} {commit : Commit}
    (h : (preparseCommit view commit).machine = .responder) :
    checkCommitEnd view.profile commit = 88 := by
  rw [preparseCommit] at h
  cases hcheck : checkCommit view.profile commit with
  | some e =>
      rw [hcheck] at h
      cases h
  | none =>
      rw [checkCommit] at hcheck
      rw [checkCommitEnd]
      revert hcheck
      cases profileFind view.profile.pkSchemes commit.publicKeyType <;>
        cases profileFind view.profile.hashSchemes commit.hashType <;>
          cases profileFind view.profile.cipherTypes commit.cipherType <;>
            cases profileFind view.profile.authTagLens commit.authTagLength <;>
              simp

theorem inside_processCommit {mode : StreamMode} {commit : Octets}
    (hlen : Engine.messageLength commit = n - 4 - 12) :
    Inside n (processCommitAccesses mode commit) ↔
      (if mode = .mult then 104 else 120) ≤ n ∧ n ≤ 132 := by
  cases mode <;>
  · simp only [processCommitAccesses, inside_append, inside_read, inside_write, inside_iff_true,
      hlen, and_true, reduceCtorEq, if_false, if_true]
    omega

theorem inside_commit (hlen : Engine.messageLength info.message = info.packet.length - 4 - 12) :
    Inside info.packet.length (commitAccesses s info) ↔ CommitFits s info := by
  have hanswers : answersCommit s info.message = true ↔
      (preparseCommit s.view (commitOf s info.message)).machine = .responder ∧
        s.protocolInit = true := by
    rw [answersCommit, Bool.and_eq_true, beq_iff_eq]
  have hend := @checkCommitEnd_responder s.view (commitOf s info.message)
  simp only [commitAccesses, inside_append, inside_preparseCommit, inside_ite, inside_iff_true,
    inside_read, inside_processCommit hlen, implies_true, and_true, true_and]
  constructor
  · intro h
    exact ⟨h.1.1, h.1.2.1, h.1.2.2, fun hanswer => by
      obtain ⟨hrole, hinit⟩ := hanswers.1 hanswer
      exact (h.2 hrole).2 hinit⟩
  · intro h
    -- A responder reads the components again, which are all there.
    refine ⟨⟨h.components, h.tie, h.concurrent⟩, fun hrole => ⟨fun _ => ?_, fun hinit =>
      h.answer (hanswers.2 ⟨hrole, hinit⟩)⟩⟩
    have hcomponents := h.components
    rw [hend hrole] at hcomponents
    omega

theorem inside_dhpart (hlen : Engine.messageLength info.message = info.packet.length - 4 - 12)
    (hsize : ∀ pv, s.control.pvLength = some pv → info.packet.length = 100 + pv) :
    Inside info.packet.length (dhpartAccesses s info) := by
  rw [dhpartAccesses]
  cases hpv : s.control.pvLength with
  | none => exact inside_nil
  | some pv =>
      have hn := hsize pv hpv
      have hle := s.pvLength_le pv hpv
      simp only [inside_read, inside_write, inside_ite, inside_iff_true, hlen,
        and_true, implies_true]
      exact ⟨by omega, fun _ => ⟨by omega, by omega⟩⟩

theorem inside_confirm (hlen : Engine.messageLength info.message = info.packet.length - 4 - 12)
    (hn : 88 ≤ info.packet.length) :
    Inside info.packet.length (confirmAccesses sha256 s info) ↔
      (confirmAccepted sha256 s info.message = true → info.packet.length ≤ 92) := by
  simp only [confirmAccesses, confirmAccepted]
  cases Engine.relayHmacCorrect s.control info.message with
  | false =>
      simp only [Bool.not_false, if_true, Bool.false_and, Bool.false_eq_true, false_implies,
        iff_true, inside_read, inside_iff_true, and_true]
      omega
  | true =>
      cases Engine.messageHmacCorrect sha256
          (confirmKey sha256 s (Engine.relayPlain s.control info.message)).1
          (confirmKey sha256 s (Engine.relayPlain s.control info.message)).2 with
      | false =>
          simp only [Bool.not_false, Bool.not_true, if_true, Bool.false_eq_true, if_false,
            Bool.true_and, Bool.false_and, false_implies, iff_true, inside_read,
            inside_iff_true, and_true]
          omega
      | true =>
          simp only [Bool.not_true, Bool.false_eq_true, if_false, Bool.true_and,
            inside_read, inside_write, inside_ite, inside_iff_true, hlen, and_true,
            Bool.not_eq_true', Bool.and_eq_false_iff, beq_eq_false_iff_ne, ne_eq,
            Bool.not_eq_false', implies_true, true_and]
          grind

end Handlers

section Packets

variable {sha256 : Hash} {s : Endpoint} {info : RtpInfo} {packet : Octets}

/-- A message has room for its type. -/
theorem length_of_getType (hnone : Engine.getType packet ≠ .none)
    (hunparsed : Engine.getType packet ≠ .unparsed) : 28 ≤ packet.length := by
  rw [Engine.getType] at hnone hunparsed
  split at hnone
  · exact absurd rfl hnone
  · rename_i hmagic
    rw [if_neg hmagic] at hunparsed
    split at hunparsed
    · exact absurd rfl hunparsed
    · rename_i hlong
      exact Nat.le_of_not_lt hlong

/-- The least size of a type. -/
theorem size_of_taken (h : Taken s info) :
    (info.type = .confirm1 ∨ info.type = .confirm2 ∨ info.type = .sasrelay →
      88 ≤ info.packet.length) ∧
    (info.type = .goclear → 32 ≤ info.packet.length) ∧
    (info.type = .zfoneping → 36 ≤ info.packet.length) ∧
    (info.type = .dhpart1 ∨ info.type = .dhpart2 → ∀ pv, s.control.pvLength = some pv →
      info.packet.length = 100 + pv) := by
  obtain ⟨_, _, hsize⟩ := h
  rw [sizeCorrect, Engine.sizeCorrect] at hsize
  refine ⟨?_, ?_, ?_, ?_⟩
  · rintro (htype | htype | htype) <;>
    · simp [htype, Engine.rtpHdrSize] at hsize
      omega
  · intro htype
    simp [htype, Engine.rtpHdrSize] at hsize
    omega
  · intro htype
    simp [htype, Engine.rtpHdrSize] at hsize
    omega
  · rintro (htype | htype) pv hpv <;>
    · simp [htype, hpv, Engine.zrtpMinPacketLength, Engine.rtpHdrSize, Engine.zrtpDhStaticSize,
        Engine.zrtpHmacSize] at hsize
      omega

theorem inside_handler (htaken : Taken s info) (hn : 28 ≤ info.packet.length) :
    Inside info.packet.length (handlerAccesses sha256 s info) ↔
      (StreamState.start.number ≤ s.control.state.number →
        ¬ (Engine.needsProtocol s.control.state = true ∧ s.control.protocol.isNone = true) →
          (info.type = .hello → handlesHello s.control.state = true → HelloFits s info) ∧
          (info.type = .commit → handlesCommit s = true → CommitFits s info) ∧
          (info.type = .confirm1 ∨ info.type = .confirm2 → handlesConfirm s info.type = true →
            confirmAccepted sha256 s info.message = true → info.packet.length ≤ 92)) := by
  have hlen : Engine.messageLength info.message = info.packet.length - 4 - 12 := htaken.2.1
  obtain ⟨hbody, hgoclear, hping, hdhpart⟩ := size_of_taken htaken
  simp only [handlerAccesses]
  by_cases htype : info.type = .zfoneping
  · have h36 := hping htype
    rw [if_pos htype, inside_read, inside_write, inside_iff_true]
    simp only [htype, reduceCtorEq, false_implies, or_self, and_true, implies_true, iff_true,
      Nat.le_refl]
    omega
  rw [if_neg htype]
  by_cases hstarted : s.control.state.number < StreamState.start.number
  · rw [if_pos hstarted]
    exact ⟨fun _ hle => absurd hle (Nat.not_le_of_lt hstarted), fun _ => inside_nil⟩
  rw [if_neg hstarted]
  by_cases hneeds : Engine.needsProtocol s.control.state = true ∧
      s.control.protocol.isNone = true
  · rw [if_pos hneeds]
    exact ⟨fun _ _ hnot => absurd hneeds hnot, fun _ => inside_nil⟩
  rw [if_neg hneeds]
  -- Only three types can leave the packet. The size check is enough for the others.
  have hle := Nat.le_of_not_lt hstarted
  cases hcase : info.type with
  | hello =>
      simp only [reduceCtorEq, false_implies, or_self, true_implies, and_true, inside_ite,
        inside_iff_true, implies_true, inside_hello hlen hn]
      exact ⟨fun h _ _ => h, fun h => h hle hneeds⟩
  | commit =>
      simp only [reduceCtorEq, false_implies, or_self, true_implies, and_true, true_and,
        inside_ite, inside_iff_true, implies_true, inside_commit hlen]
      exact ⟨fun h _ _ => h, fun h => h hle hneeds⟩
  | dhpart1 =>
      have hinside := inside_dhpart hlen (hdhpart (.inl hcase))
      simp only [reduceCtorEq, false_implies, or_self, and_true, inside_ite, inside_iff_true,
        implies_true, hinside]
  | dhpart2 =>
      have hinside := inside_dhpart hlen (hdhpart (.inr hcase))
      simp only [reduceCtorEq, false_implies, or_self, and_true, inside_ite,
        inside_read, inside_iff_true, implies_true, hinside, iff_true, hlen]
      exact fun _ => by omega
  | confirm1 =>
      have h88 := hbody (.inl hcase)
      simp only [reduceCtorEq, false_implies, or_false, true_implies, and_true, true_and,
        inside_ite, inside_iff_true, implies_true, inside_confirm hlen h88]
      exact ⟨fun h _ _ => h, fun h => h hle hneeds⟩
  | confirm2 =>
      have h88 := hbody (.inr (.inl hcase))
      simp only [reduceCtorEq, false_implies, false_or, true_implies, and_true, true_and,
        inside_ite, inside_iff_true, implies_true, inside_confirm hlen h88]
      exact ⟨fun h _ _ => h, fun h => h hle hneeds⟩
  | goclear =>
      have h32 := hgoclear hcase
      simp only [reduceCtorEq, false_implies, or_self, and_true, goclearAccesses, inside_ite,
        inside_read, inside_iff_true, implies_true, iff_true]
      exact fun _ _ => by omega
  | sasrelay =>
      have h88 := hbody (.inr (.inr hcase))
      simp only [reduceCtorEq, false_implies, or_self, and_true, sasrelayAccesses, inside_ite,
        inside_read, inside_iff_true, implies_true, iff_true]
      exact fun _ => ⟨trivial, fun _ => ⟨by omega, by omega, trivial, fun _ => by omega⟩⟩
  | error =>
      simp only [reduceCtorEq, false_implies, or_self, and_true, implies_true, iff_true]
      cases s.control.state <;> first
        | exact inside_nil
        | exact inside_cons.2 ⟨hn, inside_nil⟩
  | zfoneping => exact absurd hcase htype
  | _ =>
      simp only [reduceCtorEq, false_implies, or_self, and_true, implies_true, iff_true]
      exact inside_nil

theorem inside_image (hlen : Engine.messageLength info.message = info.packet.length - 4 - 12)
    (hn : 28 ≤ info.packet.length) : Inside info.packet.length (imageAccesses s info) ↔
      (info.type = .commit ∨ info.type = .dhpart1 ∨ info.type = .dhpart2 →
        56 ≤ info.packet.length) := by
  rw [imageAccesses]
  cases info.type with
  | hello =>
      simp only [reduceCtorEq, or_self, false_implies, iff_true, inside_ite, inside_read, hlen,
        inside_iff_true, and_true, implies_true]
      exact fun _ => by omega
  | commit => simp only [true_or, true_implies, inside_read, inside_iff_true, and_true]
  | dhpart1 => simp only [true_or, or_true, true_implies, inside_read, inside_iff_true, and_true]
  | dhpart2 => simp only [or_true, true_implies, inside_read, inside_iff_true, and_true]
  | _ =>
      simp only [reduceCtorEq, or_self, false_implies, iff_true]
      exact inside_nil

theorem inside_message (hn : 28 ≤ info.packet.length) :
    Inside info.packet.length (messageAccesses sha256 s info) ↔ (Taken s info →
      (info.type = .commit ∨ info.type = .dhpart1 ∨ info.type = .dhpart2 →
        56 ≤ info.packet.length) ∧
      (Handled sha256 s info →
        (info.type = .hello → handlesHello s.control.state = true → HelloFits s info) ∧
        (info.type = .commit → handlesCommit s = true → CommitFits s info) ∧
        (info.type = .confirm1 ∨ info.type = .confirm2 → handlesConfirm s info.type = true →
          confirmAccepted sha256 s info.message = true → info.packet.length ≤ 92))) := by
  rw [messageAccesses, inside_read]
  -- A message that fails a check is read no further, and is not `Taken`.
  by_cases hcrc : Engine.validateCrc info.packet = true
  swap
  · rw [Bool.not_eq_true] at hcrc
    rw [hcrc, Bool.not_false, if_pos rfl]
    exact ⟨fun _ htaken => absurd (hcrc.symm.trans htaken.1) Bool.false_ne_true, fun _ =>
      ⟨by omega, inside_nil⟩⟩
  rw [hcrc, Bool.not_true, if_neg Bool.false_ne_true, inside_read]
  by_cases hlength : Engine.messageLength info.message = info.packet.length - 4 - Engine.rtpHdrSize
  swap
  · rw [if_pos hlength]
    exact ⟨fun _ htaken => absurd htaken.2.1 hlength, fun _ =>
      ⟨by omega, by omega, inside_nil⟩⟩
  rw [if_neg (fun hne => hne hlength)]
  by_cases hsize : sizeCorrect s info = true
  swap
  · rw [Bool.not_eq_true] at hsize
    rw [hsize, Bool.not_false, if_pos rfl]
    exact ⟨fun _ htaken => absurd (hsize.symm.trans htaken.2.2) Bool.false_ne_true, fun _ =>
      ⟨by omega, by omega, inside_nil⟩⟩
  have htaken : Taken s info := ⟨hcrc, hlength, hsize⟩
  rw [hsize, Bool.not_true, if_neg Bool.false_ne_true, inside_append, inside_image hlength hn]
  simp only [inside_ite, inside_iff_true, implies_true, true_and, Bool.not_eq_true',
    Bool.not_eq_false, inside_handler htaken hn, Handled]
  constructor
  · intro h _
    exact ⟨h.2.2.1, fun hhandled => h.2.2.2 hhandled.1 hhandled.2.1 hhandled.2.2.1
      hhandled.2.2.2⟩
  · intro h
    obtain ⟨himage, hhandler⟩ := h htaken
    exact ⟨by omega, by omega, himage, fun hhash hhmac hstarted hneeds =>
      hhandler ⟨hhash, hhmac, hstarted, hneeds⟩⟩

/-- A stream that was started and has not met its peer. -/
def sampleEndpoint : Endpoint where
  control := { (Engine.sampleSecure false).control with
    state := .start
    protocol := none
    pvLength := none }
  view := { sampleStream 3 1 false [] with state := .start }
  view_state := rfl
  modeKnown := false
  pvLength_le := fun _ hpv => absurd hpv.symm (Option.some_ne_none _)
  type2id := fun _ _ => 1
  passive2 := true
  signalingHash := false
  ownZid := List.replicate 12 1
  peerZid := []
  peerDhpart := []
  initiator := false
  mitmClient := false
  protocolInit := true
  publicValueSet := true
  hviCorrect := fun _ => true
  pvValid := fun _ => true

/-- A packet with a message of this type. -/
def sampleMessage (type : String) (body : Octets) : Octets :=
  let packet := [0x10, 0, 0, 1] ++ Lib.bigEndian 4 Engine.zrtpPacketsMagic ++ [0, 0, 0, 7] ++
    [0x50, 0x5a] ++ Lib.bigEndian 2 (3 + body.length / 4) ++ cstring type ++ body
  packet ++ Engine.generateCrc packet

/-- A Hello with no components, and a hundred and fifty-two octets behind them. -/
def sampleLongHello : Octets :=
  sampleMessage "Hello   " (cstring "1.10" ++ List.replicate 60 0x41 ++ List.replicate 156 0)

end Packets

end Messages

end Zrtp

end CryptoOpal

import CryptoOpal.Lib.Accesses
import CryptoOpal.Zrtp.Contention
import CryptoOpal.Zrtp.Engine

/-!
# What libzrtp Touches of a Message

`zrtp_process_srtp` checks a ZRTP message and hands it to the handler of the
stream's state. All on the way read the message through pointers to the
structures of `zrtp_protocol.h`, and some copy it into a structure of the
stream by the length field of the message. Here is what each of them reads
and writes, in the order of the source, with the branches that lead there.

Offsets count from the beginning of the packet, which is 12 octets before the
message. What a function decides from the message it decides from the octets
of the packet. Once it has read behind its end, the octets it has are not
these, and what it touches after that does not matter for the question
whether everything is inside.

What the cryptography says about a message is a part of the endpoint here: the
check of the hash commitment, the check of a public value, and whether keys
could be made. Ciphers and hashes do not fail. Log lines are left out, but the
buffer that is filled for one of them is not. Media is not touched by any
handler of a message.

## Main definitions

* `Endpoint`: The stream with everything that decides where a message goes.
* `helloAccesses`, `commitAccesses`, `dhpartAccesses`, `confirmAccesses`,
  `goclearAccesses`, `sasrelayAccesses`, `errorAccesses`: The handlers.
* `handlerAccesses`: The part of `zrtp_process_srtp` behind the checks.
* `accesses`: All of it.
-/

namespace CryptoOpal

namespace Zrtp

namespace Messages

open Lib (Octets Access slice)

/-- The classes of crypto components. -/
inductive CompClass where
  | hash
  | cipher
  | authTagLength
  | publicKey
  | sas
  deriving DecidableEq

/-- A stream, with what decides where a message goes: `view` is what `preparse_commit` reads,
    `passive2` is `ZRTP_PASSIVE2_TEST`, `peerZid` is empty before a Hello came in, `initiator` is
    the type of `protocol`, and `modeKnown` is false in the modes `UNKN` and `CLEAR`. -/
structure Endpoint where
  control : Engine.Control
  view : Stream
  view_state : view.state = control.state
  modeKnown : Bool
  pvLength_le : ∀ pv, control.pvLength = some pv → pv ≤ 384
  type2id : CompClass → Octets → Nat
  passive2 : Bool
  signalingHash : Bool
  ownZid : Octets
  peerZid : Octets
  peerDhpart : Octets
  initiator : Bool
  mitmClient : Bool
  protocolInit : Bool
  publicValueSet : Bool
  hviCorrect : Octets → Bool
  pvValid : Octets → Bool

/-- `stream->mode`. -/
def Endpoint.mode (s : Endpoint) : Option StreamMode :=
  if s.modeKnown then some s.control.mode else none

/-- An octet of a message. -/
def field (message : Octets) (off : Nat) : Nat := (message.getD off 0).toNat

/-- The numbers of components in a Hello: hash, cipher, tag length, public key and SAS. -/
def compCounts (hello : Octets) : List Nat :=
  [field hello 77 % 16, field hello 78 / 16, field hello 78 % 16, field hello 79 / 16,
    field hello 79 % 16]

/-- `comp_block_len`. -/
def compBlockLen (hello : Octets) : Nat := (compCounts hello).sum * 4

/-- A digit of the version, as the cast to `char` has it. -/
def versionDigit (octet : Nat) : Int :=
  let d := (octet + 208) % 256
  if d < 128 then d else (d : Int) - 256

/-- `peer_version`. -/
def peerVersion (hello : Octets) : Nat :=
  ((versionDigit (field hello 12) * 10 + versionDigit (field hello 14)) % 2 ^ 32).toNat

/-- A flag in the octet before the numbers of components. -/
def helloFlag (hello : Octets) (bit : Nat) : Bool := field hello 76 / 2 ^ bit % 2 = 1

/-- A Hello of this stream's peer, in a version that is not too old. -/
def helloAccepted (s : Endpoint) (hello : Octets) : Bool :=
  let zid := slice hello 64 12
  !(peerVersion hello < 11) && zid != s.ownZid && (s.peerZid.length == 0 || zid == s.peerZid) &&
    !(helloFlag hello 4 && helloFlag hello 7) && !helloFlag hello 6

/-- `_zrtp_machine_process_hello`. The sizes are those of `print_buffer`, `peer_zid`, and
    `zrtp_packet_Hello_t`. -/
def helloAccesses (s : Endpoint) (info : RtpInfo) : List Access :=
  let hello := info.message
  let length := info.packet.length
  let comp := compBlockLen hello
  if length < 104 then []
  else
    .read 89 3 ::
    if length < 104 + comp then []
    else if (compCounts hello).any (7 < ·) then []
    else
      -- The string in the buffer is ended by a zero.
      .read 92 comp :: .write comp 140 :: .write (comp + 1) 140 :: .read 24 1 :: .read 26 1 ::
      if peerVersion hello < 11 then []
      else
        .read 76 12 ::
        if slice hello 64 12 = s.ownZid then []
        else
          (if s.peerZid.length = 0 then [.read 76 12, .write 13 20] else [.read 76 12]) ++
          if s.peerZid.length ≠ 0 ∧ slice hello 64 12 ≠ s.peerZid then []
          else
            .read 88 1 ::
            if helloFlag hello 4 ∧ helloFlag hello 7 then []
            else if helloFlag hello 6 then []
            else
              [.read 12 (Engine.messageLength hello), .write (Engine.messageLength hello) 228,
                -- `_zrtp_choose_best_comp` reads the public key types.
                .read (92 + ((compCounts hello).take 3).sum * 4) (field hello 79 / 16 * 4)]

/-- What is read of a Commit. -/
def commitOf (s : Endpoint) (commit : Octets) : Commit where
  publicKeyType := s.type2id .publicKey (slice commit 68 4)
  hashType := s.type2id .hash (slice commit 56 4)
  cipherType := s.type2id .cipher (slice commit 60 4)
  authTagLength := s.type2id .authTagLength (slice commit 64 4)
  sasType := s.type2id .sas (slice commit 72 4)
  hv := slice commit 76 32

/-- The reads of `_check_commit`, which stops at the first component the profile does not have. -/
def checkCommitAccesses (profile : Profile) (commit : Commit) : List Access :=
  .read 80 4 ::
  if !profileFind profile.pkSchemes commit.publicKeyType then []
  else .read 68 4 ::
  if !profileFind profile.hashSchemes commit.hashType then []
  else .read 72 4 ::
  if !profileFind profile.cipherTypes commit.cipherType then []
  else .read 76 4 ::
  if !profileFind profile.authTagLens commit.authTagLength then []
  else [.read 84 4]

/-- Whether the values of two Commits are compared to break a tie. -/
def comparesTie (s : Stream) (commit : Commit) : Bool :=
  s.state == .initiatingSecure && modeOf commit.publicKeyType == s.mode &&
    !(modeOf commit.publicKeyType == .preshared && (s.peerMitmFlag || s.isMitm))

/-- Whether the value of a Commit is compared with that of another stream. -/
def comparesConcurrent (s : Stream) (commit : Commit) : Bool :=
  let tie := if s.state = .initiatingSecure then breakTie s commit else .responder
  let role := if tie = .responder then reconsider s commit else tie
  role == .responder && ((canStartStream s (modeOf commit.publicKeyType)).any fun c =>
    decide (c.state.number ≤ StreamState.initiatingSecure.number))

/-- `_zrtp_machine_preparse_commit`. -/
def preparseCommitAccesses (s : Stream) (commit : Commit) : List Access :=
  [.read 80 4] ++ checkCommitAccesses s.profile commit ++
  if (checkCommit s.profile commit).isSome then []
  else if !s.passive3Test then []
  else
    (if comparesTie s commit then [.read 88 (hvLength (modeOf commit.publicKeyType))] else []) ++
    if comparesConcurrent s commit then [.read 88 hvSize] else []

/-- `_zrtp_machine_process_commit`. The sizes are those of `peer_hv` and `zrtp_packet_Commit_t`. A
    `zrtp_zstrncpyc` writes a zero behind the string. -/
def processCommitAccesses (mode : StreamMode) (commit : Octets) : List Access :=
  (match mode with
  | .dh => [.read 88 32, .write 33 68]
  -- The source has no `break` here.
  | .preshared => [.read 104 16, .write 17 68, .read 88 16, .write 17 68]
  | .mult => [.read 88 16, .write 17 68]) ++
  [.read 12 (Engine.messageLength commit), .write (Engine.messageLength commit) 116]

/-- The stream becomes the responder, and has the resources for that. -/
def answersCommit (s : Endpoint) (commit : Octets) : Bool :=
  (preparseCommit s.view (commitOf s commit)).machine == .responder && s.protocolInit

/-- A Commit in a state that answers it: `preparse_commit` and `enter_pendingsecure`. -/
def commitAccesses (s : Endpoint) (info : RtpInfo) : List Access :=
  let commit := commitOf s info.message
  let mode := modeOf commit.publicKeyType
  preparseCommitAccesses s.view commit ++
  if (preparseCommit s.view commit).machine = .responder then
    (if mode = .mult then [] else [.read 68 4, .read 72 4, .read 76 4, .read 84 4]) ++
    if s.protocolInit then processCommitAccesses mode info.message else []
  else []

/-- The public value of a DHPart message, and the copy: 1108 is the size of
    `zrtp_packet_DHPart_t`. The states that come here are entered with a public key scheme. -/
def dhpartAccesses (s : Endpoint) (info : RtpInfo) : List Access :=
  match s.control.pvLength with
  | none => []
  | some pv =>
    .read 88 pv ::
    if s.pvValid (slice info.message 76 pv) then
      [.read 12 (Engine.messageLength info.message),
        .write (Engine.messageLength info.message) 1108]
    else []

/-- The stored message that a Confirm reveals the MAC key of, and that key. -/
def confirmKey (sha256 : Hash) (s : Endpoint) (plain : Octets) : Octets × Octets :=
  let image := plain.take 32
  if s.mode = some .dh then (s.peerDhpart, image)
  else if s.initiator then (s.control.peerHello, sha256.digest (sha256.digest image))
  else (s.control.peerCommit, sha256.digest image)

/-- A Confirm is copied: its MACs are right, and a stream that is no client of a MiTM is not asked
    to enroll. -/
def confirmAccepted (sha256 : Hash) (s : Endpoint) (confirm : Octets) : Bool :=
  let plain := Engine.relayPlain s.control confirm
  let key := confirmKey sha256 s plain
  Engine.relayHmacCorrect s.control confirm &&
    Engine.messageHmacCorrect sha256 key.1 key.2 &&
      !(field plain 35 / 8 % 2 == 1 && !s.mitmClient)

/-- `_zrtp_machine_process_confirm`. The encrypted part lies where that of a SASrelay does. The
    copy goes to a `zrtp_packet_Confirm_t`. -/
def confirmAccesses (sha256 : Hash) (s : Endpoint) (info : RtpInfo) : List Access :=
  let confirm := info.message
  let plain := Engine.relayPlain s.control confirm
  let key := confirmKey sha256 s plain
  .read 48 40 :: .read 24 8 ::
  if !Engine.relayHmacCorrect s.control confirm then []
  else
    .read 32 16 :: .read 48 40 :: .read 48 32 ::
    if !Engine.messageHmacCorrect sha256 key.1 key.2 then []
    else
      .read 83 1 ::
      if field plain 35 / 8 % 2 = 1 ∧ !s.mitmClient then []
      else
        [.read 84 4, .read 12 (Engine.messageLength confirm),
          .write (Engine.messageLength confirm) 76]

/-- `_zrtp_machine_process_goclear`. -/
def goclearAccesses (s : Endpoint) : List Access :=
  if s.control.allowclear then [.read 24 8] else []

/-- `_zrtp_machine_process_sasrelay`. -/
def sasrelayAccesses (s : Endpoint) (info : RtpInfo) : List Access :=
  if !s.control.peerMitmFlag then []
  else
    .read 48 40 :: .read 24 8 ::
    if !Engine.relayHmacCorrect s.control info.message then []
    else [.read 32 16, .read 48 40, .read 51 1, .read 52 4, .read 56 32]

/-- The code of an Error, which some states do not look at. -/
def errorAccesses (state : StreamState) : List Access :=
  match state with
  | .none | .active | .start | .secure | .pendingError | .noZrtp => []
  | _ => [.read 24 4]

/-- The states whose handler calls `process_hello`. -/
def handlesHello : StreamState → Bool
  | .start | .waitHello | .noZrtp => true
  | _ => false

/-- The states whose handler calls `preparse_commit`. -/
def handlesCommit (s : Endpoint) : Bool :=
  match s.control.state with
  | .waitHelloAck | .noZrtp => s.passive2
  | .clear | .pendingClear | .startInitiatingSecure | .initiatingSecure => true
  | _ => false

/-- A Confirm is looked at in this state. -/
def handlesConfirm (s : Endpoint) (type : MsgType) : Bool :=
  match s.control.state, type with
  | .initiatingSecure, .confirm1 => s.mode != some .dh && s.publicValueSet
  | .waitConfirm1, .confirm1 => true
  | .waitConfirm2, .confirm2 => true
  | _, _ => false

/-- `zrtp_process_srtp`, of a message that has passed the checks. -/
def handlerAccesses (sha256 : Hash) (s : Endpoint) (info : RtpInfo) : List Access :=
  let state := s.control.state
  if info.type = .zfoneping then [.read 28 8, .write 8 8]
  else if state.number < StreamState.start.number then []
  else if Engine.needsProtocol state ∧ s.control.protocol.isNone then []
  else
    match info.type with
    | .hello => if handlesHello state then helloAccesses s info else []
    | .commit => if handlesCommit s then commitAccesses s info else []
    | .dhpart1 =>
      if state = .initiatingSecure ∧ s.mode = some .dh then dhpartAccesses s info else []
    | .dhpart2 =>
      if state = .pendingSecure then
        .read 12 (Engine.messageLength info.message) ::
        if s.hviCorrect info.message then dhpartAccesses s info else []
      else []
    | .confirm1 | .confirm2 =>
      if handlesConfirm s info.type then confirmAccesses sha256 s info else []
    | .goclear => if state = .secure ∨ state = .sasRelaying then goclearAccesses s else []
    | .sasrelay => if state = .secure then sasrelayAccesses s info else []
    | .error => errorAccesses state
    | _ => []

/-- The packet has the size its type asks for, as far as the mode of the stream asks for one. -/
def sizeCorrect (s : Endpoint) (info : RtpInfo) : Bool :=
  info.type == .commit && !s.modeKnown || Engine.sizeCorrect s.control info

/-- The hash image that is read of a message, or the message for the signaling hash. -/
def imageAccesses (s : Endpoint) (info : RtpInfo) : List Access :=
  match info.type with
  | .hello => if s.signalingHash then [.read 12 (Engine.messageLength info.message)] else []
  | .commit | .dhpart1 | .dhpart2 => [.read 24 32]
  | _ => []

/-- The checks of `_zrtp_packet_preparse` on a message, and its handler. -/
def messageAccesses (sha256 : Hash) (s : Endpoint) (info : RtpInfo) : List Access :=
  .read 0 info.packet.length ::
  if !Engine.validateCrc info.packet then []
  else
    .read 14 2 ::
    if Engine.messageLength info.message ≠ info.packet.length - 4 - Engine.rtpHdrSize then []
    else if !sizeCorrect s info then []
    else
      imageAccesses s info ++
      if !Engine.hashCorrect sha256 s.control info then []
      else if !Engine.storedHmacCorrect sha256 s.control info then []
      else handlerAccesses sha256 s info

/-- `zrtp_process_srtp`, up to media. -/
def accesses (sha256 : Hash) (s : Endpoint) (packet : Octets) : List Access :=
  let info := Engine.rtpInfo packet 0
  if packet.length ≤ Engine.rtpHdrSize then []
  else
    .read 4 4 ::
    if info.type = .unparsed then []
    else
      (if Lib.ofBigEndian (slice packet 4 4) = Engine.zrtpPacketsMagic then [.read 16 8] else []) ++
      .read 8 4 :: .read 2 2 ::
      if info.type = .none then [] else messageAccesses sha256 s info

end Messages

end Zrtp

end CryptoOpal

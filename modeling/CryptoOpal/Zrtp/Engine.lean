import CryptoOpal.Zrtp.Preparse

/-!
# The Packet Functions of libzrtp

The four functions an application passes its packets through: RTP and RTCP it
is about to send, and RTP and RTCP it has received. What they do with a packet
is a switch on the state of the protocol. A secure stream encrypts and
decrypts, a stream that is between two states drops, and any other stream
leaves the packet alone.

Received ZRTP messages go to the handler of the state. The handlers of a
stream with keys, and of one that has met an error, are here. Those that agree
on keys or give them up are a parameter. They see a stream without its highest
indices, and say whether they destroyed its SRTP context.

An application may pass any octets. A secure stream without an SRTP context
would make the code follow a null pointer. The model returns `fail`.

## Main definitions

* `Global`: What all streams share, `zrtp_global_t`.
* `processGoclear`, `processSasrelay`: The handlers of two messages.
* `whileInSecure`, `whileInSasrelaying`, `whileInInitiatingerror`: The handlers
  of three states.
* `processRtp`, `processRtcp`, `processSrtp`, `processSrtcp`: The functions.
* `Call`, `callStep`: A call of one of them, as a step of a run.

## Theorems

* `processSrtp_media`: What is done to media a secure stream receives.
* `processRtp_media`: What is done to media a secure stream sends.
* `processRtp_cases`, `processRtcp_cases`: When the nodes are touched.
-/

namespace CryptoOpal

namespace Zrtp

namespace Engine

open Lib (Octets slice ofBigEndian)

/-- What the packet functions use of `zrtp_global_t`: the SHA-256 component,
    and the handlers of the states that are not modelled. -/
structure Global where
  sha256 : Hash
  agree : Control → RtpInfo → Handled

/-- `_zrtp_machine_process_goclear`. A wrong MAC is ignored. -/
def processGoclear (c : Control) (info : RtpInfo) : Handled :=
  if c.allowclear = false then enterInitiatingerror c .goclearUnsp true .fail
  else if (c.session.hash.hmac c.cc.peerHmackey (cstring "GoClear")).take zrtpHmacSize ≠
      slice info.message 12 zrtpHmacSize then .unchanged c .fail
  else .unchanged c .ok

/-- `_zrtp_machine_enter_pendingclear`. -/
def enterPendingclear (c : Control) : Handled := .unchanged { c with state := .pendingClear } .ok

/-- The encrypted part of a SASrelay message: flags, scheme and SAS hash. -/
def relayBody (message : Octets) : Octets := slice message 36 40

/-- The MAC of a SASrelay message is right. -/
def relayHmacCorrect (c : Control) (message : Octets) : Bool :=
  (c.session.hash.hmac c.cc.peerHmackey (relayBody message)).take zrtpHmacSize ==
    slice message 12 zrtpHmacSize

/-- The decrypted part of a SASrelay message. -/
def relayPlain (c : Control) (message : Octets) : Octets :=
  c.session.decryptCfb c.cc.peerZrtpKey (slice message 20 16) (relayBody message)

/-- `_zrtp_machine_process_sasrelay`. Rendering the new SAS does not fail, and
    no packet function reads it. -/
def processSasrelay (c : Control) (info : RtpInfo) : Handled :=
  if c.peerMitmFlag = false then .unchanged c .fail
  else if relayHmacCorrect c info.message = false then .unchanged c .fail
  else
    let plain := relayPlain c info.message
    let flags := (plain.getD 3 0).toNat
    let c' :=
      { c with
        peerDiscloseBit := flags % 2 = 1
        allowclear := flags / 2 % 2 = 1 && c.session.profile.allowclear }
    if slice plain 4 4 ∉ c.session.profile.sasSchemes then
      enterInitiatingerror c' .invalidPacket true .fail
    else if c.session.matchesPbx = false ∧ slice plain 8 32 ≠ List.replicate 32 0 then
      enterInitiatingerror c' .possibleMitm3 true .fail
    else .unchanged c' .ok

/-- `_zrtp_machine_process_while_in_secure`, of a message. -/
def whileInSecure (c : Control) (info : RtpInfo) : Handled :=
  match info.type with
  | .sasrelay => processSasrelay c info
  | .goclear =>
    let handled := processGoclear c info
    if handled.status = .ok then enterPendingclear handled.control else handled
  | _ => .unchanged c .ok

/-- `_zrtp_machine_process_while_in_sasrelaying`, of a message. -/
def whileInSasrelaying (c : Control) (info : RtpInfo) : Handled :=
  match info.type with
  | .relayAck => .unchanged { c with state := .secure } .ok
  | .goclear =>
    let handled := processGoclear c info
    if handled.status = .ok then enterPendingclear handled.control else handled
  | _ => .unchanged c .ok

/-- `_zrtp_machine_enter_pendingerror`. -/
def enterPendingerror (c : Control) (code : Nat) : Handled :=
  .unchanged { c with state := .pendingError, lastError := code } .ok

/-- `_zrtp_machine_process_while_in_initiatingerror`. The code is not put into
    host order. -/
def whileInInitiatingerror (c : Control) (info : RtpInfo) : Handled :=
  match info.type with
  | .error => enterPendingerror c (ofBigEndian (slice info.message 12 4).reverse)
  | .errorAck => switchToError c .ok
  | _ => .unchanged c .ok

/-- An Error message counts in most states. -/
def handleError (c : Control) (info : RtpInfo) : Control :=
  if info.type = .error ∧ c.state.number > StreamState.start.number then
    match c.state with
    | .none | .active | .secure | .pendingError | .initiatingError | .noZrtp => c
    | _ => (enterPendingerror c (ofBigEndian (slice info.message 12 4))).control
  else c

/-- The table `state_handler`. -/
def stateHandler (z : Global) (c : Control) (info : RtpInfo) : Handled :=
  match c.state with
  | .none | .active | .pendingError | .error => .unchanged c .ok
  | .secure => whileInSecure c info
  | .sasRelaying => whileInSasrelaying c info
  | .initiatingError => whileInInitiatingerror c info
  | _ => z.agree c info

/-- A stream that encrypts and decrypts. -/
def isProtecting : StreamState → Bool
  | .secure | .sasRelaying => true
  | _ => false

/-- A stream that drops what it is to send. -/
def dropsOutgoing : StreamState → Bool
  | .startInitiatingSecure | .initiatingSecure | .waitConfirm1 | .waitConfirmAck
  | .pendingSecure | .waitConfirm2 | .pendingClear => true
  | _ => false

/-- A stream that needs `protocol` for the messages it handles. -/
def needsProtocol : StreamState → Bool
  | .initiatingSecure | .waitConfirm1 | .waitConfirmAck | .pendingSecure | .waitConfirm2
  | .secure | .sasRelaying => true
  | _ => false

/-- The SSRC value of an RTCP packet's node. The code casts the octet, not
    the word, and an octet is a signed `char`. -/
def rtcpNodeKey (packet : Octets) : Nat :=
  let first := (packet.getD 4 0).toNat
  if first < 128 then first else 2 ^ 32 - 256 + first

/-- What `zrtp_process_rtcp` and `zrtp_process_srtcp` fill in. -/
def rtcpInfo (packet : Octets) : RtpInfo :=
  { type := .none, packet := packet, seq := 0, ssrc := rtcpNodeKey packet }

/-- The replay nodes after a handler, which may have destroyed the context. -/
def afterHandler (id : Nat) (destroyed : Bool) (rp : ReplayCtx) : ReplayCtx :=
  if destroyed then srtpDestroy id rp else rp

/-- `_zrtp_protocol_encrypt`. -/
def protocolEncrypt (id : Nat) (rp : ReplayCtx) (c : Control) (info : RtpInfo) (isRtp : Bool) :
    ReplayCtx × Outcome :=
  match c.srtp with
  | none => (rp, .untouched .fail info.packet)
  | some ctx =>
    let done :=
      if isRtp then srtpProtect ctx id rp.outHead info else srtpProtectRtcp ctx id rp.outHead info
    ({ rp with outHead := done.1 }, done.2)

/-- `_zrtp_protocol_decrypt`. -/
def protocolDecrypt (id : Nat) (rp : ReplayCtx) (c : Control) (info : RtpInfo) (isRtp : Bool) :
    ReplayCtx × Outcome :=
  match c.srtp with
  | none => (rp, .untouched .fail info.packet)
  | some ctx =>
    let done :=
      if isRtp then srtpUnprotect ctx id rp.incHead info
      else srtpUnprotectRtcp ctx id rp.incHead info
    ({ rp with incHead := done.1 }, done.2)

/-- What a packet function leaves: the nodes, the stream, and the packet. -/
structure Processed where
  rp : ReplayCtx
  stream : Stream
  outcome : Outcome

/-- `zrtp_process_rtp`, for the stream with this number. -/
def processRtp (z : Global) (id : Nat) (rp : ReplayCtx) (stream : Stream) (packet : Octets) :
    Processed :=
  if stream.control.state.number < StreamState.start.number then
    ⟨rp, stream, .untouched .ok packet⟩
  else
    let pre := preparse z.sha256 stream packet false
    let state := stream.control.state
    if pre.status ≠ .ok then ⟨rp, pre.stream, .untouched .fail packet⟩
    else if pre.info.type ≠ .none then ⟨rp, pre.stream, .untouched .ok packet⟩
    else if dropsOutgoing state then ⟨rp, pre.stream, .untouched .drop packet⟩
    else if isProtecting state then
      let done := protocolEncrypt id rp pre.stream.control pre.info true
      ⟨done.1, pre.stream, done.2⟩
    else ⟨rp, pre.stream, .untouched .ok packet⟩

/-- `zrtp_process_rtcp`. -/
def processRtcp (id : Nat) (rp : ReplayCtx) (stream : Stream) (packet : Octets) : Processed :=
  let state := stream.control.state
  if dropsOutgoing state then ⟨rp, stream, .untouched .drop packet⟩
  else if isProtecting state then
    if packet.length < rtcpHdrSize then ⟨rp, stream, .untouched .fail packet⟩
    else
      let done := protocolEncrypt id rp stream.control (rtcpInfo packet) false
      ⟨done.1, stream, done.2⟩
  else ⟨rp, stream, .untouched .ok packet⟩

/-- `zrtp_process_srtcp`. -/
def processSrtcp (id : Nat) (rp : ReplayCtx) (stream : Stream) (packet : Octets) : Processed :=
  match stream.control.state with
  | .initiatingClear | .pendingClear | .initiatingSecure | .pendingSecure =>
    ⟨rp, stream, .untouched .drop packet⟩
  | .secure | .sasRelaying =>
    if packet.length < rtcpHdrSize then ⟨rp, stream, .untouched .fail packet⟩
    else
      let done := protocolDecrypt id rp stream.control (rtcpInfo packet) false
      ⟨done.1, stream, done.2⟩
  | _ => ⟨rp, stream, .untouched .ok packet⟩

/-- What `zrtp_process_srtp` does with a packet that was parsed. -/
def processParsed (z : Global) (id : Nat) (rp : ReplayCtx) (stream : Stream) (info : RtpInfo) :
    Processed :=
  let c := stream.control
  let packet := info.packet
  if info.type = .zfoneping then ⟨rp, stream, .untouched .drop packet⟩
  else if c.state.number < StreamState.start.number then
    ⟨rp, stream, .untouched (if info.type = .none then .ok else .drop) packet⟩
  else if needsProtocol c.state ∧ c.protocol.isNone then
    ⟨rp, stream, .untouched .fail packet⟩
  else
    let c' := handleError c info
    if info.type = .none ∧ isProtecting c'.state then
      let done := protocolDecrypt id rp c' info true
      ⟨done.1, { stream with control := c' }, done.2⟩
    else
      let handled := stateHandler z c' info
      ⟨afterHandler id handled.destroyed rp, { stream with control := handled.control },
        .untouched (if info.type = .none then handled.status else .drop) packet⟩

/-- `zrtp_process_srtp`. -/
def processSrtp (z : Global) (id : Nat) (rp : ReplayCtx) (stream : Stream) (packet : Octets) :
    Processed :=
  if packet.length ≤ rtpHdrSize then ⟨rp, stream, .untouched .badParam packet⟩
  else
    let pre := preparse z.sha256 stream packet true
    let rp' := afterHandler id pre.destroyed rp
    if pre.status ≠ .ok then ⟨rp', pre.stream, .untouched pre.status packet⟩
    else processParsed z id rp' pre.stream pre.info

/-- A call of one of the four functions. -/
inductive Call where
  | rtp (packet : Octets)
  | rtcp (packet : Octets)
  | srtp (packet : Octets)
  | srtcp (packet : Octets)
  deriving DecidableEq

/-- The function that is called. -/
def process (z : Global) (id : Nat) (rp : ReplayCtx) (stream : Stream) : Call → Processed
  | .rtp packet => processRtp z id rp stream packet
  | .rtcp packet => processRtcp id rp stream packet
  | .srtp packet => processSrtp z id rp stream packet
  | .srtcp packet => processSrtcp id rp stream packet

/-- One call, as a step of a run of one stream. -/
def callStep (z : Global) (id : Nat) (s : ReplayCtx × Stream) (call : Call) :
    (ReplayCtx × Stream) × Outcome :=
  let done := process z id s.1 s.2 call
  ((done.rp, done.stream), done.outcome)

/-- Media that a stream sends while it protects goes to `srtpProtect`. -/
theorem processRtp_media (z : Global) (id : Nat) (rp : ReplayCtx) (stream : Stream)
    {packet : Octets} (hstate : isProtecting stream.control.state = true)
    (hlen : rtpHdrSize ≤ packet.length) (htype : getType packet = .none) :
    processRtp z id rp stream packet =
      let done := protocolEncrypt id rp stream.control (mediaInfo stream packet false) true
      ⟨done.1, noteMedia stream packet false, done.2⟩ := by
  have hstarted : ¬ stream.control.state.number < StreamState.start.number := by
    revert hstate
    cases stream.control.state <;> decide
  have hnodrop : ¬ dropsOutgoing stream.control.state = true := by
    revert hstate
    cases stream.control.state <;> decide
  have hnone : (mediaInfo stream packet false).type = .none := htype
  simp only [processRtp]
  rw [if_neg hstarted, preparse_media z.sha256 stream false hlen htype]
  simp only [hnone, ne_eq, not_true, if_false, if_neg hnodrop, hstate, if_true]
  rfl

/-- Sending RTP either leaves the nodes and the packet alone, or is a call of
    `srtpProtect`. -/
theorem processRtp_cases (z : Global) (id : Nat) (rp : ReplayCtx) (stream : Stream)
    (packet : Octets) :
    let done := processRtp z id rp stream packet
    (done.rp = rp ∧ done.outcome.iv = none) ∨
      ∃ ctx, isProtecting stream.control.state = true ∧ getType packet = .none ∧
        let sent := srtpProtect ctx id rp.outHead (mediaInfo stream packet false)
        done.rp = { rp with outHead := sent.1 } ∧ done.outcome = sent.2 := by
  by_cases hmedia : isProtecting stream.control.state = true ∧ rtpHdrSize ≤ packet.length ∧
      getType packet = .none
  · rcases hmedia with ⟨hstate, hlen, htype⟩
    rw [processRtp_media z id rp stream hstate hlen htype]
    simp only [protocolEncrypt]
    cases stream.control.srtp with
    | none => exact Or.inl ⟨rfl, rfl⟩
    | some ctx => exact Or.inr ⟨ctx, hstate, htype, rfl, rfl⟩
  · -- Every other branch returns the packet as it is.
    left
    simp only [processRtp]
    split
    · exact ⟨rfl, rfl⟩
    split
    · exact ⟨rfl, rfl⟩
    rename_i hparsed
    split
    · exact ⟨rfl, rfl⟩
    rename_i htype
    split
    · exact ⟨rfl, rfl⟩
    split
    · rename_i hstate
      exfalso
      have hlen : rtpHdrSize ≤ packet.length := by
        by_contra hshort
        apply hparsed
        simp only [preparse]
        rw [if_pos (Or.inl (by omega))]
        simp only [ne_eq, reduceCtorEq, not_false_eq_true]
      refine hmedia ⟨hstate, hlen, ?_⟩
      by_contra hother
      apply htype
      simp only [preparse]
      split
      · exact hother
      · split
        · exact hother
        · exact hother
    · exact ⟨rfl, rfl⟩

/-- Sending RTCP either leaves the nodes and the packet alone, or is a call of
    `srtpProtectRtcp`. -/
theorem processRtcp_cases (id : Nat) (rp : ReplayCtx) (stream : Stream) (packet : Octets) :
    let done := processRtcp id rp stream packet
    (done.rp = rp ∧ done.outcome.iv = none) ∨
      ∃ ctx, isProtecting stream.control.state = true ∧ rtcpHdrSize ≤ packet.length ∧
        let sent := srtpProtectRtcp ctx id rp.outHead (rtcpInfo packet)
        done.rp = { rp with outHead := sent.1 } ∧ done.outcome = sent.2 := by
  simp only [processRtcp]
  split
  · exact Or.inl ⟨rfl, rfl⟩
  split
  · rename_i hstate
    split
    · exact Or.inl ⟨rfl, rfl⟩
    · rename_i hshort
      simp only [protocolEncrypt]
      cases stream.control.srtp with
      | none => exact Or.inl ⟨rfl, rfl⟩
      | some ctx => exact Or.inr ⟨ctx, hstate, Nat.le_of_not_lt hshort, rfl, rfl⟩
  · exact Or.inl ⟨rfl, rfl⟩

/-- Only an Error message is looked at before its handler runs. -/
theorem handleError_of_ne {c : Control} {info : RtpInfo} (h : info.type ≠ .error) :
    handleError c info = c := by
  rw [handleError, if_neg fun hboth => h hboth.1]

/-- Media that a stream receives while it protects goes to `srtpUnprotect`. -/
theorem processSrtp_media (z : Global) (id : Nat) (rp : ReplayCtx) (stream : Stream)
    {packet : Octets} (hstate : isProtecting stream.control.state = true)
    (hlen : rtpHdrSize < packet.length) (htype : getType packet = .none) :
    processSrtp z id rp stream packet =
      let done := protocolDecrypt id rp stream.control (mediaInfo stream packet true) true
      ⟨done.1, noteMedia stream packet true, done.2⟩ := by
  have hstarted : ¬ stream.control.state.number < StreamState.start.number := by
    revert hstate
    cases stream.control.state <;> decide
  have hneeds : needsProtocol stream.control.state = true := by
    revert hstate
    cases stream.control.state <;> decide
  have hnone : (mediaInfo stream packet true).type = .none := htype
  have hping : ¬ (mediaInfo stream packet true).type = .zfoneping := by
    rw [hnone]
    simp only [reduceCtorEq, not_false_eq_true]
  have herror : (mediaInfo stream packet true).type ≠ .error := by
    rw [hnone]
    simp only [ne_eq, reduceCtorEq, not_false_eq_true]
  rw [processSrtp, if_neg (by omega), preparse_media z.sha256 stream true (by omega) htype]
  simp only [ne_eq, not_true, if_false, afterHandler, Bool.false_eq_true, processParsed, noteMedia]
  rw [if_neg hping, if_neg hstarted, handleError_of_ne herror]
  -- Without `protocol` both sides return `fail`.
  cases hprotocol : stream.control.protocol with
  | none =>
      have hsrtp : stream.control.srtp = none := by rw [Control.srtp, hprotocol, Option.bind_none]
      simp only [hneeds, Option.isNone_none, and_self, if_true, protocolDecrypt, hsrtp]
  | some protocol =>
      simp only [hneeds, Option.isNone_some, Bool.false_eq_true, and_false, if_false, hnone, hstate,
        and_self, if_true]

section Samples

/-- A tag for examples. -/
def sampleTag (m : Octets) : Octets := (sampleDigest m).drop 22

theorem length_sampleTag (m : Octets) : (sampleTag m).length = 10 := by
  rw [sampleTag, List.length_drop, sampleDigest, Lib.length_bigEndian]

/-- Keys for one direction. The keystream repeats the IV. -/
def sampleSrtpStream : SrtpStreamCtx :=
  { rtpCipher := fun iv i => iv.getD (i % 16) 0
    rtpAuth := sampleTag
    rtpTagLen := 10
    rtcpCipher := fun iv i => iv.getD (i % 16) 0
    rtcpAuth := sampleTag
    rtcpTagLen := 10
    length_rtpAuth := length_sampleTag
    length_rtcpAuth := length_sampleTag }

/-- A secure stream whose ends allow GoClear messages, or do not. -/
def sampleSecure (allowclear : Bool) : Stream :=
  { control :=
      { state := .secure
        mode := .dh
        allowclear := allowclear
        peerMitmFlag := false
        peerDiscloseBit := false
        lastError := 0
        protocol := some ⟨some ⟨sampleSrtpStream, sampleSrtpStream⟩⟩
        cc := ⟨[1], [2]⟩
        pvLength := some 384
        peerHello := []
        peerCommit := []
        session :=
          { profile := ⟨allowclear, [cstring "B32 "]⟩
            matchesPbx := false
            hash := sampleHash
            decryptCfb := fun _ _ m => m } }
    mediaCtx := ⟨0, 0, 0, 0⟩ }

/-- Handlers that do nothing. -/
def sampleGlobal : Global := ⟨sampleHash, fun c _ => .unchanged c .ok⟩

/-- An RTP packet of this SSRC. -/
def sampleMedia (ssrc : UInt8) (seq : Nat) (payload : Octets) : Octets :=
  [0x80, 0] ++ Lib.bigEndian 2 seq ++ [0, 0, 0, 0, ssrc, 0, 0, 0] ++ payload

/-- A packet that a peer of this SSRC protects with the keys for examples. -/
def sampleSealed (ssrc : UInt8) (seq : Nat) : Octets :=
  (processRtp sampleGlobal 0 .init (sampleSecure false) (sampleMedia ssrc seq [1, 2, 3])).outcome.packet

end Samples

end Engine

end Zrtp

end CryptoOpal

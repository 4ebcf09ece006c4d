import CryptoOpal.Zrtp.Secrets
import CryptoOpal.Zrtp.SrtpBuiltin

/-!
# What libzrtp Does to a Packet First

Every packet of a stream, in either direction, goes through
`_zrtp_packet_preparse` before anything else looks at it. It tells media from
ZRTP messages, extends the sequence number to an index, and checks a message
that came in: its CRC, its length field, the size its type asks for, the hash
image it continues, and the MAC of the message before it.

The index is an estimate from the highest index of its kind so far. The
stream's four highest indices are kept apart from the rest of it here, since
nothing else reads or writes them.

Some of the checks move the stream to an error state. Messages that are sent,
timers, callbacks and log lines are left out.

## Main definitions

* `Control`: What the protocol keeps of a stream, `zrtp_stream_t`.
* `MediaContext`: `zrtp_media_context_t`.
* `Stream`: Both.
* `getType`: `_zrtp_packet_get_type`.
* `estimateIndex`, `convertSeq`: `_estimate_index`,
  `_convert_seq_to_implicit_seq`.
* `enterInitiatingerror`: `_zrtp_machine_enter_initiatingerror`.
* `preparse`: `_zrtp_packet_preparse`.
* `Checked`: The ways the checks on a message end.

## Theorems

* `checked_checkMessage`: They end in one of these ways.
* `estimateIndex_eq`: The estimate as a number.
* `estimateIndex_lt`: It has 32 bits.
* `preparse_media`, `preparse_message`: What is done to media and to a message.
-/

namespace CryptoOpal

namespace Zrtp

namespace Engine

open Lib (Octets slice ofBigEndian)

/-- The SAS rendering schemes and the `allowclear` flag of `zrtp_profile_t`. -/
structure Profile where
  allowclear : Bool
  sasSchemes : List Octets

/-- What the packet functions read of `zrtp_session_t`: its profile, whether
    the PBX secrets of both ends match, its hash, and its block cipher in CFB
    mode, by key, IV and ciphertext. -/
structure Session where
  profile : Profile
  matchesPbx : Bool
  hash : Hash
  decryptCfb : Octets → Octets → Octets → Octets

/-- The keys of `zrtp_stream_crypto_t` that come from the peer. -/
structure CryptoKeys where
  peerHmackey : Octets
  peerZrtpKey : Octets
  deriving DecidableEq

/-- `zrtp_protocol_t`: its SRTP context, once there are keys. -/
structure Protocol where
  srtp : Option SrtpCtx

/-- What the protocol keeps of a `zrtp_stream_t`. A `pubkeyscheme` is known by
    its `pv_length`. -/
structure Control where
  state : StreamState
  mode : StreamMode
  allowclear : Bool
  peerMitmFlag : Bool
  peerDiscloseBit : Bool
  lastError : Nat
  protocol : Option Protocol
  cc : CryptoKeys
  pvLength : Option Nat
  peerHello : Octets
  peerCommit : Octets
  session : Session

/-- `stream->protocol->_srtp`. -/
def Control.srtp (c : Control) : Option SrtpCtx := c.protocol.bind Protocol.srtp

/-- `zrtp_media_context_t`: the highest index so far. -/
structure MediaContext where
  highInZrtpSeq : Nat
  highOutZrtpSeq : Nat
  highInMediaSeq : Nat
  highOutMediaSeq : Nat
  deriving DecidableEq

/-- A stream. -/
structure Stream where
  control : Control
  mediaCtx : MediaContext

/-- `RTP_HDR_SIZE`. -/
def rtpHdrSize : Nat := 12

/-- `RTCP_HDR_SIZE`. -/
def rtcpHdrSize : Nat := 8

/-- `ZRTP_MIN_PACKET_LENGTH`. -/
def zrtpMinPacketLength : Nat := rtpHdrSize + 4 + 8 + 4

/-- `ZRTP_PACKETS_MAGIC`. -/
def zrtpPacketsMagic : Nat := 0x5a525450

/-- `ZRTP_HMAC_SIZE`. -/
def zrtpHmacSize : Nat := 8

/-- `ZRTP_MESSAGE_HASH_SIZE`. -/
def zrtpMessageHashSize : Nat := 32

/-- `ZRTP_COMMIT_STATIC_SIZE`. -/
def zrtpCommitStaticSize : Nat := 32 + 12 + 4 * 5

/-- `ZRTP_DH_STATIC_SIZE`. -/
def zrtpDhStaticSize : Nat := 32 + 4 * 8

/-- The names `_zrtp_packet_get_type` knows. -/
def typeNames : List (String × MsgType) :=
  [("Commit  ", .commit), ("Conf2ACK", .confirm2Ack), ("Confirm1", .confirm1),
    ("Confirm2", .confirm2), ("ClearACK", .goclearAck), ("DHPart1 ", .dhpart1),
    ("DHPart2 ", .dhpart2), ("Error   ", .error), ("ErrorACK", .errorAck),
    ("GoClear ", .goclear), ("Hello   ", .hello), ("HelloACK", .helloAck),
    ("Ping    ", .zfoneping), ("PingACK ", .zfonepingAck), ("RelayACK", .relayAck),
    ("SASrelay", .sasrelay)]

/-- The type field spells this name. Its first letter may be a small one. -/
def spells (name : Octets) (field : Octets) : Bool :=
  (field.take 1 == name.take 1 || field.take 1 == (name.take 1).map (· + 32)) &&
    field.drop 1 == name.drop 1

/-- `_zrtp_packet_get_type`. A message with the magic and an unknown name is
    taken for media. -/
def getType (packet : Octets) : MsgType :=
  if ofBigEndian (slice packet 4 4) ≠ zrtpPacketsMagic then .none
  else if packet.length < zrtpMinPacketLength then .unparsed
  else
    match typeNames.find? fun entry => spells (cstring entry.1) (slice packet (rtpHdrSize + 4) 8) with
    | some entry => entry.2
    | none => .none

/-- `_estimate_index`. -/
def estimateIndex (seq sL : Nat) : Nat :=
  let roc := sL / 2 ^ 16 % 2 ^ 16
  if sL = 0 then seq
  else
    let low := sL % 2 ^ 16
    let v :=
      if low < 32768 then
        if seq < low then roc
        else if seq - low > 32768 then (if roc ≠ 0 then roc - 1 else 0)
        else roc
      else if low - 32768 > seq then roc + 1
      else roc
    seq ||| (v <<< 16 % 2 ^ 32)

/-- The highest index of a kind. -/
def MediaContext.high (m : MediaContext) (isMedia isInput : Bool) : Nat :=
  if isInput then (if isMedia then m.highInMediaSeq else m.highInZrtpSeq)
  else if isMedia then m.highOutMediaSeq
  else m.highOutZrtpSeq

/-- The highest index of a kind becomes this one. -/
def MediaContext.setHigh (m : MediaContext) (isMedia isInput : Bool) (seq : Nat) : MediaContext :=
  if isInput then
    if isMedia then { m with highInMediaSeq := seq } else { m with highInZrtpSeq := seq }
  else if isMedia then { m with highOutMediaSeq := seq }
  else { m with highOutZrtpSeq := seq }

/-- `_convert_seq_to_implicit_seq`. -/
def convertSeq (m : MediaContext) (packet : Octets) (isMedia isInput : Bool) :
    Nat × MediaContext :=
  let ctxSeq := m.high isMedia isInput
  let headerSeq := estimateIndex (ofBigEndian (slice packet 2 2)) ctxSeq
  (headerSeq,
    if ctxSeq = 0 ∨ headerSeq > ctxSeq then m.setHigh isMedia isInput headerSeq else m)

/-- An entry of the table `crc_c`, from the octet's eight bits. -/
def crcEntry : Nat → Nat → Nat
  | 0, c => c
  | bits + 1, c => crcEntry bits (if c % 2 = 1 then (c / 2) ^^^ 0x82F63B78 else c / 2)

/-- `zrtp_generate_crc`, in the order its octets have in the packet. -/
def generateCrc (buff : Octets) : Octets :=
  let crc := buff.foldl (fun c b => (c / 256) ^^^ crcEntry 8 ((c ^^^ b.toNat) % 256)) 0xffffffff
  (Lib.bigEndian 4 (crc ^^^ 0xffffffff)).reverse

/-- `_zrtp_packet_validate_crc`. -/
def validateCrc (packet : Octets) : Bool :=
  generateCrc (packet.take (packet.length - 4)) == packet.drop (packet.length - 4)

/-- The length field of a message, in octets. -/
def messageLength (message : Octets) : Nat := ofBigEndian (slice message 2 2) * 4

/-- The packet has the size its type asks for. -/
def sizeCorrect (c : Control) (info : RtpInfo) : Bool :=
  let length := info.packet.length
  match info.type with
  | .commit =>
    match c.mode with
    | .dh => length ≥ rtpHdrSize + zrtpCommitStaticSize + 32 + zrtpHmacSize
    | .mult => length ≥ rtpHdrSize + zrtpCommitStaticSize + 16 + zrtpHmacSize
    | .preshared => length ≥ rtpHdrSize + zrtpCommitStaticSize + 16 + 8 + zrtpHmacSize
  | .dhpart1 | .dhpart2 =>
    match c.pvLength with
    | some pv => length == zrtpMinPacketLength + zrtpDhStaticSize + pv + zrtpHmacSize
    | none => true
  | .confirm1 | .confirm2 => length ≥ rtpHdrSize + 76
  | .sasrelay => length ≥ rtpHdrSize + 76
  | .goclear => length ≥ rtpHdrSize + 20
  | .error => length ≥ rtpHdrSize + 16
  | .zfoneping | .zfonepingAck => length ≥ rtpHdrSize + 24
  | _ => true

/-- What a message continues: the value whose hash is compared, and what it is
    compared with. -/
def hashImage (sha256 : Hash) (c : Control) (info : RtpInfo) : Option (Octets × Octets) :=
  let image := slice info.message 12 zrtpMessageHashSize
  match info.type with
  | .commit => some (image, slice c.peerHello 32 zrtpMessageHashSize)
  | .dhpart1 => some (sha256.digest image, slice c.peerHello 32 zrtpMessageHashSize)
  | .dhpart2 => some (image, slice c.peerCommit 12 zrtpMessageHashSize)
  | _ => none

/-- The hash of the image is the one that was announced. -/
def hashCorrect (sha256 : Hash) (c : Control) (info : RtpInfo) : Bool :=
  match hashImage sha256 c info with
  | some (rechash, hash2compare) =>
    (sha256.digest rechash).take zrtpMessageHashSize == hash2compare
  | none => true

/-- The comparison of `_zrtp_validate_message_hmac`. -/
def messageHmacCorrect (sha256 : Hash) (message hmackey : Octets) : Bool :=
  let len := messageLength message - zrtpHmacSize
  sha256.hmacTruncated hmackey (message.take len) zrtpHmacSize == slice message len zrtpHmacSize

/-- The MAC of the stored message, under the value that this one reveals. -/
def storedHmacCorrect (sha256 : Hash) (c : Control) (info : RtpInfo) : Bool :=
  match hashImage sha256 c info with
  | some (rechash, _) =>
    messageHmacCorrect sha256 (if info.type = .dhpart2 then c.peerCommit else c.peerHello) rechash
  | none => true

/-- What a handler did to a stream: how it left it, whether it destroyed the
    SRTP context, and its status. -/
structure Handled where
  control : Control
  destroyed : Bool
  status : ZrtpStatus

/-- The stream is as it was. -/
def Handled.unchanged (c : Control) (status : ZrtpStatus) : Handled := ⟨c, false, status⟩

/-- `_zrtp_machine_switch_to_error`, with `_clear_stream_crypto`. -/
def switchToError (c : Control) (status : ZrtpStatus) : Handled :=
  ⟨{ c with state := .error, protocol := none, cc := ⟨[], []⟩, lastError := 0 },
    c.srtp.isSome, status⟩

/-- `_zrtp_machine_enter_initiatingerror`, and the status its caller returns. -/
def enterInitiatingerror (c : Control) (code : ProtocolError) (notif : Bool)
    (status : ZrtpStatus) : Handled :=
  if c.state ≠ .error ∧ c.state ≠ .initiatingError ∧ c.state ≠ .pendingError then
    if notif then ⟨{ c with state := .initiatingError, lastError := code.code }, false, status⟩
    else switchToError c status
  else .unchanged c status

/-- The checks on a ZRTP message that came in. -/
def checkMessage (sha256 : Hash) (c : Control) (info : RtpInfo) : Handled :=
  if validateCrc info.packet = false then .unchanged c .crcFail
  else if messageLength info.message ≠ info.packet.length - 4 - rtpHdrSize then
    .unchanged c .badParam
  else if sizeCorrect c info = false then enterInitiatingerror c .invalidPacket true .attack
  else if hashCorrect sha256 c info = false then .unchanged c .attack
  else if storedHmacCorrect sha256 c info = false then
    enterInitiatingerror c .wrongMeshmac false .fail
  else .unchanged c .ok

/-- The fields of `zrtp_rtp_info_t`, with the index the packet was given. The
    SSRC is the word a little-endian host reads. -/
def rtpInfo (packet : Octets) (seq : Nat) : RtpInfo :=
  { type := getType packet, packet := packet, seq := seq,
    ssrc := ofBigEndian (rtpSsrc packet).reverse }

/-- What `_zrtp_packet_preparse` leaves: the stream, whether the SRTP context
    is gone, the status, and the packet's fields. -/
structure Preparsed where
  stream : Stream
  destroyed : Bool
  status : ZrtpStatus
  info : RtpInfo

/-- `_zrtp_packet_preparse`. -/
def preparse (sha256 : Hash) (stream : Stream) (packet : Octets) (isInput : Bool) : Preparsed :=
  let type := getType packet
  if packet.length < rtpHdrSize ∨ type = .unparsed then
    ⟨stream, false, .badParam, rtpInfo packet 0⟩
  else
    let converted := convertSeq stream.mediaCtx packet (type == .none) isInput
    let info := rtpInfo packet converted.1
    if isInput ∧ type ≠ .none then
      let checked := checkMessage sha256 stream.control info
      ⟨⟨checked.control, converted.2⟩, checked.destroyed, checked.status, info⟩
    else ⟨⟨stream.control, converted.2⟩, false, .ok, info⟩

/-- The caller's status does not depend on whether the stream had failed
    before. -/
@[simp] theorem status_enterInitiatingerror (c : Control) (code : ProtocolError) (notif : Bool)
    (status : ZrtpStatus) : (enterInitiatingerror c code notif status).status = status := by
  rw [enterInitiatingerror]
  split
  · cases notif with
    | true => rfl
    | false => rfl
  · rfl

/-- The CRC and the length field of a message are right. -/
def Framed (info : RtpInfo) : Prop :=
  validateCrc info.packet = true ∧
    messageLength info.message = info.packet.length - 4 - rtpHdrSize

/-- The ways the checks end. -/
inductive Checked (sha256 : Hash) (c : Control) (info : RtpInfo) : Handled → Prop where
  | broken (status : ZrtpStatus) : ¬ Framed info → status ≠ .ok →
      Checked sha256 c info (.unchanged c status)
  | size : Framed info → sizeCorrect c info = false →
      Checked sha256 c info (enterInitiatingerror c .invalidPacket true .attack)
  | hash : Framed info → sizeCorrect c info = true → hashCorrect sha256 c info = false →
      Checked sha256 c info (.unchanged c .attack)
  | stored : Framed info → sizeCorrect c info = true → hashCorrect sha256 c info = true →
      storedHmacCorrect sha256 c info = false →
      Checked sha256 c info (enterInitiatingerror c .wrongMeshmac false .fail)
  | passed : Framed info → sizeCorrect c info = true → hashCorrect sha256 c info = true →
      storedHmacCorrect sha256 c info = true → Checked sha256 c info (.unchanged c .ok)

theorem checked_checkMessage (sha256 : Hash) (c : Control) (info : RtpInfo) :
    Checked sha256 c info (checkMessage sha256 c info) := by
  rw [checkMessage]
  cases hcrc : validateCrc info.packet with
  | false =>
      rw [if_pos rfl]
      refine .broken .crcFail ?_ (by decide)
      intro hframed
      rw [hframed.1] at hcrc
      exact absurd hcrc (by decide)
  | true =>
      rw [if_neg (by decide)]
      by_cases hlen : messageLength info.message = info.packet.length - 4 - rtpHdrSize
      · have hframed : Framed info := ⟨hcrc, hlen⟩
        rw [if_neg (not_not_intro hlen)]
        cases hsize : sizeCorrect c info with
        | false =>
            rw [if_pos rfl]
            exact .size hframed hsize
        | true =>
            rw [if_neg (by decide)]
            cases hhash : hashCorrect sha256 c info with
            | false =>
                rw [if_pos rfl]
                exact .hash hframed hsize hhash
            | true =>
                rw [if_neg (by decide)]
                cases hstored : storedHmacCorrect sha256 c info with
                | false =>
                    rw [if_pos rfl]
                    exact .stored hframed hsize hhash hstored
                | true =>
                    rw [if_neg (by decide)]
                    exact .passed hframed hsize hhash hstored
      · rw [if_pos hlen]
        exact .broken .badParam (fun hframed => hlen hframed.2) (by decide)

/-- A message that passed the checks found the stream as it leaves it. -/
theorem Checked.control_of_ok {sha256 : Hash} {c : Control} {info : RtpInfo} {checked : Handled}
    (h : Checked sha256 c info checked) (hok : checked.status = .ok) :
    checked = .unchanged c .ok := by
  cases h with
  | broken status _ hbad => exact absurd hok hbad
  | size _ _ =>
      rw [status_enterInitiatingerror] at hok
      exact absurd hok (by decide)
  | hash _ _ _ => exact absurd hok (by simp only [Handled.unchanged, reduceCtorEq, not_false_eq_true])
  | stored _ _ _ _ =>
      rw [status_enterInitiatingerror] at hok
      exact absurd hok (by decide)
  | passed _ _ _ _ => rfl

/-- The fields of a media packet. -/
def mediaInfo (stream : Stream) (packet : Octets) (isInput : Bool) : RtpInfo :=
  rtpInfo packet (convertSeq stream.mediaCtx packet true isInput).1

/-- The stream once the index of a media packet has been estimated. -/
def noteMedia (stream : Stream) (packet : Octets) (isInput : Bool) : Stream :=
  { stream with mediaCtx := (convertSeq stream.mediaCtx packet true isInput).2 }

/-- Media is given an index and passed on. -/
theorem preparse_media (sha256 : Hash) (stream : Stream) {packet : Octets} (isInput : Bool)
    (hlen : rtpHdrSize ≤ packet.length) (htype : getType packet = .none) :
    preparse sha256 stream packet isInput =
      ⟨noteMedia stream packet isInput, false, .ok, mediaInfo stream packet isInput⟩ := by
  have hgood : ¬ (packet.length < rtpHdrSize ∨ getType packet = .unparsed) := by
    rw [htype]
    rintro (h | h)
    · omega
    · exact absurd h (by simp only [reduceCtorEq, not_false_eq_true])
  have hmedia : ¬ (isInput = true ∧ getType packet ≠ .none) := fun h => h.2 htype
  simp only [preparse]
  rw [if_neg hgood, if_neg hmedia, htype]
  rfl

/-- The fields of a message that came in. -/
def messageInfo (stream : Stream) (packet : Octets) : RtpInfo :=
  rtpInfo packet (convertSeq stream.mediaCtx packet false true).1

/-- A message that came in is given an index and checked. -/
theorem preparse_message (sha256 : Hash) (stream : Stream) {packet : Octets}
    (hlen : rtpHdrSize ≤ packet.length) (hmsg : getType packet ≠ .none)
    (hparsed : getType packet ≠ .unparsed) :
    preparse sha256 stream packet true =
      let checked := checkMessage sha256 stream.control (messageInfo stream packet)
      ⟨⟨checked.control, (convertSeq stream.mediaCtx packet false true).2⟩, checked.destroyed,
        checked.status, messageInfo stream packet⟩ := by
  have hgood : ¬ (packet.length < rtpHdrSize ∨ getType packet = .unparsed) := by
    rintro (h | h)
    · omega
    · exact hparsed h
  have hmedia : (getType packet == MsgType.none) = false := beq_false_of_ne hmsg
  simp only [preparse]
  rw [if_neg hgood, if_pos ⟨trivial, hmsg⟩, hmedia]
  rfl

/-- A sequence number with a rollover counter above it. -/
theorem or_rollover {seq : Nat} (hseq : seq < 2 ^ 16) (v : Nat) :
    seq ||| (v <<< 16 % 2 ^ 32) = v % 2 ^ 16 * 2 ^ 16 + seq := by
  have hshift : v <<< 16 % 2 ^ 32 = (v % 2 ^ 16) <<< 16 := by
    rw [Nat.shiftLeft_eq, Nat.shiftLeft_eq]
    omega
  rw [hshift, Nat.or_comm, ← Nat.shiftLeft_add_eq_or_of_lt hseq, Nat.shiftLeft_eq]

/-- The estimate is the sequence number with a rollover counter above it. -/
theorem estimateIndex_eq {seq : Nat} (hseq : seq < 2 ^ 16) (sL : Nat) :
    ∃ v, estimateIndex seq sL = v % 2 ^ 16 * 2 ^ 16 + seq := by
  rw [estimateIndex]
  by_cases hzero : sL = 0
  · rw [if_pos hzero]
    exact ⟨0, by omega⟩
  · rw [if_neg hzero]
    exact ⟨_, or_rollover hseq _⟩

/-- In the lower half of its range, an index looks half a range ahead. What is
    further is taken for the range before, if there is one. -/
theorem estimateIndex_lower {seq sL : Nat} (hseq : seq < 2 ^ 16) (hhalf : sL % 2 ^ 16 < 32768) :
    estimateIndex seq sL =
      (if seq > sL % 2 ^ 16 + 32768 then sL / 2 ^ 16 % 2 ^ 16 - 1 else sL / 2 ^ 16 % 2 ^ 16) *
        2 ^ 16 + seq := by
  rw [estimateIndex]
  by_cases hzero : sL = 0
  · rw [if_pos hzero, hzero]
    split
    · omega
    · omega
  rw [if_neg hzero, or_rollover hseq, if_pos hhalf]
  split
  · rw [if_neg (by omega), Nat.mod_mod]
  split
  · -- In the first range there is none before it.
    rename_i hfar
    have hpast : seq > sL % 2 ^ 16 + 32768 := by omega
    rw [if_pos hpast]
    split
    · omega
    · omega
  · rw [if_neg (by omega), Nat.mod_mod]

/-- In the upper half, what is more than half a range behind is taken for the
    range after. -/
theorem estimateIndex_upper {seq sL : Nat} (hseq : seq < 2 ^ 16) (hhalf : 32768 ≤ sL % 2 ^ 16) :
    estimateIndex seq sL =
      (if seq + 32768 < sL % 2 ^ 16 then (sL / 2 ^ 16 + 1) % 2 ^ 16 else sL / 2 ^ 16 % 2 ^ 16) *
        2 ^ 16 + seq := by
  have hzero : sL ≠ 0 := by
    intro h
    rw [h] at hhalf
    omega
  rw [estimateIndex, if_neg hzero, or_rollover hseq, if_neg (by omega)]
  split
  · rw [if_pos (by omega)]
    omega
  · rw [if_neg (by omega), Nat.mod_mod]

/-- The estimate has 32 bits. -/
theorem estimateIndex_lt {seq : Nat} (hseq : seq < 2 ^ 16) (sL : Nat) :
    estimateIndex seq sL < 2 ^ 32 := by
  rcases estimateIndex_eq hseq sL with ⟨v, hv⟩
  have hroc : v % 2 ^ 16 < 2 ^ 16 := Nat.mod_lt _ (by decide)
  omega

/-- The sequence number in the header has 16 bits. -/
theorem headerSeq_lt (packet : Octets) : ofBigEndian (slice packet 2 2) < 2 ^ 16 := by
  have hfield := Lib.ofBigEndian_lt (slice packet 2 2)
  have hwidth : (256 : Nat) ^ (slice packet 2 2).length ≤ 256 ^ 2 := by
    apply Nat.pow_le_pow_right (by omega)
    rw [Lib.length_slice]
    omega
  omega

/-- The index of a media packet has 32 bits. -/
theorem mediaInfo_seq_lt (stream : Stream) (packet : Octets) (isInput : Bool) :
    (mediaInfo stream packet isInput).seq < 2 ^ 32 :=
  estimateIndex_lt (headerSeq_lt packet) _

end Engine

end Zrtp

end CryptoOpal

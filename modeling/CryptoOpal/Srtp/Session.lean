import CryptoOpal.Lib.KeyedList
import CryptoOpal.Srtp.Crypto
import CryptoOpal.Srtp.KeyLimit
import CryptoOpal.Srtp.Rdb
import CryptoOpal.Srtp.Rdbx

/-!
# Sessions and Streams

The state behind the packet functions: a session is a list of streams and
perhaps a template, and a stream is a set of session keys with the replay
databases and flags of one SSRC.

Two structures are shared by pointer in C. The streams cloned from a
template use the template's ciphers, authentication functions and key limit,
and `update_template_streams` recognizes them by those pointers. A cipher or
authentication function never changes once it is keyed, so sharing one is
the same as having a copy. The key limit does change. The model gives the
objects allocated for one set of session keys a number, `ref`, which stands
for the pointers to them, and keeps the limits in a table under that number.

A stream found by `srtp_get_stream` is changed in place, and the change shows
in the list. `putStream` is that change.

What every stream has by construction is part of the structures: at least one
set of session keys, salts of twelve octets, MKIs no longer than the policy
check admits, and a replay window no longer than `2 ^ 15`.

## Main definitions

* `SessionKeys`, `Stream`, `Session`: The state.
* `Stream.clone`: `srtp_stream_clone`.
* `Stream.record`: Moving the replay database for an accepted packet.
* `Session.getStream`, `Session.putStream`, `Session.insertStream`: The list.
* `Session.setStreamRoc`: `srtp_set_stream_roc`.
-/

namespace CryptoOpal

namespace Srtp

open Lib (Octets)

/-- `srtp_sec_serv_t`. -/
inductive SecServ where
  | none
  | conf
  | auth
  | confAndAuth
  deriving DecidableEq

/-- The bit `sec_serv_conf`. -/
def SecServ.hasConf (s : SecServ) : Bool := s = .conf ∨ s = .confAndAuth

/-- The bit `sec_serv_auth`. -/
def SecServ.hasAuth (s : SecServ) : Bool := s = .auth ∨ s = .confAndAuth

/-- `direction_t`. -/
inductive StreamDirection where
  | unknown
  | srtpSender
  | srtpReceiver
  deriving DecidableEq

/-- `SRTP_AEAD_SALT_LEN`. -/
def srtpAeadSaltLen : Nat := 12

/-- `SRTP_MAX_MKI_LEN`. -/
def srtpMaxMkiLen : Nat := 128

/-- `srtp_session_keys_t`. The fields `mki_id` and `mki_size` are one string. -/
structure SessionKeys (C A : Type) where
  ref : Nat
  rtpCipher : C
  rtpXtnHdrCipher : Option C
  rtpAuth : A
  rtcpCipher : C
  rtcpAuth : A
  salt : Octets
  cSalt : Octets
  mkiId : Octets
  salt_len : salt.length = srtpAeadSaltLen
  cSalt_len : cSalt.length = srtpAeadSaltLen
  mki_le : mkiId.length ≤ srtpMaxMkiLen

/-- `srtp_stream_ctx_t`. The EKT data is always null in this library, and the
    branches on it are left out. -/
structure Stream (C A : Type) where
  ssrc : UInt32
  sessionKeys : List (SessionKeys C A)
  rtpRdbx : Rdbx
  rtpServices : SecServ
  rtcpRdb : Rdb
  rtcpServices : SecServ
  direction : StreamDirection
  allowRepeatTx : Bool
  encXtnHdr : List Int
  pendingRoc : UInt32
  keys_ne : sessionKeys ≠ []
  window_le : rtpRdbx.bitmask.length ≤ 0x8000

/-- `srtp_ctx_t`, with the table of key limits and the next unused number. -/
structure Session (C A : Type) where
  streamList : List (Stream C A)
  streamTemplate : Option (Stream C A)
  limits : Nat → KeyLimit
  nextRef : Nat

variable {C A : Type}

namespace Stream

/-- `&stream->session_keys[0]`. -/
def firstKeys (str : Stream C A) : SessionKeys C A := str.sessionKeys.head str.keys_ne

/-- The stream with another state of its replay database. -/
def withRdbx (str : Stream C A) (rdbx : Rdbx)
    (h : rdbx.bitmask.length = str.rtpRdbx.bitmask.length) : Stream C A :=
  { str with rtpRdbx := rdbx, window_le := by rw [h]; exact str.window_le }

/-- `srtp_rdbx_add_index(&stream->rtp_rdbx, delta)`. -/
def addIndex (str : Stream C A) (delta : Int) : Stream C A :=
  str.withRdbx (str.rtpRdbx.addIndex delta) (Rdbx.length_addIndex _ _)

/-- `srtp_rdbx_set_roc_seq(&stream->rtp_rdbx, ..)`, whose status is ignored. -/
def setRocSeq (str : Stream C A) (roc seq : Nat) : Stream C A :=
  match h : str.rtpRdbx.setRocSeq roc seq with
  | .ok rdbx => str.withRdbx rdbx (Rdbx.length_setRocSeq h)
  | .error _ => str

/-- The last step for an accepted packet: add the index, or first move to the
    pending rollover counter if the packet is far ahead. -/
def record (str : Stream C A) (advance : Bool) (est : Nat) (delta : Int) : Stream C A :=
  if advance then
    { str.setRocSeq (est / 2 ^ 16 % 2 ^ 32) (est % 2 ^ 16) with pendingRoc := 0 }.addIndex 0
  else str.addIndex delta

/-- The direction check: an unknown direction becomes the one in use, and any
    other mismatch only raises an event. -/
def claimDirection (str : Stream C A) (dir : StreamDirection) : Stream C A :=
  if str.direction = .unknown then { str with direction := dir } else str

/-- `srtp_stream_clone`, from a template: the keys are shared, the replay
    databases are new. -/
def clone (template : Stream C A) (ssrc : UInt32) : Stream C A :=
  { template with
    ssrc := ssrc
    rtpRdbx :=
      { index := 0
        bitmask := Bitvector.alloc template.rtpRdbx.bitmask.length
        pos := Bitvector.length_alloc_pos template.rtpRdbx.pos }
    rtcpRdb := Rdb.init
    pendingRoc := 0
    window_le := Bitvector.length_alloc_le template.window_le }

end Stream

namespace Session

/-- `srtp_get_stream`. -/
def getStream (s : Session C A) (ssrc : UInt32) : Option (Stream C A) :=
  Lib.findKey Stream.ssrc s.streamList ssrc

/-- A change to the stream that `srtp_get_stream` returned. -/
def putStream (s : Session C A) (str : Stream C A) : Session C A :=
  { s with streamList := Lib.replaceFirst Stream.ssrc str s.streamList }

/-- Add a stream to the head of the list. -/
def insertStream (s : Session C A) (str : Stream C A) : Session C A :=
  { s with streamList := str :: s.streamList }

/-- A change to the template. -/
def putTemplate (s : Session C A) (str : Stream C A) : Session C A :=
  { s with streamTemplate := some str }

/-- A change to a key limit. -/
def putLimit (s : Session C A) (ref : Nat) (limit : KeyLimit) : Session C A :=
  { s with limits := fun r => if r = ref then limit else s.limits r }

/-- `srtp_key_limit_update(session_keys->limit)`. -/
def useKey (s : Session C A) (keys : SessionKeys C A) : Session C A × KeyEvent :=
  let (limit, event) := (s.limits keys.ref).update
  (s.putLimit keys.ref limit, event)

/-- `srtp_set_stream_roc`. -/
def setStreamRoc (s : Session C A) (ssrc roc : UInt32) :
    Session C A × Except SrtpErrStatus Unit :=
  match s.getStream ssrc with
  | none => (s, .error .badParam)
  | some str => (s.putStream { str with pendingRoc := roc }, .ok ())

end Session

/-- What a policy fixes about a stream: the services, the extension ids, the
    keys, and whether an index may be sent again. -/
structure Keying (C A : Type) where
  services : SecServ
  rtcpServices : SecServ
  encXtnHdr : List Int
  sessionKeys : List (SessionKeys C A)
  allowRepeatTx : Bool

namespace Stream

/-- The keying of a stream. -/
def keying (str : Stream C A) : Keying C A :=
  { services := str.rtpServices
    rtcpServices := str.rtcpServices
    encXtnHdr := str.encXtnHdr
    sessionKeys := str.sessionKeys
    allowRepeatTx := str.allowRepeatTx }

@[simp] theorem ssrc_addIndex (str : Stream C A) (delta : Int) :
    (str.addIndex delta).ssrc = str.ssrc := rfl

@[simp] theorem keying_addIndex (str : Stream C A) (delta : Int) :
    (str.addIndex delta).keying = str.keying := rfl

theorem setRocSeq_cases (str : Stream C A) (roc seq : Nat) :
    (∃ rdbx h, str.rtpRdbx.setRocSeq roc seq = .ok rdbx ∧
        str.setRocSeq roc seq = str.withRdbx rdbx h) ∨
      str.setRocSeq roc seq = str := by
  rw [setRocSeq]
  split
  · rename_i rdbx hset
    exact Or.inl ⟨rdbx, Rdbx.length_setRocSeq hset, hset, rfl⟩
  · exact Or.inr rfl

theorem rtpRdbx_setRocSeq {str : Stream C A} {roc seq : Nat} {rdbx : Rdbx}
    (h : str.rtpRdbx.setRocSeq roc seq = .ok rdbx) : (str.setRocSeq roc seq).rtpRdbx = rdbx := by
  rw [setRocSeq]
  split
  · rename_i r hr
    rw [h, Except.ok.injEq] at hr
    exact hr.symm
  · rename_i r hr
    rw [h] at hr
    exact absurd hr (by simp only [reduceCtorEq, not_false_eq_true])

@[simp] theorem ssrc_setRocSeq (str : Stream C A) (roc seq : Nat) :
    (str.setRocSeq roc seq).ssrc = str.ssrc := by
  rcases setRocSeq_cases str roc seq with ⟨rdbx, h, -, heq⟩ | heq <;> rw [heq]
  rfl

@[simp] theorem keying_setRocSeq (str : Stream C A) (roc seq : Nat) :
    (str.setRocSeq roc seq).keying = str.keying := by
  rcases setRocSeq_cases str roc seq with ⟨rdbx, h, -, heq⟩ | heq <;> rw [heq]
  rfl

@[simp] theorem ssrc_record (str : Stream C A) (advance : Bool) (est : Nat) (delta : Int) :
    (str.record advance est delta).ssrc = str.ssrc := by
  cases advance with
  | false => rfl
  | true => exact ssrc_setRocSeq str _ _

@[simp] theorem keying_record (str : Stream C A) (advance : Bool) (est : Nat) (delta : Int) :
    (str.record advance est delta).keying = str.keying := by
  cases advance with
  | false => rfl
  | true => exact keying_setRocSeq str _ _

/-- Claiming a direction changes the direction at most. -/
theorem claimDirection_eq (str : Stream C A) (dir : StreamDirection) :
    ∃ dir', str.claimDirection dir = { str with direction := dir' } := by
  rw [claimDirection]
  split
  · exact ⟨dir, rfl⟩
  · exact ⟨str.direction, rfl⟩

@[simp] theorem ssrc_claimDirection (str : Stream C A) (dir : StreamDirection) :
    (str.claimDirection dir).ssrc = str.ssrc := by
  rw [claimDirection]
  split <;> rfl

@[simp] theorem keying_claimDirection (str : Stream C A) (dir : StreamDirection) :
    (str.claimDirection dir).keying = str.keying := by
  rw [claimDirection]
  split <;> rfl

@[simp] theorem rtpRdbx_claimDirection (str : Stream C A) (dir : StreamDirection) :
    (str.claimDirection dir).rtpRdbx = str.rtpRdbx := by
  rw [claimDirection]
  split <;> rfl

@[simp] theorem pendingRoc_claimDirection (str : Stream C A) (dir : StreamDirection) :
    (str.claimDirection dir).pendingRoc = str.pendingRoc := by
  rw [claimDirection]
  split <;> rfl

@[simp] theorem ssrc_clone (template : Stream C A) (ssrc : UInt32) :
    (template.clone ssrc).ssrc = ssrc := rfl

@[simp] theorem keying_clone (template : Stream C A) (ssrc : UInt32) :
    (template.clone ssrc).keying = template.keying := rfl

theorem firstKeys_mem (str : Stream C A) : str.firstKeys ∈ str.keying.sessionKeys :=
  List.head_mem str.keys_ne

end Stream

namespace Session

/-- The keying that packets of an SSRC go by: that of the stream, or that of
    the template while there is no stream. -/
def keyingOn (s : Session C A) (ssrc : UInt32) : Option (Keying C A) :=
  match s.getStream ssrc with
  | some str => some str.keying
  | none => s.streamTemplate.map Stream.keying

theorem ssrc_of_getStream {s : Session C A} {ssrc : UInt32} {str : Stream C A}
    (h : s.getStream ssrc = some str) : str.ssrc = ssrc :=
  Lib.key_of_findKey h

@[simp] theorem getStream_putLimit (s : Session C A) (ref : Nat) (limit : KeyLimit)
    (ssrc : UInt32) : (s.putLimit ref limit).getStream ssrc = s.getStream ssrc := rfl

@[simp] theorem getStream_useKey (s : Session C A) (keys : SessionKeys C A) (ssrc : UInt32) :
    (s.useKey keys).1.getStream ssrc = s.getStream ssrc := rfl

@[simp] theorem getStream_putTemplate (s : Session C A) (str : Stream C A) (ssrc : UInt32) :
    (s.putTemplate str).getStream ssrc = s.getStream ssrc := rfl

/-- Using a key changes the session. -/
theorem useKey_ne (s : Session C A) (keys : SessionKeys C A) : (s.useKey keys).1 ≠ s := by
  intro h
  have hlimit := congrFun (congrArg Session.limits h) keys.ref
  simp only [useKey, putLimit, if_true] at hlimit
  exact (s.limits keys.ref).update_ne hlimit

theorem getStream_insertStream (s : Session C A) (str : Stream C A) (ssrc : UInt32) :
    (s.insertStream str).getStream ssrc =
      if str.ssrc = ssrc then some str else s.getStream ssrc := rfl

theorem getStream_putStream (s : Session C A) (str : Stream C A) (ssrc : UInt32) :
    (s.putStream str).getStream ssrc =
      if str.ssrc = ssrc then (s.getStream ssrc).map (fun _ => str) else s.getStream ssrc :=
  Lib.findKey_replaceFirst ssrc

theorem getStream_putStream_of_some (s : Session C A) (str : Stream C A) {old : Stream C A}
    (hold : s.getStream str.ssrc = some old) (ssrc : UInt32) :
    (s.putStream str).getStream ssrc =
      if str.ssrc = ssrc then some str else s.getStream ssrc := by
  rw [getStream_putStream]
  by_cases hssrc : str.ssrc = ssrc
  · rw [if_pos hssrc, if_pos hssrc, ← hssrc, hold, Option.map_some]
  · rw [if_neg hssrc, if_neg hssrc]

/-- `srtp_set_stream_roc` changes the pending rollover counter and nothing
    else. -/
theorem getStream_setStreamRoc (s : Session C A) (ssrc' roc ssrc : UInt32) :
    (s.setStreamRoc ssrc' roc).1.getStream ssrc =
      if ssrc' = ssrc then (s.getStream ssrc).map (fun str => { str with pendingRoc := roc })
      else s.getStream ssrc := by
  rw [setStreamRoc]
  cases hget : s.getStream ssrc' with
  | none =>
      by_cases hssrc : ssrc' = ssrc
      · rw [if_pos hssrc, ← hssrc, hget, Option.map_none]
      · rw [if_neg hssrc]
  | some str =>
      obtain rfl := ssrc_of_getStream hget
      have hput := getStream_putStream_of_some s { str with pendingRoc := roc } hget ssrc
      simp only at hput
      simp only [hput]
      by_cases hssrc : str.ssrc = ssrc
      · rw [if_pos hssrc, if_pos hssrc, ← hssrc, hget, Option.map_some]
      · rw [if_neg hssrc, if_neg hssrc]

theorem keyingOn_of_getStream {s : Session C A} {ssrc : UInt32} {str : Stream C A}
    (h : s.getStream ssrc = some str) : s.keyingOn ssrc = some str.keying := by
  rw [keyingOn, h]

end Session

end Srtp

end CryptoOpal

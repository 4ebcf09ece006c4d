import Mathlib.Data.Nat.Notation

/-!
# States and Roles of a ZRTP Stream

The enumerations that the state machine of libzrtp switches on, with the order
of the source where the source compares them.

## Main definitions

* `StreamState`: `zrtp_state_t`.
* `StreamMode`: `zrtp_stream_mode_t`, of a stream that has one.
* `StateMachine`: `zrtp_statemachine_type_t`.
* `ProtocolError`: `zrtp_protocol_error_t`.
* `LicenseMode`: `zrtp_license_mode_t`.
* `MsgType`: `zrtp_msg_type_t`, of packets.
* `ZrtpStatus`: `zrtp_status_t`, as far as the packet functions return it.
-/

namespace CryptoOpal

namespace Zrtp

/-- `zrtp_state_t`, in the order of the source. -/
inductive StreamState where
  | none
  | active
  | start
  | waitHelloAck
  | waitHello
  | clear
  | startInitiatingSecure
  | initiatingSecure
  | waitConfirm1
  | waitConfirmAck
  | pendingSecure
  | waitConfirm2
  | secure
  | sasRelaying
  | initiatingClear
  | pendingClear
  | initiatingError
  | pendingError
  | error
  | noZrtp
  deriving DecidableEq

/-- The number of a state. -/
def StreamState.number : StreamState → Nat
  | .none => 0
  | .active => 1
  | .start => 2
  | .waitHelloAck => 3
  | .waitHello => 4
  | .clear => 5
  | .startInitiatingSecure => 6
  | .initiatingSecure => 7
  | .waitConfirm1 => 8
  | .waitConfirmAck => 9
  | .pendingSecure => 10
  | .waitConfirm2 => 11
  | .secure => 12
  | .sasRelaying => 13
  | .initiatingClear => 14
  | .pendingClear => 15
  | .initiatingError => 16
  | .pendingError => 17
  | .error => 18
  | .noZrtp => 19

/-- `zrtp_stream_mode_t` without the modes of a stream before it has one. -/
inductive StreamMode where
  | dh
  | preshared
  | mult
  deriving DecidableEq

/-- `zrtp_statemachine_type_t`. -/
inductive StateMachine where
  | none
  | initiator
  | responder
  deriving DecidableEq

/-- `zrtp_protocol_error_t`. -/
inductive ProtocolError where
  | unknown
  | timeout
  | invalidPacket
  | software
  | version
  | helloMistmatch
  | hashUnsp
  | cipherUnsp
  | pktypeUnsp
  | authUnsp
  | sasUnsp
  | noSecret
  | possibleMitm1
  | possibleMitm2
  | possibleMitm3
  | authDecrypt
  | nonseReuse
  | equalZid
  | serviceUnavail
  | goclearUnsp
  | wrongZid
  | wrongMeshmac
  deriving DecidableEq

/-- The number of an error, as it goes into an Error message. -/
def ProtocolError.code : ProtocolError → Nat
  | .unknown => 0
  | .timeout => 1
  | .invalidPacket => 0x10
  | .software => 0x20
  | .version => 0x30
  | .helloMistmatch => 0x40
  | .hashUnsp => 0x51
  | .cipherUnsp => 0x52
  | .pktypeUnsp => 0x53
  | .authUnsp => 0x54
  | .sasUnsp => 0x55
  | .noSecret => 0x56
  | .possibleMitm1 => 0x61
  | .possibleMitm2 => 0x62
  | .possibleMitm3 => 0x63
  | .authDecrypt => 0x70
  | .nonseReuse => 0x80
  | .equalZid => 0x90
  | .serviceUnavail => 0xA0
  | .goclearUnsp => 0x100
  | .wrongZid => 0x202
  | .wrongMeshmac => 0x203

/-- `zrtp_license_mode_t`. -/
inductive LicenseMode where
  | passive
  | active
  | unlimited
  deriving DecidableEq

/-- `zrtp_msg_type_t` without the type of the scheduler's task. -/
inductive MsgType where
  | unparsed
  | none
  | hello
  | helloAck
  | commit
  | dhpart1
  | dhpart2
  | confirm1
  | confirm2
  | confirm2Ack
  | goclear
  | goclearAck
  | error
  | errorAck
  | sasrelay
  | relayAck
  | zfoneping
  | zfonepingAck
  deriving DecidableEq

/-- `zrtp_status_t`, as far as the packet functions return it. -/
inductive ZrtpStatus where
  | ok
  | fail
  | badParam
  | authFail
  | keyExpired
  | drop
  | oldPkt
  | rpFail
  | crcFail
  | attack
  deriving DecidableEq

end Zrtp

end CryptoOpal

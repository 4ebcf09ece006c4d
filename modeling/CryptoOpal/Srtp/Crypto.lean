import CryptoOpal.Lib.Octets
import CryptoOpal.Srtp.Status

/-!
# Ciphers and Authentication Functions

The crypto kernel hands the packet functions two kinds of object,
`srtp_cipher_t` and `srtp_auth_t`, each a table of functions and a state. The
packet functions are written against the tables, and so is the model: it is
generic over any type with the operations of `CipherType` and any type with
those of `AuthType`.

A cipher is passed by value. In C it is a shared object whose state the calls
change, but every packet function sets an IV before it uses a cipher, and no
state from before that survives, so only the calls of one packet ever see
each other.

An authentication function writes its tag into a buffer that may already
hold a keystream prefix, and the null function leaves the buffer as it is.
`compute` is given those octets. It stands for the three calls `start`,
`update` and `compute`, which in both functions of `crypto/hash` fail with
`auth_fail` or not at all.

## Main definitions

* `CipherTypeId`: The cipher types of the kernel.
* `CipherType`: The operations of a cipher.
* `AuthType`: The operations of an authentication function.
* `cipherOutput`: Keystream octets, `srtp_cipher_output`.
-/

namespace CryptoOpal

namespace Srtp

open Lib (Octets)

/-- `srtp_cipher_type_id_t`. -/
inductive CipherTypeId where
  | nullCipher
  | aesIcm128
  | aesIcm192
  | aesIcm256
  | aesGcm128
  | aesGcm256
  | sdtSm4Ecb
  | sdtSm4Cbc
  | sdtSm4Ofb
  | sdtSkfSm4Ecb
  | sdtSkfSm4Cbc
  | sdtSkfSm4EcbDec
  | sdtSkfSm4EcbAudioEnc
  | sdtSkfSm4EcbAudioDec
  | sdtSkfHySm4Ecb
  | sdtSkfHySm4Cbc
  | sdtSkfHySm4Cfb
  | sdtSkfHySm4Ofb
  | sdtSkfHySm4Mac
  deriving DecidableEq

/-- The AES counter mode types, whose IV is built from SSRC and index. -/
def CipherTypeId.isIcm (id : CipherTypeId) : Bool :=
  id = .aesIcm128 ∨ id = .aesIcm192 ∨ id = .aesIcm256

/-- The AES-GCM types, which have packet functions of their own. -/
def CipherTypeId.isGcm (id : CipherTypeId) : Bool :=
  id = .aesGcm128 ∨ id = .aesGcm256

/-- `srtp_cipher_direction_t`. -/
inductive CipherDirection where
  | encrypt
  | decrypt
  | any
  deriving DecidableEq

/-- What the packet functions call on a `srtp_cipher_t`. -/
class CipherType (C : Type) where
  /-- `c->type->id`. -/
  typeId : C → CipherTypeId
  /-- `c->algorithm`. -/
  algorithm : C → CipherTypeId
  setIv : C → Octets → CipherDirection → Except SrtpErrStatus C
  setAad : C → Octets → Except SrtpErrStatus C
  encrypt : C → Octets → Except SrtpErrStatus (Octets × C)
  decrypt : C → Octets → Except SrtpErrStatus (Octets × C)
  getTag : C → Nat → Except SrtpErrStatus Octets

/-- What the packet functions call on a `srtp_auth_t`. -/
class AuthType (A : Type) where
  /-- `out_len`, the tag length. It is an `int`. -/
  outLen : A → Nat
  outLen_lt : ∀ a, outLen a < 2 ^ 31
  prefixLen : A → Nat
  /-- The tag for a message, given what the tag's buffer holds before. -/
  compute : A → Octets → Octets → Option Octets

/-- `srtp_cipher_output`: encrypt a buffer of zeros. -/
def cipherOutput {C : Type} [CipherType C] (c : C) (n : Nat) :
    Except SrtpErrStatus (Octets × C) :=
  CipherType.encrypt c (List.replicate n 0)

end Srtp

end CryptoOpal

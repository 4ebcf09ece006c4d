import CryptoOpal.Srtp.ProtectRtcp

/-!
# The SM4 Device Ciphers

`sdt_sdf_cipher.c`, `sdt_skf_cipher.c` and `sdt_skf_hy_cipher.c`: SM4 in a
cryptographic device, behind the interface of a cipher. The three differ in
the calls they make to the device. The SDF call may write the chaining value
back over the IV it is given; the SKF calls take the IV by value.

What the device computes is a parameter, a function of mode, IV and data for
a key that it holds. Nothing is assumed about it.

The `set_iv` functions of all three reset the IV of the direction to zero
octets and do not look at the IV they are given (`setIv_device`). So what is
handed to `srtp_cipher_encrypt` depends on the keys and the services, and
neither on a packet nor on its index.

## Main definitions

* `Sm4Device`, `SdtType`, `DeviceCipher`: Device, cipher type, cipher.
* `srtpSdtCipherSetIv`, `srtpSdtCipherEncrypt`, ...: The functions.

## Theorems

* `setIv_device`: Setting an IV resets it.
* `handed_sealPlain`, `handed_sealRtcpPlain`: What a packet's cipher is given.
-/

namespace CryptoOpal

namespace Srtp

open Lib (Octets)

/-- `sdt_sm4_mode`, as far as an alloc function sets it. -/
inductive Sm4Mode where
  | ecb
  | cbc
  | ofb
  deriving DecidableEq

/-- What a device computes with a key: output, and the chaining value. It may
    fail. -/
structure Sm4Device where
  encrypt : Sm4Mode → Octets → Octets → Option (Octets × Octets)
  decrypt : Sm4Mode → Octets → Octets → Option (Octets × Octets)

/-- The cipher types of the three files, by their alloc functions. -/
inductive SdtType where
  | sdf (mode : Sm4Mode)
  | skfEcb
  | skfEcbDec
  | skfEcbAudioEnc
  | skfEcbAudioDec
  | skfCbc
  | skfHyEcb
  | skfHyCbc
  deriving DecidableEq

namespace SdtType

/-- The identifier in the type and in `algorithm`. -/
def typeId : SdtType → CipherTypeId
  | sdf .ecb => .sdtSm4Ecb
  | sdf .cbc => .sdtSm4Cbc
  | sdf .ofb => .sdtSm4Ofb
  | skfEcb => .sdtSkfSm4Ecb
  | skfEcbDec => .sdtSkfSm4EcbDec
  | skfEcbAudioEnc => .sdtSkfSm4EcbAudioEnc
  | skfEcbAudioDec => .sdtSkfSm4EcbAudioDec
  | skfCbc => .sdtSkfSm4Cbc
  | skfHyEcb => .sdtSkfHySm4Ecb
  | skfHyCbc => .sdtSkfHySm4Cbc

/-- The mode the alloc function sets, and the one the device is asked for. -/
def mode : SdtType → Sm4Mode
  | sdf mode => mode
  | skfCbc | skfHyCbc => .cbc
  | _ => .ecb

/-- The mode chains the blocks of a message, and so starts from an IV. -/
def isChained (t : SdtType) : Bool := t.mode ≠ .ecb

theorem isGcm_typeId (t : SdtType) : t.typeId.isGcm = false := by
  cases t with
  | sdf mode => cases mode <;> rfl
  | _ => rfl

end SdtType

/-- A device cipher: its type, the device with the key, and the IVs of the two
    directions (`in_Iv` and `out_Iv`, or those in `Param_in` and
    `Param_out`). -/
structure DeviceCipher where
  type : SdtType
  device : Sm4Device
  inIv : Octets
  outIv : Octets

namespace DeviceCipher

/-- Reset the IV of a direction, or both. -/
def resetIv (c : DeviceCipher) : CipherDirection → DeviceCipher
  | .encrypt => { c with inIv := List.replicate 16 0 }
  | .decrypt => { c with outIv := List.replicate 16 0 }
  | .any => { c with inIv := List.replicate 16 0, outIv := List.replicate 16 0 }

/-- The checks before a call to the device, and the call. -/
def callDevice (op : Sm4Mode → Octets → Octets → Option (Octets × Octets)) (mode : Sm4Mode)
    (iv data : Octets) : Except SrtpErrStatus (Octets × Octets) :=
  if 2048 < data.length then .error .badParam
  else if data.length % 16 ≠ 0 then .error .badParam
  else
    match op mode iv data with
    | none => .error .cipherFail
    | some r => .ok r

/-- `srtp_sdt_cipher_set_iv`. -/
def srtpSdtCipherSetIv (c : DeviceCipher) (_iv : Octets) (dir : CipherDirection) :
    DeviceCipher :=
  c.resetIv dir

/-- `srtp_sdt_skf_cipher_set_iv`. -/
def srtpSdtSkfCipherSetIv (c : DeviceCipher) (_iv : Octets) (dir : CipherDirection) :
    DeviceCipher :=
  c.resetIv dir

/-- `srtp_sdt_skf_hy_cipher_set_iv`. -/
def srtpSdtSkfHyCipherSetIv (c : DeviceCipher) (_iv : Octets) (dir : CipherDirection) :
    DeviceCipher :=
  c.resetIv dir

/-- `srtp_sdt_cipher_encrypt`. `SDF_Encrypt` is given the IV to write to. -/
def srtpSdtCipherEncrypt (c : DeviceCipher) (data : Octets) :
    Except SrtpErrStatus (Octets × DeviceCipher) := do
  let (out, iv) ← callDevice c.device.encrypt c.type.mode c.inIv data
  .ok (out, { c with inIv := iv })

/-- `srtp_sdt_cipher_decrypt`. -/
def srtpSdtCipherDecrypt (c : DeviceCipher) (data : Octets) :
    Except SrtpErrStatus (Octets × DeviceCipher) := do
  let (out, iv) ← callDevice c.device.decrypt c.type.mode c.outIv data
  .ok (out, { c with outIv := iv })

/-- `srtp_sdt_skf_cipher_encrypt`: `SKF_EncryptInit` with `Param_in`, then
    `SKF_EncryptUpdate`. -/
def srtpSdtSkfCipherEncrypt (c : DeviceCipher) (data : Octets) :
    Except SrtpErrStatus (Octets × DeviceCipher) := do
  let (out, _) ← callDevice c.device.encrypt c.type.mode c.inIv data
  .ok (out, c)

/-- `srtp_sdt_skf_cipher_decrypt`. -/
def srtpSdtSkfCipherDecrypt (c : DeviceCipher) (data : Octets) :
    Except SrtpErrStatus (Octets × DeviceCipher) := do
  let (out, _) ← callDevice c.device.decrypt c.type.mode c.outIv data
  .ok (out, c)

/-- `srtp_sdt_skf_hy_cipher_encrypt`: `SKF_EncryptInit` with `Param_in`, then
    `SKF_Encrypt` for the length and again for the data. -/
def srtpSdtSkfHyCipherEncrypt (c : DeviceCipher) (data : Octets) :
    Except SrtpErrStatus (Octets × DeviceCipher) := do
  let (out, _) ← callDevice c.device.encrypt c.type.mode c.inIv data
  .ok (out, c)

/-- `srtp_sdt_skf_hy_cipher_decrypt`. It ends the process where the device
    fails to decrypt, so no caller sees that. -/
def srtpSdtSkfHyCipherDecrypt (c : DeviceCipher) (data : Octets) :
    Except SrtpErrStatus (Octets × DeviceCipher) := do
  let (out, _) ← callDevice c.device.decrypt c.type.mode c.outIv data
  .ok (out, c)

/-- `c->type->set_iv`. -/
def setIv (c : DeviceCipher) (iv : Octets) (dir : CipherDirection) : DeviceCipher :=
  match c.type with
  | .sdf _ => c.srtpSdtCipherSetIv iv dir
  | .skfEcb | .skfEcbDec | .skfEcbAudioEnc | .skfEcbAudioDec | .skfCbc =>
    c.srtpSdtSkfCipherSetIv iv dir
  | .skfHyEcb | .skfHyCbc => c.srtpSdtSkfHyCipherSetIv iv dir

/-- `c->type->encrypt`. -/
def encrypt (c : DeviceCipher) (data : Octets) : Except SrtpErrStatus (Octets × DeviceCipher) :=
  match c.type with
  | .sdf _ => c.srtpSdtCipherEncrypt data
  | .skfEcb | .skfEcbDec | .skfEcbAudioEnc | .skfEcbAudioDec | .skfCbc =>
    c.srtpSdtSkfCipherEncrypt data
  | .skfHyEcb | .skfHyCbc => c.srtpSdtSkfHyCipherEncrypt data

/-- `c->type->decrypt`. -/
def decrypt (c : DeviceCipher) (data : Octets) : Except SrtpErrStatus (Octets × DeviceCipher) :=
  match c.type with
  | .sdf _ => c.srtpSdtCipherDecrypt data
  | .skfEcb | .skfEcbDec | .skfEcbAudioEnc | .skfEcbAudioDec | .skfCbc =>
    c.srtpSdtSkfCipherDecrypt data
  | .skfHyEcb | .skfHyCbc => c.srtpSdtSkfHyCipherDecrypt data

/-- The types have no `set_aad` and no `get_tag`. -/
instance : CipherType DeviceCipher where
  typeId c := c.type.typeId
  algorithm c := c.type.typeId
  setIv c iv dir := .ok (c.setIv iv dir)
  setAad _ _ := .error .noSuchOp
  encrypt := encrypt
  decrypt := decrypt
  getTag _ _ := .error .noSuchOp

/-- Setting an IV resets the one of the direction, whatever the IV. -/
theorem setIv_device (c : DeviceCipher) (iv : Octets) (dir : CipherDirection) :
    c.setIv iv dir = c.resetIv dir := by
  unfold setIv
  split <;> rfl

end DeviceCipher

section Handed

variable {A : Type}

theorem isGcm_device (keys : SessionKeys DeviceCipher A) : keys.isGcm = false :=
  SdtType.isGcm_typeId keys.rtpCipher.type

variable [AuthType A] {keys : SessionKeys DeviceCipher A} {pkt : Octets} {useMki : Bool} {n : Nat}
  {o : Sealed DeviceCipher}

/-- The cipher that encrypts a packet is the reset one, past the keystream
    prefix. Index and packet do not go into it. -/
theorem handed_sealPlain {keying : Keying DeviceCipher A}
    (h : sealPlain keying keys pkt useMki n = .ok o) :
    ∃ pfx, sealPrefix keying.services keys (keys.rtpCipher.resetIv .encrypt) =
      .ok (pfx, o.cipher) := by
  simp only [sealPlain, setRtpIvs, setIvs, bind_eq_ok, cipherFailed_eq_ok, Prod.exists] at h
  rcases h with ⟨cipher, xtn, ⟨cipher', hset, hxtn⟩, pfx, cipher'', hpfx, extended, -, body, after,
    -, tag, -, ho⟩
  have hcipher' : cipher' = keys.rtpCipher.resetIv .encrypt := by
    rw [← keys.rtpCipher.setIv_device]
    exact (Except.ok.inj hset).symm
  have hcipher : cipher = cipher' := by
    cases hx : keys.rtpXtnHdrCipher with
    | none =>
        rw [hx, Except.ok.injEq, Prod.mk.injEq] at hxtn
        exact hxtn.1.symm
    | some x =>
        simp only [hx, bind_eq_ok, Except.ok.injEq, Prod.mk.injEq] at hxtn
        rcases hxtn with ⟨-, -, heq, -⟩
        exact heq.symm
  rw [Except.ok.injEq] at ho
  exact ⟨pfx, by rw [← hcipher', ← hcipher, hpfx, ← ho]⟩

/-- The same for RTCP, where there is always a prefix, if an empty one. -/
theorem handed_sealRtcpPlain {services : SecServ}
    (h : sealRtcpPlain services keys pkt useMki n = .ok o) :
    ∃ pfx, cipherOutput (keys.rtcpCipher.resetIv .encrypt) (AuthType.prefixLen keys.rtcpAuth) =
      .ok (pfx, o.cipher) := by
  simp only [sealRtcpPlain, bind_eq_ok, cipherFailed_eq_ok, Prod.exists] at h
  rcases h with ⟨cipher, hset, pfx, cipher', hpfx, body, after, -, tag, -, ho⟩
  have hcipher : cipher = keys.rtcpCipher.resetIv .encrypt := by
    rw [← keys.rtcpCipher.setIv_device]
    exact (Except.ok.inj hset).symm
  rw [Except.ok.injEq] at ho
  exact ⟨pfx, by rw [← hcipher, hpfx, ← ho]⟩

end Handed

end Srtp

end CryptoOpal

import CryptoOpal.Srtp.Memory

/-!
# Keystream Ciphers and Fixed Authentication Functions

The usual idealization of the primitives. A cipher exors its input with a
keystream that is a function of the key and the IV, and an authentication
function computes its tag from the message alone. An AEAD cipher does the
former, and appends a tag that is a function of IV, associated data and
ciphertext.

Nothing is assumed about these functions. They are fields, so a statement
about all keystream ciphers is a statement about every choice of them, and a
concrete packet can be run through a concrete choice.

A fixed choice is at the end: the tag is the rollover counter that a packet
was authenticated under, the shortest tag that binds it. It is enough to run
the model on.

## Main definitions

* `KeystreamCipher`, `FixedAuth`: The two types.
* `rocCipher`, `rocAuth`: The fixed choice.
* `sampleKeys`, `sampleStream`, `sampleSession`: A session with it.

## Theorems

* `outputsLength_keystreamCipher`: The output has the length asked for.
-/

namespace CryptoOpal

namespace Srtp

open Lib (Octets slice xorOctets)

/-- A cipher that exors with a keystream, and for the AEAD types appends a
    tag. The last four fields are its state during a packet. -/
structure KeystreamCipher where
  id : CipherTypeId
  /-- The keystream of an IV, octet by octet. -/
  keystream : Octets → Nat → UInt8
  /-- The tag of an IV, associated data and ciphertext. -/
  tagOf : Octets → Octets → Octets → Octets
  tagLen : Nat
  iv : Octets
  aad : Octets
  position : Nat
  written : Octets

namespace KeystreamCipher

/-- The next `n` octets of keystream. -/
def next (c : KeystreamCipher) (n : Nat) : Octets :=
  (List.range n).map fun i => c.keystream c.iv (c.position + i)

/-- Exor with keystream and move on. -/
def exor (c : KeystreamCipher) (data : Octets) : Octets × KeystreamCipher :=
  let out := xorOctets data (c.next data.length)
  (out, { c with position := c.position + data.length, written := out })

/-- Check the tag at the end of the data and decrypt what precedes it. -/
def openTag (c : KeystreamCipher) (data : Octets) :
    Except SrtpErrStatus (Octets × KeystreamCipher) :=
  let len := data.length - c.tagLen
  if c.tagOf c.iv c.aad (data.take len) = data.drop len then .ok (c.exor (data.take len))
  else .error .authFail

instance : CipherType KeystreamCipher where
  typeId := id
  algorithm := id
  setIv c iv _ := .ok { c with iv := iv, position := 0 }
  setAad c aad := .ok { c with aad := aad }
  encrypt c data := .ok (c.exor data)
  decrypt c data := if c.id.isGcm then c.openTag data else .ok (c.exor data)
  getTag c n := .ok ((c.tagOf c.iv c.aad c.written).take n)

@[simp] theorem length_next (c : KeystreamCipher) (n : Nat) : (c.next n).length = n := by
  simp only [next, List.length_map, List.length_range]

@[simp] theorem length_exor (c : KeystreamCipher) (data : Octets) :
    (c.exor data).1.length = data.length := by
  simp only [exor, Lib.length_xorOctets, length_next, Nat.min_self]

/-- Exoring twice with the same keystream gives back the data. -/
theorem exor_exor (c : KeystreamCipher) (data : Octets) : (c.exor (c.exor data).1).1 = data := by
  have hlen := length_exor c data
  simp only [exor] at hlen ⊢
  rw [hlen]
  exact Lib.xorOctets_cancel _ _ (by rw [length_next])

end KeystreamCipher

/-- An authentication function that computes its tag from the message. -/
structure FixedAuth where
  outLen : Nat
  outLen_lt : outLen < 2 ^ 31
  prefixLen : Nat
  mac : Octets → Octets
  length_mac : ∀ msg, (mac msg).length = outLen

instance : AuthType FixedAuth where
  outLen := FixedAuth.outLen
  outLen_lt := FixedAuth.outLen_lt
  prefixLen := FixedAuth.prefixLen
  compute a msg _ := some (a.mac msg)

/-- The cipher's output has the length asked for, and nothing else depends on
    what is encrypted. -/
theorem outputsLength_keystreamCipher : OutputsLength KeystreamCipher := by
  intro c c' n keystream h
  simp only [cipherOutput, CipherType.encrypt, Except.ok.injEq] at h
  have hlen := KeystreamCipher.length_exor c (List.replicate n 0)
  rw [h, List.length_replicate] at hlen
  exact hlen

section Samples

/-- A cipher with a zero keystream, whose tag is the rollover counter in the
    IV of an AEAD cipher. -/
def rocCipher (id : CipherTypeId) : KeystreamCipher :=
  { id := id
    keystream := fun _ _ => 0
    tagOf := fun iv _ _ => (iv ++ List.replicate 12 0).take 10 |>.drop 6
    tagLen := 4
    iv := []
    aad := []
    position := 0
    written := [] }

/-- An authentication function whose tag is the rollover counter that ends
    the message. -/
def rocAuth : FixedAuth :=
  { outLen := 4
    outLen_lt := by decide
    prefixLen := 0
    mac := fun msg => (List.replicate 4 0 ++ msg).drop msg.length
    length_mac := by
      intro msg
      simp only [List.length_drop, List.length_append, List.length_replicate]
      omega }

theorem length_sampleSalt : (List.replicate 12 (0 : UInt8)).length = 12 := rfl

theorem length_noMki : ([] : Octets).length ≤ 128 := Nat.zero_le 128

/-- One set of session keys for a cipher type. -/
def sampleKeys (id : CipherTypeId) : SessionKeys KeystreamCipher FixedAuth :=
  { ref := 0
    rtpCipher := rocCipher id
    rtpXtnHdrCipher := none
    rtpAuth := rocAuth
    rtcpCipher := rocCipher id
    rtcpAuth := rocAuth
    salt := List.replicate 12 0
    cSalt := List.replicate 12 0
    mkiId := []
    salt_len := length_sampleSalt
    cSalt_len := length_sampleSalt
    mki_le := length_noMki }

/-- A new stream with one set of session keys, SSRC 1 and a window of 64
    places. -/
def streamOf {C A : Type} (keys : SessionKeys C A) : Stream C A :=
  { ssrc := 1
    sessionKeys := [keys]
    rtpRdbx := { index := 0, bitmask := Bitvector.alloc 64, pos := by decide }
    rtpServices := .confAndAuth
    rtcpRdb := Rdb.init
    rtcpServices := .confAndAuth
    direction := .unknown
    allowRepeatTx := false
    encXtnHdr := []
    pendingRoc := 0
    keys_ne := List.cons_ne_nil _ _
    window_le := by decide }

/-- A session with one stream and fresh key limits. -/
def sessionOf {C A : Type} (stream : Stream C A) : Session C A :=
  { streamList := [stream]
    streamTemplate := none
    limits := fun _ => { numLeft := 0xffffffffffff, state := .normal }
    nextRef := 1 }

/-- The stream with the keys of a cipher type. -/
def sampleStream (id : CipherTypeId) : Stream KeystreamCipher FixedAuth :=
  streamOf (sampleKeys id)

/-- The session with this stream. -/
def sampleSession (id : CipherTypeId) : Session KeystreamCipher FixedAuth :=
  sessionOf (sampleStream id)

/-- An RTP packet of SSRC 1 with no payload. -/
def samplePacket (seqHi seqLo : UInt8) (rest : Octets) : Octets :=
  [0x80, 0, seqHi, seqLo, 0, 0, 0, 0, 0, 0, 0, 1] ++ rest

end Samples

end Srtp

end CryptoOpal

import CryptoOpal.Lib.Cbc

/-!
# Encrypted Frames of IAX2

A frame is encrypted from an offset on, in cipher block chaining. Before the data come 16 to
31 octets of padding, which fill it up to entire blocks. The first block holds the length
of the padding in four bits.

The offset is a virtual function. A frame that is sent is of a class of its own, which is
asked: four octets of a full frame and of a mini frame for video are clear, and two of a mini
frame for audio. A frame that comes in is of the base class when it is decrypted, and that
knows full frames and others only. So a mini frame for video is decrypted from the wrong
offset, where its length is never a number of blocks.

Whether a frame was decrypted is not looked at. The frame is built either way, from the
octets as they came.

## Main definitions

* `FrameClass`, `OutFrame`: A frame that is sent.
* `encryptContents`, `decryptContents`: The two functions.
* `receive`: From the octets of a packet to a frame.

## Theorems

* `decrypt_encryptContents`: Decrypting from the offset of the sender.
* `transparent_iff`: Which frames come through.
* `notBuilt_iff`: Which rejected packets give no frame.
* `comes_iff_rejects_iff`: Both, with every key.
-/

namespace CryptoOpal

namespace Iax2

open Lib (Octets BlockCipher cbcEncrypt cbcDecrypt)

/-- The classes of frames. -/
inductive FrameClass where
  | full
  | audioMini
  | videoMini
  deriving DecidableEq

/-- `GetEncryptionOffset` of the class. -/
def FrameClass.encryptionOffset : FrameClass → Nat
  | .full => 4
  | .audioMini => 2
  | .videoMini => 4

/-- `GetEncryptionOffset` of `IAX2Frame`. -/
def baseEncryptionOffset (isFullFrame : Bool) : Nat := if isFullFrame then 4 else 2

/-- The word at the start of a packet, if it has one. -/
def firstWord (data : Octets) : Nat :=
  if data.length < 2 then 0 else (data.getD 0 0).toNat * 256 + (data.getD 1 0).toNat

/-- The bit `0x8000` of the first word, as `ProcessNetworkPacket` of `IAX2Frame` finds it. -/
def isFullFrame (data : Octets) : Bool := firstWord data &&& 0x8000 ≠ 0

/-- `ProcessNetworkPacket` of `IAX2FullFrame`, whether it succeeds: the length of the header
and the frame type. -/
def validFullFrame (data : Octets) : Bool :=
  12 ≤ data.length ∧ (data.getD 10 0).toNat < 11 ∧ data.getD 10 0 ≠ 0

/-- The header that the class of a frame asks for. The frame has an octet behind what stays
clear. The call number of a mini frame for audio is not zero; that of a mini frame for video
is zero, or is not, since the constructor that takes the octets to send does not set
`isVideo` before the header is written. -/
def HasClass (data : Octets) : FrameClass → Prop
  | .full => isFullFrame data = true ∧ validFullFrame data = true
  | .audioMini => isFullFrame data = false ∧ firstWord data ≠ 0 ∧ 2 < data.length
  | .videoMini => isFullFrame data = false ∧ 4 < data.length

instance (data : Octets) (c : FrameClass) : Decidable (HasClass data c) := by
  cases c <;> exact inferInstanceAs (Decidable (_ ∧ _))

/-- A frame that is sent. -/
structure OutFrame where
  cls : FrameClass
  data : Octets
  hasClass : HasClass data cls

/-- The length of the padding. -/
def padding (eDataSize : Nat) : Nat := 16 + ((16 - eDataSize % 16) &&& 0x0f)

/-- The padding: the first block ends with its length, and the rest is zeros. -/
def paddingOctets (eDataSize : Nat) : Octets :=
  List.replicate 15 0 ++ UInt8.ofNat (0x0f &&& padding eDataSize) ::
    List.replicate (padding eDataSize - 16) 0

/-- `EncryptContents`, with encryption on. -/
def encryptContents (key : BlockCipher 16) (f : OutFrame) : Octets :=
  let headerSize := f.cls.encryptionOffset
  let eDataSize := f.data.length - headerSize
  f.data.take headerSize ++
    cbcEncrypt key ((padding eDataSize + eDataSize) / 16) (List.replicate 16 0)
      (paddingOctets eDataSize ++ f.data.drop headerSize)

/-- `DecryptContents` of `IAX2Frame`, with encryption on: the octets afterwards, if it does
not fail. -/
def decryptContents (key : BlockCipher 16) (data : Octets) : Option Octets :=
  let headerSize := baseEncryptionOffset (isFullFrame data)
  if data.length < headerSize + 32 then none
  else
    let encDataSize := data.length - headerSize
    if encDataSize % 16 ≠ 0 then none
    else
      let working := cbcDecrypt key (encDataSize / 16) (List.replicate 16 0) (data.drop headerSize)
      some (data.take headerSize ++ working.drop (16 + (working.getD 15 0 &&& 0x0f).toNat))

/-- A frame that was built. -/
structure BuiltFrame where
  cls : FrameClass
  data : Octets
  deriving DecidableEq

/-- `BuildAppropriateFrameType` without encryption, for a frame that was full or not when its
header was read. -/
def buildFrame (full : Bool) (data : Octets) : Option BuiltFrame :=
  if full then
    if validFullFrame data then some ⟨.full, data⟩ else none
  else if data.getD 0 0 ≠ 0 ∨ data.getD 1 0 ≠ 0 then some ⟨.audioMini, data⟩
  else some ⟨.videoMini, data⟩

/-- `ProcessNetworkPacket` and `BuildAppropriateFrameType` with encryption on. -/
def receive (key : BlockCipher 16) (data : Octets) : Option BuiltFrame :=
  buildFrame (isFullFrame data) ((decryptContents key data).getD data)

/-- Where the decryption of a packet is not rejected for its length. -/
def Decryptable (data : Octets) : Prop :=
  baseEncryptionOffset (isFullFrame data) + 32 ≤ data.length ∧
    (data.length - baseEncryptionOffset (isFullFrame data)) % 16 = 0

theorem decryptContents_eq_none {key : BlockCipher 16} {data : Octets} :
    decryptContents key data = none ↔ ¬ Decryptable data := by
  unfold decryptContents Decryptable
  by_cases hshort : data.length < baseEncryptionOffset (isFullFrame data) + 32
  · simp [hshort]
  · by_cases hblocks : (data.length - baseEncryptionOffset (isFullFrame data)) % 16 = 0
    · simp [hshort, hblocks]
    · simp [hshort, hblocks]

/-- The padding is a block and what is missing to entire blocks. -/
theorem padding_eq (n : Nat) : padding n = 16 + (16 - n % 16) % 16 := by
  unfold padding
  rw [show (0x0f : Nat) = 2 ^ 4 - 1 from rfl, Nat.and_two_pow_sub_one_eq_mod]

theorem padding_blocks (n : Nat) : 16 * ((padding n + n) / 16) = padding n + n := by
  rw [padding_eq]
  omega

theorem length_paddingOctets (n : Nat) : (paddingOctets n).length = padding n := by
  have hpadding := padding_eq n
  simp only [paddingOctets, List.length_append, List.length_replicate, List.length_cons]
  omega

/-- The length of the padding is found in the first block. -/
theorem paddingOctets_length_field (n : Nat) (rest : Octets) :
    16 + (((paddingOctets n ++ rest).getD 15 0) &&& 0x0f).toNat = padding n := by
  -- The low four bits of the length, which is between 16 and 31.
  have hpadding := padding_eq n
  have hfield : (paddingOctets n ++ rest).getD 15 0 = UInt8.ofNat (0x0f &&& padding n) := by
    simp [paddingOctets, List.getD_eq_getElem?_getD]
  rw [hfield, UInt8.toNat_and, UInt8.toNat_ofNat', Nat.and_comm 0x0f,
    show (0x0f : Nat) = 2 ^ 4 - 1 from rfl, Nat.and_two_pow_sub_one_eq_mod,
    show (0x0f : UInt8).toNat = 2 ^ 4 - 1 from rfl, Nat.and_two_pow_sub_one_eq_mod]
  omega

section Sent

variable {key : BlockCipher 16} (f : OutFrame)

/-- What stays clear holds the first word, and an octet is behind it. -/
theorem OutFrame.clear_bounds :
    2 ≤ f.cls.encryptionOffset ∧ f.cls.encryptionOffset < f.data.length := by
  have hclass := f.hasClass
  cases hcls : f.cls with
  | full =>
      rw [hcls] at hclass
      have hvalid : 12 ≤ f.data.length := (of_decide_eq_true hclass.2).1
      refine ⟨by decide, ?_⟩
      show 4 < f.data.length
      omega
  | audioMini =>
      rw [hcls] at hclass
      exact ⟨by decide, hclass.2.2⟩
  | videoMini =>
      rw [hcls] at hclass
      exact ⟨by decide, hclass.2⟩

/-- The octets to encrypt are entire blocks. -/
theorem OutFrame.length_blocks :
    (paddingOctets (f.data.length - f.cls.encryptionOffset) ++
      f.data.drop f.cls.encryptionOffset).length =
      16 * ((padding (f.data.length - f.cls.encryptionOffset) +
        (f.data.length - f.cls.encryptionOffset)) / 16) := by
  rw [List.length_append, length_paddingOctets, List.length_drop, padding_blocks]

theorem length_encryptContents :
    (encryptContents key f).length = f.cls.encryptionOffset +
      (padding (f.data.length - f.cls.encryptionOffset) +
        (f.data.length - f.cls.encryptionOffset)) := by
  have hclear := f.clear_bounds
  unfold encryptContents
  rw [List.length_append, Lib.length_cbcEncrypt _ List.length_replicate
    (Nat.le_of_eq f.length_blocks.symm), padding_blocks, List.length_take]
  omega

/-- The first octets stay clear. -/
theorem getD_encryptContents {i : Nat} (hi : i < f.cls.encryptionOffset) :
    (encryptContents key f).getD i 0 = f.data.getD i 0 := by
  have hclear := f.clear_bounds
  unfold encryptContents
  rw [List.getD_eq_getElem?_getD, List.getElem?_append_left (by rw [List.length_take]; omega),
    List.getElem?_take_of_lt hi, List.getD_eq_getElem?_getD]

theorem isFullFrame_encryptContents :
    isFullFrame (encryptContents key f) = isFullFrame f.data := by
  have hclear := f.clear_bounds
  have hlength := @length_encryptContents key f
  unfold isFullFrame firstWord
  rw [getD_encryptContents f (by omega), getD_encryptContents f (by omega), if_neg (by omega),
    if_neg (by omega)]

/-- Decrypting from the offset of the sender. -/
theorem decrypt_encryptContents
    (hoffset : baseEncryptionOffset (isFullFrame f.data) = f.cls.encryptionOffset) :
    decryptContents key (encryptContents key f) = some f.data := by
  have hclear := f.clear_bounds
  have hlength := @length_encryptContents key f
  have hpadding := padding_eq (f.data.length - f.cls.encryptionOffset)
  have hblocks := padding_blocks (f.data.length - f.cls.encryptionOffset)
  have htake : (f.data.take f.cls.encryptionOffset).length = f.cls.encryptionOffset := by
    rw [List.length_take]
    omega
  have hsize : (encryptContents key f).length - f.cls.encryptionOffset =
      padding (f.data.length - f.cls.encryptionOffset) +
        (f.data.length - f.cls.encryptionOffset) := by omega
  -- The blocks are those that were encrypted.
  have hworking : cbcDecrypt key
      (((encryptContents key f).length - f.cls.encryptionOffset) / 16) (List.replicate 16 0)
      ((encryptContents key f).drop f.cls.encryptionOffset) =
        paddingOctets (f.data.length - f.cls.encryptionOffset) ++
          f.data.drop f.cls.encryptionOffset := by
    rw [hsize]
    unfold encryptContents
    rw [List.drop_left' htake]
    exact Lib.cbcDecrypt_cbcEncrypt _ List.length_replicate f.length_blocks
  have hhead : (encryptContents key f).take f.cls.encryptionOffset =
      f.data.take f.cls.encryptionOffset := by
    unfold encryptContents
    rw [List.take_left' htake]
  unfold decryptContents
  rw [isFullFrame_encryptContents, hoffset]
  rw [if_neg (by omega), if_neg (by omega)]
  simp only [hworking, hhead]
  rw [paddingOctets_length_field, List.drop_left' (length_paddingOctets _),
    List.take_append_drop]

/-- Which frames come through. -/
theorem transparent_iff :
    receive key (encryptContents key f) = some ⟨f.cls, f.data⟩ ↔ f.cls ≠ .videoMini := by
  have hclass := f.hasClass
  have hclear := f.clear_bounds
  unfold receive
  rw [isFullFrame_encryptContents]
  cases hcls : f.cls with
  | full =>
      rw [hcls] at hclass
      rw [decrypt_encryptContents f (by rw [hclass.1, hcls]; rfl), Option.getD_some, hclass.1]
      simp [buildFrame, hclass.2]
  | audioMini =>
      rw [hcls] at hclass hclear
      rw [decrypt_encryptContents f (by rw [hclass.1, hcls]; rfl), Option.getD_some, hclass.1]
      have hword := hclass.2.1
      unfold firstWord at hword
      rw [if_neg (by omega)] at hword
      -- The call number is not zero, so the frame is taken for one of audio.
      have hcall : f.data.getD 0 0 ≠ 0 ∨ f.data.getD 1 0 ≠ 0 := by
        by_contra hzero
        push Not at hzero
        rw [hzero.1, hzero.2] at hword
        exact hword rfl
      simp only [buildFrame, if_pos hcall]
      simp
  | videoMini =>
      rw [hcls] at hclass
      -- The length is two more than a number of blocks, as the receiver counts.
      have hlength := @length_encryptContents key f
      have hblocks := padding_blocks (f.data.length - f.cls.encryptionOffset)
      have hpadding := padding_eq (f.data.length - f.cls.encryptionOffset)
      have hoffset : f.cls.encryptionOffset = 4 := by rw [hcls]; rfl
      rw [hoffset] at hlength hblocks hpadding hclear
      have hnone : decryptContents key (encryptContents key f) = none := by
        rw [decryptContents_eq_none, Decryptable, isFullFrame_encryptContents, hclass.1]
        show ¬ (2 + 32 ≤ _ ∧ (_ - 2) % 16 = 0)
        omega
      rw [hnone, Option.getD_none, hclass.1]
      refine ⟨fun hbuilt => ?_, fun hne => absurd rfl hne⟩
      -- What is built is longer than what was sent.
      have hdata : encryptContents key f = f.data := by
        unfold buildFrame at hbuilt
        rw [if_neg Bool.false_ne_true] at hbuilt
        split at hbuilt
        · exact congrArg BuiltFrame.data (Option.some.inj hbuilt)
        · exact congrArg BuiltFrame.data (Option.some.inj hbuilt)
      have := congrArg List.length hdata
      omega

end Sent

/-- Which rejected packets give no frame. -/
theorem notBuilt_iff {key : BlockCipher 16} {data : Octets} (h : ¬ Decryptable data) :
    receive key data = none ↔ isFullFrame data = true ∧ validFullFrame data = false := by
  unfold receive buildFrame
  rw [decryptContents_eq_none.2 h, Option.getD_none]
  -- Only the check of a full frame's header can fail.
  cases hfull : isFullFrame data with
  | true => cases hvalid : validFullFrame data <;> simp
  | false =>
      simp only [Bool.false_eq_true, if_false, false_and, iff_false]
      split <;> exact Option.some_ne_none _

/-- What encryption is for: the receiver has the frame as it was. -/
def Comes (key : BlockCipher 16) (f : OutFrame) : Prop :=
  receive key (encryptContents key f) = some ⟨f.cls, f.data⟩

/-- Nothing is built from what is not decrypted. -/
def Rejects (key : BlockCipher 16) (data : Octets) : Prop :=
  decryptContents key data = none → receive key data = none

/-- With every key, the frames that come through are those that are not mini frames for video,
and the octet strings from which a frame is built though they were not decrypted are those
that look like mini frames or like valid full frames. -/
theorem comes_iff_rejects_iff (key : BlockCipher 16) :
    (∀ f, Comes key f ↔ f.cls ≠ .videoMini) ∧
      ∀ data, Rejects key data ↔
        Decryptable data ∨ (isFullFrame data = true ∧ validFullFrame data = false) := by
  refine ⟨fun f => transparent_iff f, fun data => ?_⟩
  unfold Rejects
  rw [decryptContents_eq_none]
  constructor
  · intro hrejects
    by_cases h : Decryptable data
    · exact Or.inl h
    · exact Or.inr ((notBuilt_iff h).1 (hrejects h))
  · rintro (hdecryptable | hinvalid) h
    · exact absurd hdecryptable h
    · exact (notBuilt_iff h).2 hinvalid

/-- The permutation that turns blocks around. -/
def turnedCipher : BlockCipher 16 where
  encrypt := List.reverse
  decrypt := List.reverse
  length_encrypt _ h := by rw [List.length_reverse, h]
  length_decrypt _ h := by rw [List.length_reverse, h]
  decrypt_encrypt _ _ := List.reverse_reverse _
  encrypt_decrypt _ _ := List.reverse_reverse _

/-- A frame of the video stream of call 7, with two octets. -/
def videoFrame : OutFrame where
  cls := .videoMini
  data := [0, 7, 0, 40, 1, 2]
  hasClass := by decide

/-- Neither comes this frame through, nor is a packet of five octets rejected. -/
theorem not_comes_video :
    ¬ (∀ f, Comes turnedCipher f) ∧ ¬ ∀ data, Rejects turnedCipher data := by
  refine ⟨fun h => ?_, fun h => ?_⟩
  · have hvideo : receive turnedCipher (encryptContents turnedCipher videoFrame) =
        some ⟨.videoMini, videoFrame.data⟩ := h videoFrame
    revert hvideo
    decide +kernel
  · have hshort := h [0, 7, 0, 40, 1]
    unfold Rejects at hshort
    revert hshort
    decide +kernel

end Iax2

end CryptoOpal

import CryptoOpal.Srtp.Header
import CryptoOpal.Srtp.Session

/-!
# Key Derivation

`srtp_stream_init_keys`: the session keys of a stream from one of its master
keys. The master key is copied into a zeroed buffer, and the key derivation
function is given the first 30 or 46 octets of that buffer: AES-128 or AES-256
in counter mode, with a salt.

How much is copied depends on the RTP cipher only. With a null cipher it can
be nothing, and with a longer key for RTCP the end of the master key is left
out. `kdfKey_ne_iff` says which octets of the master key count, and
`master_key_determines` when none of them is lost.

The derivation function and the initialization of ciphers and authentication
functions are parameters.

## Main definitions

* `CryptoPolicy`: `srtp_crypto_policy_t`.
* `baseKeyLength`, `copyKey`, `kdfInit`: The parts of the function.
* `kdfKey`: The key that the derivation function is initialized with.
* `streamInitKeys`: `srtp_stream_init_keys`.

## Theorems

* `streamInitKeys_congr`: The session keys depend only on what is copied.
* `kdfKey_ne_iff`: The octets of the master key that count.
* `master_key_determines`: When different master keys give different keys.
-/

namespace CryptoOpal

namespace Srtp

open Lib (Octets)

/-- `srtp_prf_label`. -/
inductive SrtpPrfLabel where
  | rtpEncryption
  | rtpMsgAuth
  | rtpSalt
  | rtcpEncryption
  | rtcpMsgAuth
  | rtcpSalt
  | rtpHeaderEncryption
  | rtpHeaderSalt
  deriving DecidableEq

/-- `srtp_auth_type_id_t`. -/
inductive AuthTypeId where
  | nullAuth
  | hmacSha1
  deriving DecidableEq

/-- `srtp_crypto_policy_t`. -/
structure CryptoPolicy where
  cipherType : CipherTypeId
  cipherKeyLen : Nat
  authType : AuthTypeId
  authKeyLen : Nat
  authTagLen : Nat
  secServ : SecServ
  deriving DecidableEq

/-- `srtp_master_key_t`. The key is a pointer, and the octets behind it are as
    many as the caller has put there. -/
structure MasterKey where
  key : Octets
  mkiId : Octets
  mki_le : mkiId.length ≤ srtpMaxMkiLen

/-- The parts of the crypto kernel that key derivation needs: the derivation
    function, under a key, and the initialization of new ciphers and
    authentication functions. -/
structure Kernel (C A : Type) where
  kdfGenerate : Octets → SrtpPrfLabel → Nat → Except SrtpErrStatus Octets
  cipherInit : CipherTypeId → Nat → Octets → Except SrtpErrStatus C
  authInit : AuthTypeId → Nat → Octets → Except SrtpErrStatus A

/-- `MAX_SRTP_KEY_LEN`. -/
def maxSrtpKeyLen : Nat := 256

/-- `SRTP_SALT_LEN`. -/
def srtpSaltLen : Nat := 14

/-- `base_key_length`. -/
def baseKeyLength (id : CipherTypeId) (keyLength : Nat) : Nat :=
  match id with
  | .aesIcm128 | .aesIcm192 | .aesIcm256 => keyLength - srtpSaltLen
  | .aesGcm128 | .aesGcm256 => keyLength - srtpAeadSaltLen
  | _ => keyLength

/-- The length of the key for the derivation function, `kdf_keylen`. -/
def kdfKeylen (rtpKeylen rtcpKeylen : Nat) : Nat :=
  let len := if rtpKeylen > 30 then 46 else 30
  if rtcpKeylen > len then 46 else len

/-- The zeroed buffer with the first `len` octets of the master key in it. -/
def copyKey (key : Octets) (len : Nat) : Except Stop Octets := do
  inside key 0 len
  inside (List.replicate maxSrtpKeyLen 0) 0 len
  .ok (key.take len ++ List.replicate (maxSrtpKeyLen - len) 0)

/-- `srtp_kdf_init`: the key that the AES cipher for the derivation is
    initialized with. -/
def kdfInit (tmpKey : Octets) (keyLen : Nat) : Except SrtpErrStatus Octets :=
  if keyLen = 46 ∨ keyLen = 38 ∨ keyLen = 30 then .ok (tmpKey.take keyLen)
  else .error .badParam

/-- The key that `srtp_stream_init_keys` initializes the derivation function
    with. -/
def kdfKey (rtp rtcp : CryptoPolicy) (key : Octets) : Except Stop Octets := do
  let rtpBase := baseKeyLength rtp.cipherType rtp.cipherKeyLen
  let rtpSalt := rtp.cipherKeyLen - rtpBase
  let tmpKey ← copyKey key (rtpBase + rtpSalt)
  orStop (fun _ => .status .initFail)
    (kdfInit tmpKey (kdfKeylen rtp.cipherKeyLen rtcp.cipherKeyLen))

section Derivation

variable {C A : Type}

/-- A derived key and, if the cipher has one, its salt. -/
def deriveKey (kernel : Kernel C A) (kdf : Octets) (keyLabel saltLabel : SrtpPrfLabel)
    (baseLen saltLen : Nat) : Except Stop (Octets × Octets) := do
  let key ← orStop (fun _ => .status .initFail) (kernel.kdfGenerate kdf keyLabel baseLen)
  match decide (saltLen > 0) with
  | false => .ok (key, [])
  | true => do
    let salt ← orStop (fun _ => .status .initFail) (kernel.kdfGenerate kdf saltLabel saltLen)
    .ok (key, salt)

/-- The octets of a salt that the session keys keep. -/
def sessionSalt (salt : Octets) : Except Stop { s : Octets // s.length = srtpAeadSaltLen } :=
  if salt = [] then .ok ⟨List.replicate srtpAeadSaltLen 0, List.length_replicate⟩
  else if h : srtpAeadSaltLen ≤ salt.length then
    .ok ⟨salt.take srtpAeadSaltLen, by rw [List.length_take, Nat.min_eq_left h]⟩
  else .error .fault

/-- The cipher for header extensions, as `srtp_stream_alloc` chooses it: for
    AES-GCM the corresponding counter mode. -/
def xtnHdrCipher (rtp : CryptoPolicy) : CipherTypeId × Nat :=
  match rtp.cipherType with
  | .aesGcm128 => (.aesIcm128, 30)
  | .aesGcm256 => (.aesIcm256, 46)
  | other => (other, rtp.cipherKeyLen)

/-- The octets of the master key that a derivation function for the header
    extensions is given. -/
def xtnCopied (rtp : CryptoPolicy) : Nat :=
  let (type, len) := xtnHdrCipher rtp
  let base := baseKeyLength type len
  base + min (len - base) (rtp.cipherKeyLen - baseKeyLength rtp.cipherType rtp.cipherKeyLen)

/-- The key for header extensions, from a derivation function of its own if the
    cipher is another one. -/
def xtnHdrKey (kernel : Kernel C A) (rtp : CryptoPolicy) (kdf : Octets) (keylen : Nat)
    (key : Octets) : Except Stop (Octets × Octets) :=
  let (type, len) := xtnHdrCipher rtp
  let rtpBase := baseKeyLength rtp.cipherType rtp.cipherKeyLen
  let rtpSalt := rtp.cipherKeyLen - rtpBase
  if type = rtp.cipherType then
    deriveKey kernel kdf .rtpHeaderEncryption .rtpHeaderSalt rtpBase rtpSalt
  else do
    let base := baseKeyLength type len
    refuseIf (len - base > rtpSalt ∧ rtp.cipherType.isGcm = false) (.status .badParam)
    let salt := min (len - base) rtpSalt
    let tmpKey ← copyKey key (xtnCopied rtp)
    let xtnKdf ← orStop (fun _ => .status .initFail) (kdfInit tmpKey keylen)
    deriveKey kernel xtnKdf .rtpHeaderEncryption .rtpHeaderSalt base salt

/-- The cipher for header extensions, if the policy asks for one. -/
def xtnHdrInit (kernel : Kernel C A) (rtp : CryptoPolicy) (encXtnHdr : List Int) (kdf : Octets)
    (keylen : Nat) (key : Octets) : Except Stop (Option C) :=
  match encXtnHdr with
  | [] => .ok none
  | _ :: _ => do
    let (base, salt) ← xtnHdrKey kernel rtp kdf keylen key
    (orStop (fun _ => .status .initFail)
      (kernel.cipherInit (xtnHdrCipher rtp).1 0 (base ++ salt))).map some

/-- `srtp_stream_init_keys`. The key limit is the one with number `ref`. -/
def streamInitKeys (kernel : Kernel C A) (rtp rtcp : CryptoPolicy) (encXtnHdr : List Int)
    (ref : Nat) (masterKey : MasterKey) : Except Stop (SessionKeys C A) := do
  let initFail : SrtpErrStatus → Stop := fun _ => .status .initFail
  let rtpBase := baseKeyLength rtp.cipherType rtp.cipherKeyLen
  let rtcpBase := baseKeyLength rtcp.cipherType rtcp.cipherKeyLen
  let keylen := kdfKeylen rtp.cipherKeyLen rtcp.cipherKeyLen
  let kdf ← kdfKey rtp rtcp masterKey.key
  let rtpKey ← deriveKey kernel kdf .rtpEncryption .rtpSalt rtpBase (rtp.cipherKeyLen - rtpBase)
  let salt ← sessionSalt rtpKey.2
  let rtpCipher ← orStop initFail
    (kernel.cipherInit rtp.cipherType rtp.authTagLen (rtpKey.1 ++ rtpKey.2))
  let rtpXtnHdrCipher ← xtnHdrInit kernel rtp encXtnHdr kdf keylen masterKey.key
  let rtpAuthKey ← orStop initFail (kernel.kdfGenerate kdf .rtpMsgAuth rtp.authKeyLen)
  let rtpAuth ← orStop initFail (kernel.authInit rtp.authType rtp.authTagLen rtpAuthKey)
  let rtcpKey ← deriveKey kernel kdf .rtcpEncryption .rtcpSalt rtcpBase
    (rtcp.cipherKeyLen - rtcpBase)
  let cSalt ← sessionSalt rtcpKey.2
  let rtcpCipher ← orStop initFail
    (kernel.cipherInit rtcp.cipherType rtcp.authTagLen (rtcpKey.1 ++ rtcpKey.2))
  let rtcpAuthKey ← orStop initFail (kernel.kdfGenerate kdf .rtcpMsgAuth rtcp.authKeyLen)
  let rtcpAuth ← orStop initFail (kernel.authInit rtcp.authType rtcp.authTagLen rtcpAuthKey)
  .ok
    { ref := ref
      rtpCipher := rtpCipher
      rtpXtnHdrCipher := rtpXtnHdrCipher
      rtpAuth := rtpAuth
      rtcpCipher := rtcpCipher
      rtcpAuth := rtcpAuth
      salt := salt.1
      cSalt := cSalt.1
      mkiId := masterKey.mkiId
      salt_len := salt.2
      cSalt_len := cSalt.2
      mki_le := masterKey.mki_le }

end Derivation

section Copying

variable {C A : Type} {rtp rtcp : CryptoPolicy} {k k₁ k₂ : Octets}

theorem baseKeyLength_le (id : CipherTypeId) (len : Nat) : baseKeyLength id len ≤ len := by
  unfold baseKeyLength
  split <;> omega

/-- Two keys of one length are copied alike if they agree on what is copied. -/
theorem copyKey_congr (hlen : k₁.length = k₂.length) {len : Nat}
    (htake : k₁.take len = k₂.take len) : copyKey k₁ len = copyKey k₂ len := by
  simp only [copyKey, inside, hlen, htake]

theorem copyKey_eq {len : Nat} (hk : len ≤ k.length) (hlen : len ≤ maxSrtpKeyLen) :
    copyKey k len = .ok (k.take len ++ List.replicate (maxSrtpKeyLen - len) 0) := by
  have hread : inside k 0 len = .ok () := by rw [inside, if_pos (by omega)]
  have hwrite : inside (List.replicate maxSrtpKeyLen 0) 0 len = .ok () := by
    rw [inside, List.length_replicate, if_pos (by omega)]
  rw [copyKey, hread, hwrite]
  rfl

/-- What is copied has the length of the RTP cipher's key. -/
theorem copied_length (id : CipherTypeId) (len : Nat) :
    baseKeyLength id len + (len - baseKeyLength id len) = len :=
  Nat.add_sub_cancel' (baseKeyLength_le id len)

theorem kdfKey_congr (hlen : k₁.length = k₂.length)
    (htake : k₁.take rtp.cipherKeyLen = k₂.take rtp.cipherKeyLen) :
    kdfKey rtp rtcp k₁ = kdfKey rtp rtcp k₂ := by
  rw [← copied_length rtp.cipherType rtp.cipherKeyLen] at htake
  simp only [kdfKey, copyKey_congr hlen htake]

/-- The session keys depend only on what is copied of the master key: for the
    main derivation function, and for that of the header extensions. -/
theorem streamInitKeys_congr (kernel : Kernel C A) (encXtnHdr : List Int) (ref : Nat)
    {m₁ m₂ : MasterKey} (hmki : m₁.mkiId = m₂.mkiId) (hlen : m₁.key.length = m₂.key.length)
    (htake : m₁.key.take rtp.cipherKeyLen = m₂.key.take rtp.cipherKeyLen)
    (hxtn : encXtnHdr ≠ [] → m₁.key.take (xtnCopied rtp) = m₂.key.take (xtnCopied rtp)) :
    streamInitKeys kernel rtp rtcp encXtnHdr ref m₁ =
      streamInitKeys kernel rtp rtcp encXtnHdr ref m₂ := by
  have hkdf : kdfKey rtp rtcp m₁.key = kdfKey rtp rtcp m₂.key := kdfKey_congr hlen htake
  have hhdr (kdf : Octets) (keylen : Nat) :
      xtnHdrInit kernel rtp encXtnHdr kdf keylen m₁.key =
        xtnHdrInit kernel rtp encXtnHdr kdf keylen m₂.key := by
    cases encXtnHdr with
    | nil => rfl
    | cons id ids =>
        have hcopy := copyKey_congr hlen (hxtn (List.cons_ne_nil id ids))
        simp only [xtnHdrInit, xtnHdrKey, hcopy]
  simp only [streamInitKeys, hkdf, hhdr, hmki]

theorem kdfKeylen_cases (rtpKeylen rtcpKeylen : Nat) :
    kdfKeylen rtpKeylen rtcpKeylen = 46 ∨ kdfKeylen rtpKeylen rtcpKeylen = 30 := by
  simp only [kdfKeylen]
  split
  · left
    split <;> rfl
  · split
    · exact Or.inl rfl
    · exact Or.inr rfl

/-- The key for the derivation function, if what is copied is there. -/
theorem kdfKey_eq (hk : rtp.cipherKeyLen ≤ k.length) (hlen : rtp.cipherKeyLen ≤ maxSrtpKeyLen) :
    kdfKey rtp rtcp k = .ok ((k.take rtp.cipherKeyLen ++
      List.replicate (maxSrtpKeyLen - rtp.cipherKeyLen) 0).take
        (kdfKeylen rtp.cipherKeyLen rtcp.cipherKeyLen)) := by
  have hkeylen := kdfKeylen_cases rtp.cipherKeyLen rtcp.cipherKeyLen
  rw [kdfKey]
  simp only [copied_length, copyKey_eq hk hlen, bind, Except.bind]
  rw [kdfInit, if_pos (hkeylen.imp_right Or.inr)]
  rfl

theorem min_kdfKeylen (rtpKeylen rtcpKeylen : Nat) :
    min (kdfKeylen rtpKeylen rtcpKeylen) rtpKeylen = min rtpKeylen 46 := by
  unfold kdfKeylen
  simp only
  split <;> split <;> omega

/-- Two strings begin alike if they have the same octets there. -/
theorem take_ne_iff {m : Nat} : k₁.take m ≠ k₂.take m ↔ ∃ i, i < m ∧ k₁[i]? ≠ k₂[i]? := by
  constructor
  · intro hne
    by_contra hall
    apply hne
    ext i : 1
    by_cases hi : i < m
    · rw [List.getElem?_take_of_lt hi, List.getElem?_take_of_lt hi]
      by_contra hdiff
      exact hall ⟨i, hi, hdiff⟩
    · rw [List.getElem?_take_eq_none (Nat.le_of_not_lt hi),
        List.getElem?_take_eq_none (Nat.le_of_not_lt hi)]
  · rintro ⟨i, hi, hdiff⟩ heq
    apply hdiff
    rw [← List.getElem?_take_of_lt hi, heq, List.getElem?_take_of_lt hi]

/-- Two master keys of one length give different keys to the derivation
    function exactly if they differ in one of the first octets: as many as the
    RTP cipher's key has, but 46 at most. -/
theorem kdfKey_ne_iff (hlen : k₁.length = k₂.length) (hk : rtp.cipherKeyLen ≤ k₁.length)
    (hmax : rtp.cipherKeyLen ≤ maxSrtpKeyLen) :
    kdfKey rtp rtcp k₁ ≠ kdfKey rtp rtcp k₂ ↔
      ∃ i, i < min rtp.cipherKeyLen 46 ∧ k₁[i]? ≠ k₂[i]? := by
  have hk₂ : rtp.cipherKeyLen ≤ k₂.length := by rw [← hlen]; exact hk
  have htakes : (k₁.take rtp.cipherKeyLen).length = (k₂.take rtp.cipherKeyLen).length := by
    rw [List.length_take, List.length_take, hlen]
  rw [kdfKey_eq hk hmax, kdfKey_eq hk₂ hmax, Ne, Except.ok.injEq, List.take_append,
    List.take_append, htakes, List.append_cancel_right_eq, List.take_take, List.take_take,
    min_kdfKeylen, ← Ne, take_ne_iff]

/-- What is copied has to be there. -/
theorem copied_of_kdfKey {a : Octets} (h : kdfKey rtp rtcp k = .ok a) :
    rtp.cipherKeyLen ≤ k.length ∧ rtp.cipherKeyLen ≤ maxSrtpKeyLen := by
  simp only [kdfKey, copied_length, copyKey, bind_eq_ok] at h
  rcases h with ⟨tmpKey, ⟨u, hread, v, hwrite, -⟩, -⟩
  rw [inside_eq_ok, Nat.zero_add] at hread hwrite
  rw [List.length_replicate] at hwrite
  exact ⟨hread, hwrite⟩

end Copying

/-- Master keys of `n` octets that differ in one of the first `m` give different
    keys to the derivation function exactly if these octets are all copied to
    it: from the `n` octets, as many as the RTP cipher's key has are copied to
    the buffer, and 46 at most go into the function. -/
theorem master_key_determines (rtp rtcp : CryptoPolicy) (n m : Nat) (hm : m ≤ n) :
    (∀ k₁ k₂ : Octets, k₁.length = n → k₂.length = n → (∃ i, i < m ∧ k₁[i]? ≠ k₂[i]?) →
      ∃ a b, kdfKey rtp rtcp k₁ = .ok a ∧ kdfKey rtp rtcp k₂ = .ok b ∧ a ≠ b) ↔
      m = 0 ∨ (rtp.cipherKeyLen ≤ n ∧ rtp.cipherKeyLen ≤ maxSrtpKeyLen ∧
        m ≤ min rtp.cipherKeyLen 46) := by
  constructor
  · intro hall
    rcases Nat.eq_zero_or_pos m with hzero | hpos
    · exact Or.inl hzero
    right
    -- Two keys that differ in the last of the octets that shall count.
    have hdiff (i : Nat) : (List.replicate n (0 : UInt8))[i]? ≠
        ((List.replicate n 0).set (m - 1) 1)[i]? ↔ i = m - 1 := by
      rw [List.getElem?_set]
      by_cases hi : m - 1 = i
      · rw [if_pos hi, List.length_replicate, if_pos (by omega), List.getElem?_replicate,
          if_pos (by omega)]
        exact iff_of_true (by decide) hi.symm
      · rw [if_neg hi]
        exact iff_of_false (fun hne => hne rfl) (fun he => hi he.symm)
    rcases hall (List.replicate n 0) ((List.replicate n 0).set (m - 1) 1) List.length_replicate
      (by rw [List.length_set, List.length_replicate])
      ⟨m - 1, by omega, (hdiff _).mpr rfl⟩ with ⟨a, b, ha, hb, hab⟩
    rcases copied_of_kdfKey ha with ⟨hk, hmax⟩
    have hne : kdfKey rtp rtcp (List.replicate n 0) ≠
        kdfKey rtp rtcp ((List.replicate n 0).set (m - 1) 1) := by
      rw [ha, hb, Ne, Except.ok.injEq]
      exact hab
    rw [kdfKey_ne_iff (by rw [List.length_set]) hk hmax] at hne
    rcases hne with ⟨i, hi, hi'⟩
    rw [(hdiff i).mp hi'] at hi
    rw [List.length_replicate] at hk
    exact ⟨hk, hmax, by omega⟩
  · rintro (rfl | ⟨hn, hmax, hcount⟩) k₁ k₂ hk₁ hk₂ ⟨i, hi, hdiff⟩
    · exact absurd hi (Nat.not_lt_zero i)
    · have hne : kdfKey rtp rtcp k₁ ≠ kdfKey rtp rtcp k₂ :=
        (kdfKey_ne_iff (hk₁.trans hk₂.symm) (by rw [hk₁]; exact hn) hmax).mpr
          ⟨i, Nat.lt_of_lt_of_le hi hcount, hdiff⟩
      rw [kdfKey_eq (by rw [hk₁]; exact hn) hmax, kdfKey_eq (by rw [hk₂]; exact hn) hmax] at hne ⊢
      exact ⟨_, _, rfl, rfl, fun heq => hne (congrArg Except.ok heq)⟩

section Policies

/-- `srtp_crypto_policy_set_rtcp_default`. -/
def rtcpDefault : CryptoPolicy :=
  { cipherType := .aesIcm128
    cipherKeyLen := 30
    authType := .hmacSha1
    authKeyLen := 20
    authTagLen := 10
    secServ := .confAndAuth }

/-- `srtp_crypto_policy_set_null_cipher_hmac_sha1_80`. -/
def nullCipherHmacSha180 : CryptoPolicy :=
  { cipherType := .nullCipher
    cipherKeyLen := 0
    authType := .hmacSha1
    authKeyLen := 20
    authTagLen := 10
    secServ := .auth }

/-- With one policy for both, every octet counts. -/
theorem master_key_determines_default :
    (∀ k₁ k₂ : Octets, k₁.length = 30 → k₂.length = 30 → (∃ i, i < 30 ∧ k₁[i]? ≠ k₂[i]?) →
      ∃ a b, kdfKey rtcpDefault rtcpDefault k₁ = .ok a ∧
        kdfKey rtcpDefault rtcpDefault k₂ = .ok b ∧ a ≠ b) ↔
      30 = 0 ∨ (rtcpDefault.cipherKeyLen ≤ 30 ∧ rtcpDefault.cipherKeyLen ≤ maxSrtpKeyLen ∧
        30 ≤ min rtcpDefault.cipherKeyLen 46) :=
  master_key_determines rtcpDefault rtcpDefault 30 30 (Nat.le_refl 30)

/-- With a null cipher for RTP, all session keys are those of any other master key. -/
theorem sessionKeys_nullCipher :
    streamInitKeys (⟨fun kdf _ _ => .ok kdf, fun _ _ key => .ok key, fun _ _ key => .ok key⟩ :
        Kernel Octets Octets) nullCipherHmacSha180 rtcpDefault [] 0
        ⟨List.replicate 30 1, [], by decide⟩ =
      streamInitKeys ⟨fun kdf _ _ => .ok kdf, fun _ _ key => .ok key, fun _ _ key => .ok key⟩
        nullCipherHmacSha180 rtcpDefault [] 0 ⟨List.replicate 30 2, [], by decide⟩ :=
  streamInitKeys_congr _ [] 0 rfl rfl rfl (absurd rfl)

/-- Authenticated RTP with a null cipher, and the usual RTCP: the derivation
    function is always given zeros. -/
theorem master_key_ignored :
    nullCipherHmacSha180.secServ.hasAuth = true ∧ rtcpDefault.secServ = .confAndAuth ∧
      ¬ ∀ k₁ k₂ : Octets, k₁.length = rtcpDefault.cipherKeyLen →
        k₂.length = rtcpDefault.cipherKeyLen → (∃ i, i < 16 ∧ k₁[i]? ≠ k₂[i]?) →
          ∃ a b, kdfKey nullCipherHmacSha180 rtcpDefault k₁ = .ok a ∧
            kdfKey nullCipherHmacSha180 rtcpDefault k₂ = .ok b ∧ a ≠ b := by
  refine ⟨rfl, rfl, fun hall => ?_⟩
  have hzeros : ∀ x : UInt8, kdfKey nullCipherHmacSha180 rtcpDefault (List.replicate 30 x) =
      .ok (List.replicate 30 0) := fun x => kdfKey_eq (Nat.zero_le _) (Nat.zero_le _)
  rcases hall (List.replicate 30 1) (List.replicate 30 2) rfl rfl ⟨0, by decide, by decide⟩ with
    ⟨a, b, ha, hb, hab⟩
  rw [hzeros, Except.ok.injEq] at ha hb
  exact hab (ha.symm.trans hb)

end Policies

end Srtp

end CryptoOpal

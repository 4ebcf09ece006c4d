import CryptoOpal.Lib.Octets

/-!
# Shared Secrets and Their Cache

The retained secrets of libzrtp: what the cache keeps for a peer between
calls, what a session reads from it, and the identifiers by which the two
ends compare their secrets without showing them.

A session always has all four secrets. Those the cache does not supply keep
the random octets they were allocated with, and nothing but `cachedflag`
tells them from the others.

The hash component is a parameter. Its lengths and the collisions it may have
are hypotheses where a result needs them.

## Main definitions

* `Hash`: `zrtp_hash_t`, the negotiated hash.
* `kdf`: `_zrtp_kdf`.
* `SharedSecret`, `Secrets`: `zrtp_shared_secret_t`, `zrtp_secrets_t`.
* `CacheEntry`: What the cache keeps for a peer.
* `cachePut`, `cacheGet`: `cache_put` and `cache_get` on the peer's entry.
* `prepareSecrets`: `_zrtp_prepare_secrets`.
* `attachSecret`: `_attach_secret`.
-/

namespace CryptoOpal

namespace Zrtp

open Lib (Octets bigEndian)

/-- The octets of a constant string of the source. -/
def cstring (s : String) : Octets := s.toList.map fun c => UInt8.ofNat c.toNat

/-- `zrtp_hash_t`. A keyed digest takes the key first. -/
structure Hash where
  digestLength : Nat
  digest : Octets → Octets
  hmac : Octets → Octets → Octets

/-- `hmac_truncated`. -/
def Hash.hmacTruncated (h : Hash) (key data : Octets) (length : Nat) : Octets :=
  (h.hmac key data).take length

/-- `ZRTP_RS_SIZE`. -/
def rsSize : Nat := 32

/-- `ZRTP_RSID_SIZE`. -/
def rsidSize : Nat := 8

/-- `ZRTP_HASH_SIZE`. -/
def hashSize : Nat := 32

/-- `_zrtp_kdf`: `HMAC(KI, i | Label | 0x00 | Context | L)`. -/
def kdf (h : Hash) (ki label context : Octets) (length : Nat) : Octets :=
  h.hmacTruncated ki (bigEndian 4 1 ++ label ++ [0] ++ context ++ bigEndian 4 (length * 8)) length

/-- A digest for examples, a polynomial of the octets. -/
def sampleDigest (m : Octets) : Octets :=
  bigEndian 32 (m.foldl (fun acc b => (acc * 65537 + b.toNat + 1) % (2 ^ 255 - 19)) 1)

/-- A hash for examples. -/
def sampleHash : Hash :=
  { digestLength := 32, digest := sampleDigest, hmac := fun key m => sampleDigest (key ++ m) }

/-- `zrtp_shared_secret_t`. -/
structure SharedSecret where
  value : Octets
  lastusedAt : Nat
  ttl : Nat
  cachedflag : Bool
  deriving DecidableEq

/-- `_zrtp_alloc_shared_secret`, with the octets `zrtp_randstr` returned. -/
def allocSharedSecret (random : Octets) (now : Nat) : SharedSecret :=
  { value := random, lastusedAt := now, ttl := 0xffffffff, cachedflag := false }

/-- A mask of `ZRTP_BIT_RS1`, `ZRTP_BIT_RS2`, `ZRTP_BIT_AUX` and
    `ZRTP_BIT_PBX`. -/
structure SecretBits where
  rs1 : Bool
  rs2 : Bool
  aux : Bool
  pbx : Bool
  deriving DecidableEq

/-- No bit is set. -/
def SecretBits.none : SecretBits := ⟨false, false, false, false⟩

/-- `zrtp_secrets_t`. -/
structure Secrets where
  rs1 : SharedSecret
  rs2 : SharedSecret
  auxs : SharedSecret
  pbxs : SharedSecret
  cached : SecretBits
  matched : SecretBits
  deriving DecidableEq

/-- `zrtp_cache_entry_t` of one peer. An empty string is a value that is not
    there. -/
structure CacheEntry where
  currCache : Octets
  prevCache : Octets
  lastusedAt : Nat
  ttl : Nat
  verified : Nat
  secureSince : Nat
  deriving DecidableEq

/-- `cache_put`: the current value becomes the previous one. -/
def cachePut (entry : Option CacheEntry) (rss : SharedSecret) (now : Nat) : CacheEntry :=
  match entry with
  | none =>
    { currCache := rss.value, prevCache := [], lastusedAt := rss.lastusedAt, ttl := rss.ttl,
      verified := 0, secureSince := now }
  | some e =>
    { e with
      currCache := rss.value
      prevCache := if e.currCache.length > 0 then e.currCache else e.prevCache
      lastusedAt := rss.lastusedAt
      ttl := rss.ttl }

/-- `cache_get`: the secret with the value of the entry, or nothing. -/
def cacheGet (entry : Option CacheEntry) (rss : SharedSecret) (prevRequested : Bool) :
    Option SharedSecret :=
  match entry with
  | none => none
  | some e =>
    if prevRequested && e.prevCache.length == 0 then none
    else
      some { rss with
        value := if prevRequested then e.prevCache else e.currCache
        lastusedAt := e.lastusedAt
        ttl := e.ttl }

/-- `cache_get_mitm`: the entry of an enrolled PBX has no previous value, and
    its time to live is not read. -/
def cacheGetMitm (entry : Option CacheEntry) (rss : SharedSecret) : Option SharedSecret :=
  entry.map fun e => { rss with value := e.currCache, lastusedAt := e.lastusedAt }

/-- A secret that the cache supplied, or the one that was there. -/
def restore (rss : SharedSecret) (cached : Option SharedSecret) : SharedSecret :=
  match cached with
  | none => { rss with cachedflag := false }
  | some rss' => { rss' with cachedflag := true }

/-- `_zrtp_prepare_secrets`. -/
def prepareSecrets (entry mitm : Option CacheEntry) (sec : Secrets) : Secrets :=
  let rs1 := restore sec.rs1 (cacheGet entry sec.rs1 false)
  let rs2 := restore sec.rs2 (cacheGet entry sec.rs2 true)
  let pbxs := restore sec.pbxs (cacheGetMitm mitm sec.pbxs)
  { sec with
    rs1 := rs1
    rs2 := rs2
    pbxs := pbxs
    cached :=
      { sec.cached with
        rs1 := sec.cached.rs1 || rs1.cachedflag
        rs2 := sec.cached.rs2 || rs2.cachedflag
        pbx := sec.cached.pbx || pbxs.cachedflag } }

/-- The role that goes into an identifier, `ZRTP_ROLE_INITIATOR` or
    `ZRTP_ROLE_RESPONDER`. -/
def role (isInitiator : Bool) : Octets :=
  if isInitiator then cstring "Initiator" else cstring "Responder"

/-- The identifier of a secret that the end in this role sends. -/
def rsId (h : Hash) (isInitiator : Bool) (value : Octets) : Octets :=
  h.hmacTruncated value (role isInitiator) rsidSize

/-- `zrtp_proto_secret_t`. -/
structure ProtoSecret where
  secret : SharedSecret
  id : Octets
  peerId : Octets
  deriving DecidableEq

/-- `_attach_secret`. -/
def attachSecret (h : Hash) (sec : SharedSecret) (isInitiator : Bool) : ProtoSecret :=
  { secret := sec, id := rsId h isInitiator sec.value, peerId := rsId h (!isInitiator) sec.value }

/-- RS1 is the entry's current value, if there is an entry. -/
theorem restore_curr (entry : Option CacheEntry) (rss : SharedSecret) :
    (restore rss (cacheGet entry rss false)).value =
      match entry with
      | none => rss.value
      | some e => e.currCache := by
  cases entry with
  | none => rfl
  | some e => rfl

/-- RS2 is the entry's previous value, if there is one. -/
theorem restore_prev (entry : Option CacheEntry) (rss : SharedSecret) :
    (restore rss (cacheGet entry rss true)).value = rss.value ∨
      ∃ e, entry = some e ∧ e.prevCache ≠ [] ∧
        (restore rss (cacheGet entry rss true)).value = e.prevCache := by
  cases entry with
  | none => exact Or.inl rfl
  | some e =>
      by_cases hempty : e.prevCache = []
      · left
        simp only [cacheGet, hempty, List.length_nil, BEq.rfl, Bool.and_self, if_true, restore]
      · refine Or.inr ⟨e, rfl, hempty, ?_⟩
        have hlen : (e.prevCache.length == 0) = false := by
          simpa only [beq_eq_false_iff_ne, ne_eq, List.length_eq_zero_iff] using hempty
        simp only [cacheGet, hlen, Bool.and_false, Bool.false_eq_true, if_false, if_true, restore]

end Zrtp

end CryptoOpal

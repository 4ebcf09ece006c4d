import CryptoOpal.Lib.FirstShared
import CryptoOpal.Lib.Transducer
import CryptoOpal.Zrtp.Secrets

/-!
# Retained Secrets Across Calls

What a DH exchange makes of the retained secrets: which of them both ends mix
into `s0`, the new one they derive from it, and what each end keeps in its
cache for the next exchange.

An end may fail to keep the new secret, so the two caches of a pair drift
apart. Each end then compares both of its secrets with both of the peer's in
its own order of preference, and this only leads to one common choice because
the current value of a cache is never older than its previous one. That order
is the invariant here. It is stated by positions in the list of all secrets
that the run has made so far, and `Lib.firstShared_comm` draws the conclusion.

Nothing is assumed about completed exchanges: since both ends choose the same
`s1`, they derive the same new secret by themselves.

## Main definitions

* `DhPart`: The identifiers of a DHPart message.
* `ProtoCrypto`: The secrets of `zrtp_proto_crypto_t`.
* `matchSecrets`: The comparison of the identifiers.
* `deriveS0`: The DH branch of the derivation of `s0`.
* `updateSecrets`: The new retained secret.
* `Exchange`, `exchange`: A DH exchange and what it does to both ends.
* `secretsOf`: The secrets that the exchanges of a run make.

## Theorems

* `matchSecrets_s1`: An end chooses the first secret that the peer has, too.
* `recent_update`: A cache stays in order.
* `retained_secret_agrees`: Both ends select the same `s1` in every exchange.
-/

namespace CryptoOpal

namespace Zrtp

open Lib (Octets bigEndian firstShared NoOlder run stepAt)

/-- The secret identifiers of `zrtp_packet_DHPart_t`. -/
structure DhPart where
  rs1ID : Octets
  rs2ID : Octets
  auxsID : Octets
  pbxsID : Octets
  deriving DecidableEq

/-- The secrets of `zrtp_proto_crypto_t`. -/
structure ProtoCrypto where
  rs1 : ProtoSecret
  rs2 : ProtoSecret
  auxs : ProtoSecret
  pbxs : ProtoSecret
  deriving DecidableEq

/-- The part of `_zrtp_protocol_init` that attaches the secrets. -/
def protocolInit (h : Hash) (sec : Secrets) (isInitiator : Bool) : ProtoCrypto :=
  { rs1 := attachSecret h sec.rs1 isInitiator
    rs2 := attachSecret h sec.rs2 isInitiator
    auxs := attachSecret h sec.auxs isInitiator
    pbxs := attachSecret h sec.pbxs isInitiator }

/-- The identifiers that `_prepare_dhpart1` and `_prepare_dhpart2` send. -/
def prepareDhpart (cc : ProtoCrypto) : DhPart :=
  { rs1ID := cc.rs1.id, rs2ID := cc.rs2.id, auxsID := cc.auxs.id, pbxsID := cc.pbxs.id }

/-- The secrets `s1`, `s2` and `s3` of an exchange, and what the comparison
    leaves: the crypto context, the masks, and whether the peer's entry loses
    its verified flag. -/
structure Matching where
  s1 : Option ProtoSecret
  s2 : Option ProtoSecret
  s3 : Option ProtoSecret
  cc : ProtoCrypto
  sec : Secrets
  dropVerified : Bool
  deriving DecidableEq

/-- The choice of `C[0]` by the first three comparisons. -/
def matchRs1 (sec : Secrets) (cc : ProtoCrypto) (peer : DhPart) : Matching :=
  -- If everything is OK, RS1 should match.
  if cc.rs1.peerId = peer.rs1ID then
    { s1 := some cc.rs1, s2 := none, s3 := none, cc := cc, dropVerified := false
      sec := { sec with matched := { sec.matched with rs1 := true } } }
  -- We have lost our RS1, the remote party should use its backup.
  else if cc.rs1.peerId = peer.rs2ID then
    { s1 := some cc.rs1, s2 := none, s3 := none, cc := cc, dropVerified := false
      sec := { sec with matched := { sec.matched with rs1 := true } } }
  -- The remote party has lost its secret, we use the backup.
  else if cc.rs2.peerId = peer.rs1ID then
    { s1 := some cc.rs2, s2 := none, s3 := none, cc := { cc with rs1 := cc.rs2 }
      dropVerified := false
      sec :=
        { sec with
          matched := { sec.matched with rs1 := true }
          cached := { sec.cached with rs1 := true } } }
  else
    { s1 := none, s2 := none, s3 := none, cc := cc, dropVerified := true
      sec := { sec with matched := { sec.matched with rs1 := false } } }

/-- RS2 is the last resort for `C[0]`. -/
def matchRs2 (m : Matching) (peer : DhPart) : Matching :=
  if m.cc.rs2.peerId = peer.rs2ID then
    { m with
      s1 := if m.s1 = none then some m.cc.rs2 else m.s1
      sec := { m.sec with matched := { m.sec.matched with rs2 := true } } }
  else m

/-- The auxiliary secret goes to `C[1]`. -/
def matchAuxs (m : Matching) (peer : DhPart) : Matching :=
  if peer.auxsID = m.cc.auxs.peerId then
    { m with
      s2 := some m.cc.auxs
      sec := { m.sec with matched := { m.sec.matched with aux := true } } }
  else m

/-- The PBX secret goes to `C[2]`. -/
def matchPbxs (m : Matching) (peer : DhPart) : Matching :=
  if peer.pbxsID = m.cc.pbxs.peerId then
    { m with
      s3 := some m.cc.pbxs
      sec := { m.sec with matched := { m.sec.matched with pbx := true } } }
  else m

/-- The comparisons of `_zrtp_protocol_init` DH mode, in their order. -/
def matchSecrets (sec : Secrets) (cc : ProtoCrypto) (peer : DhPart) : Matching :=
  matchPbxs (matchAuxs (matchRs2 (matchRs1 sec cc peer) peer) peer) peer

/-- A secret in the hash: its length, and the value if it is shared. -/
def hashedSecret : Option ProtoSecret → Octets
  | none => bigEndian 4 0
  | some s => bigEndian 4 rsSize ++ s.secret.value

/-- What both ends of an exchange know and mix into `s0`. -/
structure Agreed where
  dhresult : Octets
  zidi : Octets
  zidr : Octets
  mesHash : Octets
  deriving DecidableEq

/-- `ZIDi`, `ZIDr` and the hash of the messages. -/
def Agreed.kdfContext (a : Agreed) : Octets := a.zidi ++ a.zidr ++ a.mesHash

/-- `s0` for the secrets that were found to be shared. -/
def deriveS0 (h : Hash) (a : Agreed) (m : Matching) : Octets :=
  h.digest (bigEndian 4 1 ++ a.dhresult ++ cstring "ZRTP-HMAC-KDF" ++ a.zidi ++ a.zidr ++
    a.mesHash ++ hashedSecret m.s1 ++ hashedSecret m.s2 ++ hashedSecret m.s3)

/-- `rs1 = KDF(s0, "retained secret", KDF_Context, hash length)`. -/
def newRetained (h : Hash) (a : Agreed) (s0 : Octets) : Octets :=
  kdf h s0 (cstring "retained secret") a.kdfContext hashSize

/-- One end in one exchange: the octets its secrets were allocated with, the
    secrets from outside, and what becomes of the new one. `putOk` is false
    where the cache could not take it. -/
structure Party where
  randomRs1 : Octets
  randomRs2 : Octets
  auxs : SharedSecret
  pbxs : SharedSecret
  mitm : Option CacheEntry
  now : Nat
  cacheTtl : Nat
  mitmAlertDetected : Bool
  putOk : Bool
  deriving DecidableEq

/-- The secrets of a new session, with what the cache supplies. -/
def openSecrets (entry : Option CacheEntry) (p : Party) : Secrets :=
  prepareSecrets entry p.mitm
    { rs1 := allocSharedSecret p.randomRs1 p.now
      rs2 := allocSharedSecret p.randomRs2 p.now
      auxs := p.auxs
      pbxs := p.pbxs
      cached := .none
      matched := .none }

/-- The entry after the comparison: without a match the peer is no longer
    verified. -/
def dropVerified (m : Matching) (now : Nat) (entry : Option CacheEntry) : Option CacheEntry :=
  if m.dropVerified then entry.map fun e => { e with verified := 0, secureSince := now } else entry

/-- The new secret as the session's `rs1`. -/
def retainedSecret (p : Party) (value : Octets) : SharedSecret :=
  { value := value, lastusedAt := p.now, ttl := p.cacheTtl, cachedflag := true }

/-- The secrets after the exchange: RS2 is replaced with RS1, and RS1 with the
    new one, unless the time to live is 0. -/
def updateSecrets (p : Party) (value : Octets) (sec : Secrets) : Secrets :=
  if p.cacheTtl > 0 then
    { sec with
      rs2 := sec.rs1
      rs1 := retainedSecret p value
      matched := { sec.matched with rs1 := true }
      cached := { sec.cached with rs1 := true, rs2 := sec.cached.rs2 || sec.rs1.cachedflag } }
  else { sec with rs1 := { sec.rs1 with ttl := 0 } }

/-- The entry after the exchange. A possible man in the middle keeps a new
    secret out of the cache, but not the old one with time to live 0. -/
def updateEntry (p : Party) (value : Octets) (sec : Secrets) (entry : Option CacheEntry) :
    Option CacheEntry :=
  if p.putOk && (p.cacheTtl == 0 || !p.mitmAlertDetected) then
    some (cachePut entry (updateSecrets p value sec).rs1 p.now)
  else entry

/-- The entries the two ends have for each other. -/
structure Caches where
  first : Option CacheEntry
  second : Option CacheEntry
  deriving DecidableEq

/-- A DH exchange between the two ends. -/
structure Exchange where
  firstInitiates : Bool
  dhresult : Octets
  mesHash : Octets
  first : Party
  second : Party
  deriving DecidableEq

/-- What the two ends agree on, for their ZIDs. -/
def Exchange.agreed (x : Exchange) (zid zid' : Octets) : Agreed :=
  { dhresult := x.dhresult
    zidi := if x.firstInitiates then zid else zid'
    zidr := if x.firstInitiates then zid' else zid
    mesHash := x.mesHash }

/-- What one end finds in the other one's DHPart message. -/
def matching (h : Hash) (isInitiator : Bool) (entry entry' : Option CacheEntry) (p p' : Party) :
    Matching :=
  matchSecrets (openSecrets entry p) (protocolInit h (openSecrets entry p) isInitiator)
    (prepareDhpart (protocolInit h (openSecrets entry' p') (!isInitiator)))

/-- The new secret as one end derives it. -/
def derived (h : Hash) (a : Agreed) (m : Matching) : Octets := newRetained h a (deriveS0 h a m)

/-- An end's entry after the exchange. -/
def keep (h : Hash) (a : Agreed) (m : Matching) (p : Party) (entry : Option CacheEntry) :
    Option CacheEntry :=
  updateEntry p (derived h a m) m.sec (dropVerified m p.now entry)

/-- The matching of the first end. -/
def Exchange.matchingFirst (x : Exchange) (h : Hash) (s : Caches) : Matching :=
  matching h x.firstInitiates s.first s.second x.first x.second

/-- The matching of the second end. -/
def Exchange.matchingSecond (x : Exchange) (h : Hash) (s : Caches) : Matching :=
  matching h (!x.firstInitiates) s.second s.first x.second x.first

/-- The value an end uses for `s1`. -/
def Matching.s1Value (m : Matching) : Option Octets := m.s1.map fun s => s.secret.value

/-- An exchange: the caches it leaves, and the `s1` of both ends. -/
def exchange (h : Hash) (zid zid' : Octets) (s : Caches) (x : Exchange) :
    Caches × (Option Octets × Option Octets) :=
  ({ first := keep h (x.agreed zid zid') (x.matchingFirst h s) x.first s.first
     second := keep h (x.agreed zid zid') (x.matchingSecond h s) x.second s.second },
    (x.matchingFirst h s).s1Value, (x.matchingSecond h s).s1Value)

/-- The secrets that an exchange makes: the random ones of both ends, and the
    new one. -/
def made (h : Hash) (zid zid' : Octets) (s : Caches) (x : Exchange) : List Octets :=
  [x.first.randomRs1, x.first.randomRs2, x.second.randomRs1, x.second.randomRs2,
    derived h (x.agreed zid zid') (x.matchingFirst h s)]

/-- The secrets that the exchanges of a run make, oldest first. -/
def secretsOf (h : Hash) (zid zid' : Octets) (s : Caches) (xs : List Exchange) : List Octets :=
  (run (exchange h zid zid') s xs).flatMap fun e => made h zid zid' e.before e.input

/-- The PBX secret of an end in an exchange. -/
def Party.pbxsValue (p : Party) : Octets := (restore p.pbxs (cacheGetMitm p.mitm p.pbxs)).value

/-- The auxiliary and PBX secrets of an exchange. -/
def Exchange.outside (x : Exchange) : List Octets :=
  [x.first.auxs.value, x.second.auxs.value, x.first.pbxsValue, x.second.pbxsValue]

/-- Different values of the list have different identifiers in each role. -/
def CollisionFree (h : Hash) (l : List Octets) : Prop :=
  ∀ r, ∀ u ∈ l, ∀ v ∈ l, rsId h r u = rsId h r v → u = v

instance (h : Hash) (l : List Octets) : Decidable (CollisionFree h l) :=
  inferInstanceAs (Decidable (∀ r, ∀ u ∈ l, ∀ v ∈ l, rsId h r u = rsId h r v → u = v))

theorem CollisionFree.mono {h : Hash} {l l' : List Octets} (hfree : CollisionFree h l)
    (hsub : ∀ v ∈ l', v ∈ l) : CollisionFree h l' :=
  fun r u hu v hv => hfree r u (hsub u hu) v (hsub v hv)

/-- The first three comparisons. -/
theorem matchRs1_s1 (sec : Secrets) (cc : ProtoCrypto) (peer : DhPart) :
    (matchRs1 sec cc peer).s1 =
      if cc.rs1.peerId = peer.rs1ID ∨ cc.rs1.peerId = peer.rs2ID then some cc.rs1
      else if cc.rs2.peerId = peer.rs1ID then some cc.rs2
      else none := by
  unfold matchRs1
  by_cases h11 : cc.rs1.peerId = peer.rs1ID
  · rw [if_pos h11, if_pos (Or.inl h11)]
  · by_cases h12 : cc.rs1.peerId = peer.rs2ID
    · rw [if_neg h11, if_pos h12, if_pos (Or.inr h12)]
    · rw [if_neg h11, if_neg h12, if_neg (not_or.mpr ⟨h11, h12⟩)]
      split <;> rfl

/-- They leave RS2 in its place. -/
theorem matchRs1_rs2 (sec : Secrets) (cc : ProtoCrypto) (peer : DhPart) :
    (matchRs1 sec cc peer).cc.rs2 = cc.rs2 := by
  unfold matchRs1
  split_ifs <;> rfl

/-- The last comparison counts if the others chose nothing. -/
theorem matchRs2_s1 (m : Matching) (peer : DhPart) :
    (matchRs2 m peer).s1 =
      m.s1.or (if m.cc.rs2.peerId = peer.rs2ID then some m.cc.rs2 else none) := by
  unfold matchRs2
  cases hs1 : m.s1 with
  | none => split <;> simp only [hs1, if_true, Option.none_or]
  | some s => split <;> simp only [hs1, reduceCtorEq, if_false, Option.some_or]

/-- The comparisons that choose `s1`, in one expression. -/
theorem matchSecrets_s1_eq (sec : Secrets) (cc : ProtoCrypto) (peer : DhPart) :
    (matchSecrets sec cc peer).s1 =
      if cc.rs1.peerId = peer.rs1ID ∨ cc.rs1.peerId = peer.rs2ID then some cc.rs1
      else if cc.rs2.peerId = peer.rs1ID ∨ cc.rs2.peerId = peer.rs2ID then some cc.rs2
      else none := by
  have hrest : (matchSecrets sec cc peer).s1 = (matchRs2 (matchRs1 sec cc peer) peer).s1 := by
    unfold matchSecrets matchPbxs matchAuxs
    split_ifs <;> rfl
  rw [hrest, matchRs2_s1, matchRs1_s1, matchRs1_rs2]
  by_cases h1 : cc.rs1.peerId = peer.rs1ID ∨ cc.rs1.peerId = peer.rs2ID
  · rw [if_pos h1, if_pos h1, Option.some_or]
  · rw [if_neg h1, if_neg h1]
    by_cases h21 : cc.rs2.peerId = peer.rs1ID
    · rw [if_pos h21, if_pos (Or.inl h21), Option.some_or]
    · rw [if_neg h21, Option.none_or]
      simp only [h21, false_or]

/-- The comparisons for `s1` touch neither the other choices nor the secrets
    they are about. -/
theorem matchRs_rest (sec : Secrets) (cc : ProtoCrypto) (peer : DhPart) :
    (matchRs2 (matchRs1 sec cc peer) peer).s2 = none ∧
      (matchRs2 (matchRs1 sec cc peer) peer).s3 = none ∧
      (matchRs2 (matchRs1 sec cc peer) peer).cc.auxs = cc.auxs ∧
      (matchRs2 (matchRs1 sec cc peer) peer).cc.pbxs = cc.pbxs := by
  unfold matchRs2 matchRs1
  split_ifs <;> exact ⟨rfl, rfl, rfl, rfl⟩

/-- The auxiliary secret is shared if its identifiers agree, and the same for
    the PBX secret. -/
theorem matchSecrets_s2_s3 (sec : Secrets) (cc : ProtoCrypto) (peer : DhPart) :
    (matchSecrets sec cc peer).s2 = (if peer.auxsID = cc.auxs.peerId then some cc.auxs else none) ∧
      (matchSecrets sec cc peer).s3 =
        if peer.pbxsID = cc.pbxs.peerId then some cc.pbxs else none := by
  rcases matchRs_rest sec cc peer with ⟨hs2, hs3, haux, hpbx⟩
  unfold matchSecrets
  generalize matchRs2 (matchRs1 sec cc peer) peer = m at hs2 hs3 haux hpbx
  unfold matchPbxs matchAuxs
  rw [haux]
  by_cases ha : peer.auxsID = cc.auxs.peerId
  · simp only [ha, if_true, hpbx]
    split_ifs <;> simp only [hs3, and_self]
  · simp only [ha, if_false, hpbx]
    split_ifs <;> simp only [hs2, hs3, and_self]

/-- The comparison only sets flags of the session's secrets. -/
theorem matchSecrets_rs1 (sec : Secrets) (cc : ProtoCrypto) (peer : DhPart) :
    (matchSecrets sec cc peer).sec.rs1 = sec.rs1 := by
  have h1 : (matchRs1 sec cc peer).sec.rs1 = sec.rs1 := by
    unfold matchRs1
    split_ifs <;> rfl
  have h2 : ∀ m, (matchRs2 m peer).sec.rs1 = m.sec.rs1 := by
    intro m
    unfold matchRs2
    split <;> rfl
  have h3 : ∀ m, (matchAuxs m peer).sec.rs1 = m.sec.rs1 := by
    intro m
    unfold matchAuxs
    split <;> rfl
  have h4 : ∀ m, (matchPbxs m peer).sec.rs1 = m.sec.rs1 := by
    intro m
    unfold matchPbxs
    split <;> rfl
  rw [matchSecrets, h4, h3, h2, h1]

/-- An end chooses the first of its secrets that the peer has, too. -/
theorem matchSecrets_s1 {h : Hash} {r : Bool} {sec sec' : Secrets} {l : List Octets}
    (hfree : CollisionFree h l) (h1 : sec.rs1.value ∈ l) (h2 : sec.rs2.value ∈ l)
    (h1' : sec'.rs1.value ∈ l) (h2' : sec'.rs2.value ∈ l) :
    (matchSecrets sec (protocolInit h sec r)
        (prepareDhpart (protocolInit h sec' (!r)))).s1Value =
      firstShared [sec.rs1.value, sec.rs2.value] [sec'.rs1.value, sec'.rs2.value] := by
  -- The peer's identifiers are compared with those of one's own secrets in its role.
  have hid : ∀ u ∈ l, ∀ v ∈ l, (rsId h (!r) u = rsId h (!r) v) = (u = v) := by
    intro u hu v hv
    exact propext ⟨hfree (!r) u hu v hv, fun heq => by rw [heq]⟩
  rw [Matching.s1Value, matchSecrets_s1_eq]
  simp only [protocolInit, attachSecret, prepareDhpart, hid _ h1 _ h1', hid _ h1 _ h2',
    hid _ h2 _ h1', hid _ h2 _ h2', firstShared, List.find?_cons, List.find?_nil,
    List.mem_cons, List.not_mem_nil, or_false]
  split_ifs with hfirst hsecond
  · simp only [hfirst, decide_true, Option.map_some]
  · simp only [hfirst, hsecond, decide_true, decide_false, Option.map_some]
  · simp only [hfirst, hsecond, decide_false, Option.map_none]

/-- A secret's part of the hash depends on its value only. -/
theorem hashedSecret_congr {s t : Option ProtoSecret}
    (h : s.map (fun p => p.secret.value) = t.map fun p => p.secret.value) :
    hashedSecret s = hashedSecret t := by
  cases s with
  | none =>
      cases t with
      | none => rfl
      | some t => exact absurd h (by simp only [Option.map_none, Option.map_some, reduceCtorEq,
          not_false_eq_true])
  | some s =>
      cases t with
      | none => exact absurd h (by simp only [Option.map_none, Option.map_some, reduceCtorEq,
          not_false_eq_true])
      | some t =>
          rw [Option.map_some, Option.map_some, Option.some.injEq] at h
          rw [hashedSecret, hashedSecret, h]

/-- Both ends include a secret from outside, or neither does. -/
theorem hashedSecret_outside {h : Hash} {r : Bool} {u v : SharedSecret} {l : List Octets}
    (hfree : CollisionFree h l) (hu : u.value ∈ l) (hv : v.value ∈ l) :
    hashedSecret (if (attachSecret h v (!r)).id = (attachSecret h u r).peerId
        then some (attachSecret h u r) else none) =
      hashedSecret (if (attachSecret h u r).id = (attachSecret h v (!r)).peerId
        then some (attachSecret h v (!r)) else none) := by
  simp only [attachSecret, Bool.not_not]
  by_cases heq : u.value = v.value
  · rw [heq, if_pos rfl, if_pos rfl]
    exact hashedSecret_congr (by simp only [Option.map_some, heq])
  · rw [if_neg (fun hid => heq (hfree (!r) _ hv _ hu hid).symm),
      if_neg (fun hid => heq (hfree r _ hu _ hv hid))]

/-- If both ends select the same `s1`, they derive the same new secret. -/
theorem derived_agrees {h : Hash} {a : Agreed} {r : Bool} {sec sec' : Secrets} {l : List Octets}
    (hfree : CollisionFree h l) (haux : sec.auxs.value ∈ l) (haux' : sec'.auxs.value ∈ l)
    (hpbx : sec.pbxs.value ∈ l) (hpbx' : sec'.pbxs.value ∈ l) {m m' : Matching}
    (hm : m = matchSecrets sec (protocolInit h sec r) (prepareDhpart (protocolInit h sec' (!r))))
    (hm' : m' = matchSecrets sec' (protocolInit h sec' (!r)) (prepareDhpart (protocolInit h sec r)))
    (hs1 : m.s1Value = m'.s1Value) : derived h a m = derived h a m' := by
  have hs2 : hashedSecret m.s2 = hashedSecret m'.s2 := by
    rw [hm, hm', (matchSecrets_s2_s3 _ _ _).1, (matchSecrets_s2_s3 _ _ _).1]
    exact hashedSecret_outside hfree haux haux'
  have hs3 : hashedSecret m.s3 = hashedSecret m'.s3 := by
    rw [hm, hm', (matchSecrets_s2_s3 _ _ _).2, (matchSecrets_s2_s3 _ _ _).2]
    exact hashedSecret_outside hfree hpbx hpbx'
  rw [derived, derived, deriveS0, deriveS0, hashedSecret_congr hs1, hs2, hs3]

/-- The values of an entry come from the history, and the previous one is not
    newer than the current one. -/
structure InOrder (hist : List Octets) (e : CacheEntry) : Prop where
  curr : e.currCache ∈ hist
  prev : e.prevCache ≠ [] → NoOlder hist e.currCache e.prevCache

/-- The entry, if there is one, is in order. -/
def Recent (hist : List Octets) (entry : Option CacheEntry) : Prop :=
  ∀ e, entry = some e → InOrder hist e

theorem Recent.append {hist : List Octets} {entry : Option CacheEntry} (h : Recent hist entry)
    (l : List Octets) : Recent (hist ++ l) entry := by
  intro e he
  exact ⟨List.mem_append_left l (h e he).curr, fun hprev => ((h e he).prev hprev).append l⟩

/-- The verified flag has no part in the order. -/
theorem Recent.dropVerified {hist : List Octets} {entry : Option CacheEntry}
    (h : Recent hist entry) (m : Matching) (now : Nat) :
    Recent hist (dropVerified m now entry) := by
  unfold Zrtp.dropVerified
  split
  · intro e he
    cases entry with
    | none => exact absurd he (by simp only [Option.map_none, reduceCtorEq, not_false_eq_true])
    | some e' =>
        rw [Option.map_some, Option.some.injEq] at he
        rw [← he]
        exact ⟨(h e' rfl).curr, (h e' rfl).prev⟩
  · exact h

/-- A value that is not older than the current one may be put into the entry. -/
theorem Recent.cachePut {hist : List Octets} {entry : Option CacheEntry} (h : Recent hist entry)
    {rss : SharedSecret} (hmem : rss.value ∈ hist)
    (hnew : ∀ e, entry = some e → NoOlder hist rss.value e.currCache) (now : Nat) :
    Recent hist (some (cachePut entry rss now)) := by
  intro e he
  rw [Option.some.injEq] at he
  rw [← he]
  cases entry with
  | none => exact ⟨hmem, fun hprev => absurd rfl hprev⟩
  | some e' =>
      refine ⟨hmem, fun hprev => ?_⟩
      have hcurr := hnew e' rfl
      simp only [Zrtp.cachePut] at hprev ⊢
      split_ifs at hprev ⊢ with hlen
      · exact hcurr
      · exact hcurr.trans ((h e' rfl).prev hprev)

theorem openSecrets_rs1 (entry : Option CacheEntry) (p : Party) :
    (openSecrets entry p).rs1.value =
      match entry with
      | none => p.randomRs1
      | some e => e.currCache :=
  restore_curr entry (allocSharedSecret p.randomRs1 p.now)

theorem openSecrets_rs2 (entry : Option CacheEntry) (p : Party) :
    (openSecrets entry p).rs2.value = p.randomRs2 ∨
      ∃ e, entry = some e ∧ e.prevCache ≠ [] ∧ (openSecrets entry p).rs2.value = e.prevCache :=
  restore_prev entry (allocSharedSecret p.randomRs2 p.now)

/-- What an end opens a session with comes from the history, or is random. -/
theorem openSecrets_held {hist : List Octets} {entry : Option CacheEntry} (h : Recent hist entry)
    (p : Party) {v : Octets}
    (hv : v ∈ [(openSecrets entry p).rs1.value, (openSecrets entry p).rs2.value]) :
    v ∈ hist ∨ v ∈ [p.randomRs1, p.randomRs2] := by
  simp only [List.mem_cons, List.not_mem_nil, or_false] at hv ⊢
  rcases hv with rfl | rfl
  · rw [openSecrets_rs1]
    cases entry with
    | none => exact Or.inr (Or.inl rfl)
    | some e => exact Or.inl (h e rfl).curr
  · rcases openSecrets_rs2 entry p with hrandom | ⟨e, he, hprev, hvalue⟩
    · exact Or.inr (Or.inr hrandom)
    · rw [hvalue]
      exact Or.inl ((h e he).prev hprev).older

/-- If RS2 comes from the history, RS1 is not older than it. -/
theorem openSecrets_order {hist : List Octets} {entry : Option CacheEntry} (h : Recent hist entry)
    {p : Party} (hrandom : p.randomRs2 ∉ hist) (h2 : (openSecrets entry p).rs2.value ∈ hist) :
    NoOlder hist (openSecrets entry p).rs1.value (openSecrets entry p).rs2.value := by
  rcases openSecrets_rs2 entry p with hvalue | ⟨e, he, hprev, hvalue⟩
  · rw [hvalue] at h2
    exact absurd h2 hrandom
  · rw [hvalue, openSecrets_rs1, he]
    exact (h e he).prev hprev

/-- What an end keeps is in order, in the history with the new secrets. -/
theorem recent_keep {hist l : List Octets} {entry : Option CacheEntry} (hrec : Recent hist entry)
    {h : Hash} {a : Agreed} {m : Matching} {p : Party}
    (hm : m.sec.rs1 = (openSecrets entry p).rs1) (hrandom : p.randomRs1 ∈ l)
    (hvalue : derived h a m ∈ l) (hnew : derived h a m ∉ hist) :
    Recent (hist ++ l) (keep h a m p entry) := by
  have hdropped := (hrec.dropVerified m p.now).append l
  unfold keep updateEntry
  split
  · rename_i hput
    unfold updateSecrets
    by_cases httl : p.cacheTtl > 0
    · -- The new secret: it is newer than all that were there.
      rw [if_pos httl]
      refine hdropped.cachePut (List.mem_append_right hist hvalue) ?_ p.now
      intro e he
      exact NoOlder.of_new (hrec.dropVerified m p.now e he).curr hvalue hnew
    · -- The old RS1 once more. It is the entry's current value, or there is no entry.
      rw [if_neg httl]
      have hrs1 : ({ m.sec.rs1 with ttl := 0 } : SharedSecret).value =
          (openSecrets entry p).rs1.value := by rw [hm]
      cases entry with
      | none =>
          refine hdropped.cachePut ?_ ?_ p.now
          · rw [hrs1, openSecrets_rs1]
            exact List.mem_append_right hist hrandom
          · intro e he
            unfold Zrtp.dropVerified at he
            split at he <;> exact absurd he (by simp only [Option.map_none, reduceCtorEq,
              not_false_eq_true])
      | some e' =>
          have hcurr : (openSecrets (some e') p).rs1.value = e'.currCache :=
            openSecrets_rs1 (some e') p
          refine hdropped.cachePut ?_ ?_ p.now
          · rw [hrs1, hcurr]
            exact List.mem_append_left l (hrec e' rfl).curr
          · intro e he
            have hsame : e.currCache = e'.currCache := by
              unfold Zrtp.dropVerified at he
              split at he <;> (cases he; rfl)
            rw [hrs1, hcurr, hsame]
            exact NoOlder.refl (List.mem_append_left l (hrec e' rfl).curr)
  · exact hdropped

/-- With caches in order both ends choose the same value. Their random secrets
    are no part of it, since the other end does not have them. -/
theorem firstShared_agrees {hist : List Octets} {entry entry' : Option CacheEntry} {p p' : Party}
    (hrec : Recent hist entry) (hrec' : Recent hist entry')
    (hnodup : (hist ++ ([p.randomRs1, p.randomRs2] ++ [p'.randomRs1, p'.randomRs2])).Nodup) :
    firstShared [(openSecrets entry p).rs1.value, (openSecrets entry p).rs2.value]
        [(openSecrets entry' p').rs1.value, (openSecrets entry' p').rs2.value] =
      firstShared [(openSecrets entry' p').rs1.value, (openSecrets entry' p').rs2.value]
        [(openSecrets entry p).rs1.value, (openSecrets entry p).rs2.value] := by
  rw [List.nodup_append] at hnodup
  rcases hnodup with ⟨-, hrandom, hold⟩
  have hapart := (List.nodup_append.mp hrandom).2.2
  have hshared : ∀ v, v ∈ [(openSecrets entry p).rs1.value, (openSecrets entry p).rs2.value] →
      v ∈ [(openSecrets entry' p').rs1.value, (openSecrets entry' p').rs2.value] → v ∈ hist := by
    intro v hv hv'
    rcases openSecrets_held hrec p hv with h | h
    · exact h
    · rcases openSecrets_held hrec' p' hv' with h' | h'
      · exact h'
      · exact absurd rfl (hapart v h v h')
  have hfresh : p.randomRs2 ∉ hist := fun h =>
    hold _ h _ (by simp only [List.mem_append, List.mem_cons, true_or, or_true]) rfl
  have hfresh' : p'.randomRs2 ∉ hist := fun h =>
    hold _ h _ (by simp only [List.mem_append, List.mem_cons, true_or, or_true]) rfl
  have hanti : ∀ v u, NoOlder hist v u → NoOlder hist u v → v = u := fun _ _ => NoOlder.antisymm
  refine Lib.firstShared_pair_comm hanti ?_ ?_
  · intro h2
    exact openSecrets_order hrec hfresh (hshared _ (List.mem_cons_of_mem _ List.mem_cons_self) h2)
  · intro h2
    exact openSecrets_order hrec' hfresh' (hshared _ h2 (List.mem_cons_of_mem _ List.mem_cons_self))

/-- One exchange: both ends select the same `s1`, and both caches stay in
    order. -/
theorem exchange_agrees {h : Hash} {zid zid' : Octets} {hist : List Octets} {s : Caches}
    {x : Exchange} (hrec : Recent hist s.first) (hrec' : Recent hist s.second)
    (hnodup : (hist ++ made h zid zid' s x).Nodup)
    (hfree : CollisionFree h (hist ++ made h zid zid' s x ++ x.outside)) :
    (exchange h zid zid' s x).2.1 = (exchange h zid zid' s x).2.2 ∧
      Recent (hist ++ made h zid zid' s x) (exchange h zid zid' s x).1.first ∧
      Recent (hist ++ made h zid zid' s x) (exchange h zid zid' s x).1.second := by
  have hrandoms : (hist ++ ([x.first.randomRs1, x.first.randomRs2] ++
      [x.second.randomRs1, x.second.randomRs2])).Nodup := by
    refine hnodup.sublist (List.Sublist.append_left ?_ hist)
    exact List.sublist_append_left _ [derived h (x.agreed zid zid') (x.matchingFirst h s)]
  -- Every value the identifiers are made of is covered by the hypothesis.
  have hmem : ∀ v, v ∈ [(openSecrets s.first x.first).rs1.value,
      (openSecrets s.first x.first).rs2.value] ∨ v ∈ [(openSecrets s.second x.second).rs1.value,
      (openSecrets s.second x.second).rs2.value] →
      v ∈ hist ++ made h zid zid' s x ++ x.outside := by
    intro v hv
    have hheld : v ∈ hist ∨ v ∈ made h zid zid' s x := by
      rcases hv with hv | hv
      · rcases openSecrets_held hrec x.first hv with hv | hv
        · exact Or.inl hv
        · right
          simp only [List.mem_cons, List.not_mem_nil, or_false] at hv
          rcases hv with rfl | rfl <;> simp only [made, List.mem_cons, true_or, or_true]
      · rcases openSecrets_held hrec' x.second hv with hv | hv
        · exact Or.inl hv
        · right
          simp only [List.mem_cons, List.not_mem_nil, or_false] at hv
          rcases hv with rfl | rfl <;> simp only [made, List.mem_cons, true_or, or_true]
    exact List.mem_append_left _ (List.mem_append.mpr hheld)
  have houtside : ∀ v ∈ x.outside, v ∈ hist ++ made h zid zid' s x ++ x.outside :=
    fun v hv => List.mem_append_right _ hv
  have h1 := hmem _ (Or.inl List.mem_cons_self)
  have h2 := hmem _ (Or.inl (List.mem_cons_of_mem _ List.mem_cons_self))
  have h1' := hmem _ (Or.inr List.mem_cons_self)
  have h2' := hmem _ (Or.inr (List.mem_cons_of_mem _ List.mem_cons_self))
  have hfirst := matchSecrets_s1 (r := x.firstInitiates) hfree h1 h2 h1' h2'
  have hsecond := matchSecrets_s1 (r := !x.firstInitiates) hfree h1' h2' h1 h2
  have hs1 : (x.matchingFirst h s).s1Value = (x.matchingSecond h s).s1Value := by
    rw [Exchange.matchingFirst, Exchange.matchingSecond, matching, matching, hfirst, hsecond]
    exact firstShared_agrees hrec hrec' hrandoms
  have hsame : derived h (x.agreed zid zid') (x.matchingFirst h s) =
      derived h (x.agreed zid zid') (x.matchingSecond h s) := by
    have haux : (openSecrets s.first x.first).auxs.value ∈ x.outside := List.mem_cons_self
    have haux' : (openSecrets s.second x.second).auxs.value ∈ x.outside :=
      List.mem_cons_of_mem _ List.mem_cons_self
    have hpbx : (openSecrets s.first x.first).pbxs.value ∈ x.outside :=
      List.mem_cons_of_mem _ (List.mem_cons_of_mem _ List.mem_cons_self)
    have hpbx' : (openSecrets s.second x.second).pbxs.value ∈ x.outside :=
      List.mem_cons_of_mem _ (List.mem_cons_of_mem _ (List.mem_cons_of_mem _ List.mem_cons_self))
    refine derived_agrees hfree (houtside _ haux) (houtside _ haux') (houtside _ hpbx)
      (houtside _ hpbx') rfl ?_ hs1
    rw [Exchange.matchingSecond, matching, Bool.not_not]
  have hvalue : derived h (x.agreed zid zid') (x.matchingFirst h s) ∈ made h zid zid' s x := by
    simp only [made, List.mem_cons, true_or, or_true]
  have hnew : derived h (x.agreed zid zid') (x.matchingFirst h s) ∉ hist :=
    fun hold => (List.nodup_append.mp hnodup).2.2 _ hold _ hvalue rfl
  refine ⟨hs1, ?_, ?_⟩
  · exact recent_keep hrec (matchSecrets_rs1 _ _ _) List.mem_cons_self hvalue hnew
  · rw [hsame] at hvalue hnew
    exact recent_keep hrec' (matchSecrets_rs1 _ _ _)
      (List.mem_cons_of_mem _ (List.mem_cons_of_mem _ List.mem_cons_self)) hvalue hnew

/-- In every exchange of a run both ends used the same `s1`. -/
def SameS1 (steps : List (Lib.Step Caches Exchange (Option Octets × Option Octets))) : Prop :=
  ∀ e ∈ steps, e.output.1 = e.output.2

/-- The same along a run that continues a history. -/
theorem run_agrees {h : Hash} {zid zid' : Octets} {hist : List Octets} {s : Caches}
    {xs : List Exchange} (hrec : Recent hist s.first) (hrec' : Recent hist s.second)
    (hnodup : (hist ++ secretsOf h zid zid' s xs).Nodup)
    (hfree : CollisionFree h (hist ++ secretsOf h zid zid' s xs ++ xs.flatMap Exchange.outside)) :
    SameS1 (run (exchange h zid zid') s xs) := by
  induction xs generalizing hist s with
  | nil =>
      intro e he
      exact absurd he List.not_mem_nil
  | cons x xs ih =>
      have hsplit : secretsOf h zid zid' s (x :: xs) =
          made h zid zid' s x ++ secretsOf h zid zid' (exchange h zid zid' s x).1 xs := rfl
      rw [hsplit] at hnodup hfree
      rw [← List.append_assoc] at hnodup
      have hone : CollisionFree h (hist ++ made h zid zid' s x ++ x.outside) := by
        refine hfree.mono fun v hv => ?_
        simp only [List.flatMap_cons, List.mem_append] at hv ⊢
        tauto
      rcases exchange_agrees hrec hrec' (List.nodup_append.mp hnodup).1 hone with
        ⟨hs1, hnext, hnext'⟩
      intro e he
      rcases List.mem_cons.mp he with rfl | he
      · exact hs1
      · refine ih hnext hnext' hnodup (hfree.mono fun v hv => ?_) e he
        simp only [List.flatMap_cons, List.mem_append] at hv ⊢
        tauto

/-- Two ends that have no secrets for each other. -/
def noCaches : Caches := ⟨none, none⟩

/-- In every exchange of every run both ends select the same `s1`, whichever of
    the new secrets each of them kept, provided that all secrets are different
    and identifiers of different secrets too. -/
theorem retained_secret_agrees (h : Hash) (zid zid' : Octets) (xs : List Exchange)
    (hnodup : (secretsOf h zid zid' noCaches xs).Nodup)
    (hfree : CollisionFree h
      (secretsOf h zid zid' noCaches xs ++ xs.flatMap Exchange.outside)) :
    SameS1 (run (exchange h zid zid') noCaches xs) := by
  have hnone : Recent [] none := fun e he => absurd he (by simp only [reduceCtorEq,
    not_false_eq_true])
  exact run_agrees hnone hnone hnodup hfree

/-- An end whose random secrets consist of octets from `n` on. -/
def sampleParty (n : UInt8) (putOk : Bool) : Party :=
  { randomRs1 := List.replicate rsSize n
    randomRs2 := List.replicate rsSize (n + 1)
    auxs := allocSharedSecret (List.replicate rsSize (n + 2)) 0
    pbxs := allocSharedSecret (List.replicate rsSize (n + 3)) 0
    mitm := none
    now := 0
    cacheTtl := 1000
    mitmAlertDetected := false
    putOk := putOk }

/-- Two exchanges, the second one after only the first end kept the new secret,
    and a third one after only the second end did. -/
def sampleExchanges : List Exchange :=
  [{ firstInitiates := true, dhresult := [1], mesHash := [2]
     first := sampleParty 10 true, second := sampleParty 20 true },
    { firstInitiates := false, dhresult := [3], mesHash := [4]
      first := sampleParty 30 true, second := sampleParty 40 false },
    { firstInitiates := true, dhresult := [5], mesHash := [6]
      first := sampleParty 50 false, second := sampleParty 60 true }]

theorem retained_secret_agrees_interrupted :
    SameS1 (run (exchange sampleHash [7] [8]) noCaches sampleExchanges) :=
  retained_secret_agrees sampleHash [7] [8] sampleExchanges (by decide +kernel) (by decide +kernel)

end Zrtp

end CryptoOpal

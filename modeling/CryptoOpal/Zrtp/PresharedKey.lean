import CryptoOpal.Zrtp.Secrets
import Mathlib.Logic.Function.Iterate

/-!
# The Preshared Key of Both Ends

In preshared mode the initiator sends an identifier of the key it computed
from its secrets, and the responder tries the combinations of its own secrets
until one has that identifier. Later the initiator computes the key once more,
for `s0`.

`_zrtp_compute_preshared_key` keeps the length word that goes before each
secret in a static variable, and converts it to network order on every call.
On a little-endian host each call undoes what the call before it did, so the
word that is hashed depends on how many calls the process has made. The two
ends agree exactly if the three calls that matter hash the same word: the
initiator's for the identifier, the one of the responder that should match,
and the initiator's for the key. The first and the last belong to one process;
if no other call comes between them, they never do.

## Main definitions

* `hton32`: `zrtp_hton32`.
* `computePresharedKey`: `_zrtp_compute_preshared_key`.
* `afterCalls`: The static length word after a number of calls.
* `commitKeyId`, `initiatorKey`: The initiator's two calls.
* `tries`, `search`: The combinations that the responder tries.
* `Agrees`: The responder finds the key that the initiator derives.

## Theorems

* `presharedInput_inj`: What is hashed determines word and secrets.
* `search_single`: A search in which one combination can match.
* `preshared_agrees`: Exactly when both ends agree.
-/

namespace CryptoOpal

namespace Zrtp

open Lib (Octets bigEndian ofBigEndian)

/-- `ZRTP_HV_KEY_SIZE`. -/
def hvKeySize : Nat := 8

/-- A `uint32_t` as it lies in memory. -/
def hostOctets (littleEndian : Bool) (v : Nat) : Octets :=
  if littleEndian then (bigEndian 4 v).reverse else bigEndian 4 v

/-- `zrtp_hton32`: the value that lies in memory in network order. -/
def hton32 (littleEndian : Bool) (v : Nat) : Nat :=
  if littleEndian then ofBigEndian (bigEndian 4 v).reverse else v

/-- A secret with its length before it, or the zero length. -/
def lengthPrefixed (word : Octets) : Option Octets → Octets
  | none => bigEndian 4 0
  | some v => word ++ v.take rsSize

/-- What `_zrtp_compute_preshared_key` hashes. -/
def presharedInput (word rs1 : Octets) (auxs pbxs : Option Octets) : Octets :=
  lengthPrefixed word (some rs1) ++ lengthPrefixed word auxs ++ lengthPrefixed word pbxs

/-- The identifier of the key for an input. -/
def presharedKeyId (h : Hash) (input : Octets) : Octets :=
  h.hmacTruncated (h.digest input) (cstring "Prsh") hvKeySize

/-- What a call leaves in the static variable and returns. -/
structure PresharedKey where
  lengthRs : Nat
  key : Octets
  keyId : Octets
  deriving DecidableEq

/-- `_zrtp_compute_preshared_key`, with the static `length_rs` before the
    call. -/
def computePresharedKey (h : Hash) (littleEndian : Bool) (lengthRs : Nat) (rs1 : Octets)
    (auxs pbxs : Option Octets) : PresharedKey :=
  let lengthRs' := hton32 littleEndian lengthRs
  let input := presharedInput (hostOctets littleEndian lengthRs') rs1 auxs pbxs
  { lengthRs := lengthRs', key := h.digest input, keyId := presharedKeyId h input }

/-- The static variable after a number of calls in the process. -/
def afterCalls (littleEndian : Bool) (n : Nat) : Nat := (hton32 littleEndian)^[n] rsSize

/-- The length word that is hashed after a number of earlier calls. -/
def wordAfter (littleEndian : Bool) (n : Nat) : Octets :=
  hostOctets littleEndian (afterCalls littleEndian (n + 1))

/-- The auxiliary secret, if there is one. -/
def Secrets.usedAuxs (sec : Secrets) : Option Octets :=
  if sec.auxs.cachedflag then some sec.auxs.value else none

/-- The PBX secret, if there is one. -/
def Secrets.usedPbxs (sec : Secrets) : Option Octets :=
  if sec.pbxs.cachedflag then some sec.pbxs.value else none

/-- The key identifier in the initiator's preshared commit. -/
def commitKeyId (h : Hash) (littleEndian : Bool) (lengthRs : Nat) (sec : Secrets) : Octets :=
  (computePresharedKey h littleEndian lengthRs sec.rs1.value sec.usedAuxs sec.usedPbxs).keyId

/-- The key from which the initiator derives `s0`. -/
def initiatorKey (h : Hash) (littleEndian : Bool) (lengthRs : Nat) (sec : Secrets) : Octets :=
  (computePresharedKey h littleEndian lengthRs sec.rs1.value sec.usedAuxs sec.usedPbxs).key

/-- A combination of secrets, and the bits that a match of it sets. -/
structure Try where
  auxs : Option Octets
  pbxs : Option Octets
  bits : SecretBits
  deriving DecidableEq

/-- The combinations of the responder: `<RS1, 0, 0>`, `<RS1, 0, PBX>`,
    `<RS1, AUX, 0>`, `<RS1, AUX, PBX>`. -/
def tries (sec : Secrets) : List Try :=
  { auxs := none, pbxs := none, bits := { sec.matched with rs1 := true } } ::
    ((if sec.pbxs.cachedflag then
        [{ auxs := none, pbxs := some sec.pbxs.value, bits := { sec.matched with pbx := true } }]
      else []) ++
    ((if sec.auxs.cachedflag then
        [{ auxs := some sec.auxs.value, pbxs := none, bits := { sec.matched with aux := true } }]
      else []) ++
    (if sec.pbxs.cachedflag && sec.auxs.cachedflag then
        [{ auxs := some sec.auxs.value, pbxs := some sec.pbxs.value
           bits := { sec.matched with aux := true, pbx := true } }]
      else [])))

/-- A matched key, and the bits of the secrets in it. -/
structure Found where
  key : Octets
  bits : SecretBits
  deriving DecidableEq

/-- The responder's calls, up to the first one with the peer's identifier. -/
def search (h : Hash) (littleEndian : Bool) (rs1 peerKeyId : Octets) :
    Nat → List Try → Nat × Option Found
  | lengthRs, [] => (lengthRs, none)
  | lengthRs, t :: ts =>
    let r := computePresharedKey h littleEndian lengthRs rs1 t.auxs t.pbxs
    if r.keyId = peerKeyId then (r.lengthRs, some { key := r.key, bits := t.bits })
    else search h littleEndian rs1 peerKeyId r.lengthRs ts

/-- The responder's secrets after the search. Without a match it forgets what
    it has and starts a DH exchange. -/
def afterSearch (sec : Secrets) : Option Found → Secrets
  | some found => { sec with matched := found.bits }
  | none => { sec with cached := .none, rs1 := { sec.rs1 with cachedflag := false } }

/-- `s0` of a preshared stream. -/
def presharedS0 (h : Hash) (key kdfContext : Octets) : Octets :=
  kdf h key (cstring "ZRTP PSK") kdfContext h.digestLength

/-- With `n` earlier calls in the initiator's process, `between` others after
    the commit, and `m` earlier calls in the responder's process, the responder
    finds a key, and it is the initiator's. -/
def Agrees (h : Hash) (littleEndian : Bool) (mine theirs : Secrets) (n between m : Nat) : Prop :=
  ∃ found,
    (search h littleEndian theirs.rs1.value
        (commitKeyId h littleEndian (afterCalls littleEndian n) mine)
        (afterCalls littleEndian m) (tries theirs)).2 = some found ∧
      found.key = initiatorKey h littleEndian (afterCalls littleEndian (n + 1 + between)) mine

instance (h : Hash) (littleEndian : Bool) (mine theirs : Secrets) (n between m : Nat) :
    Decidable (Agrees h littleEndian mine theirs n between m) :=
  decidable_of_iff
    ((search h littleEndian theirs.rs1.value
        (commitKeyId h littleEndian (afterCalls littleEndian n) mine)
        (afterCalls littleEndian m) (tries theirs)).2.any fun found =>
      found.key = initiatorKey h littleEndian (afterCalls littleEndian (n + 1 + between)) mine)
    (by simp only [Agrees, Option.any_eq_true, decide_eq_true_eq])

/-- The responder has the secrets that the initiator uses. -/
structure Holds (mine theirs : Secrets) : Prop where
  rs1 : theirs.rs1.value = mine.rs1.value
  auxs : mine.auxs.cachedflag = true →
    theirs.auxs.cachedflag = true ∧ theirs.auxs.value = mine.auxs.value
  pbxs : mine.pbxs.cachedflag = true →
    theirs.pbxs.cachedflag = true ∧ theirs.pbxs.value = mine.pbxs.value

/-- How many combinations the responder tries before the initiator's. -/
def triesBefore (mine theirs : Secrets) : Nat :=
  match mine.auxs.cachedflag, mine.pbxs.cachedflag with
  | false, false => 0
  | false, true => 1
  | true, false => if theirs.pbxs.cachedflag then 2 else 1
  | true, true => 3

/-- The inputs that the combinations of an end can have. -/
def presharedInputs (littleEndian : Bool) (sec : Secrets) : List Octets :=
  [wordAfter littleEndian 0, wordAfter littleEndian 1].flatMap fun word =>
    [none, sec.usedAuxs].flatMap fun auxs =>
      [none, sec.usedPbxs].map fun pbxs => presharedInput word sec.rs1.value auxs pbxs

/-- The identifier of a key determines what was hashed for the key. -/
def KeyIdsDiffer (h : Hash) (littleEndian : Bool) (sec : Secrets) : Prop :=
  ∀ u ∈ presharedInputs littleEndian sec, ∀ v ∈ presharedInputs littleEndian sec,
    presharedKeyId h u = presharedKeyId h v → u = v

instance (h : Hash) (littleEndian : Bool) (sec : Secrets) :
    Decidable (KeyIdsDiffer h littleEndian sec) :=
  inferInstanceAs (Decidable (∀ u ∈ presharedInputs littleEndian sec,
    ∀ v ∈ presharedInputs littleEndian sec, presharedKeyId h u = presharedKeyId h v → u = v))

theorem afterCalls_succ (littleEndian : Bool) (n : Nat) :
    afterCalls littleEndian (n + 1) = hton32 littleEndian (afterCalls littleEndian n) :=
  Function.iterate_succ_apply' (hton32 littleEndian) n rsSize

/-- Every call moves the static variable on, whatever it computes. -/
theorem lengthRs_afterCalls (h : Hash) (littleEndian : Bool) (n : Nat) (rs1 : Octets)
    (auxs pbxs : Option Octets) :
    (computePresharedKey h littleEndian (afterCalls littleEndian n) rs1 auxs pbxs).lengthRs =
      afterCalls littleEndian (n + 1) := by
  rw [afterCalls_succ]
  rfl

theorem keyId_afterCalls (h : Hash) (littleEndian : Bool) (n : Nat) (rs1 : Octets)
    (auxs pbxs : Option Octets) :
    (computePresharedKey h littleEndian (afterCalls littleEndian n) rs1 auxs pbxs).keyId =
      presharedKeyId h (presharedInput (wordAfter littleEndian n) rs1 auxs pbxs) := by
  rw [wordAfter, afterCalls_succ]
  rfl

theorem key_afterCalls (h : Hash) (littleEndian : Bool) (n : Nat) (rs1 : Octets)
    (auxs pbxs : Option Octets) :
    (computePresharedKey h littleEndian (afterCalls littleEndian n) rs1 auxs pbxs).key =
      h.digest (presharedInput (wordAfter littleEndian n) rs1 auxs pbxs) := by
  rw [wordAfter, afterCalls_succ]
  rfl

/-- On a little-endian host two calls leave the variable as it was. -/
theorem afterCalls_add_two (littleEndian : Bool) (n : Nat) :
    afterCalls littleEndian (n + 2) = afterCalls littleEndian n := by
  have htwice : hton32 littleEndian (hton32 littleEndian rsSize) = rsSize := by
    cases littleEndian <;> decide
  rw [afterCalls, afterCalls, Function.iterate_add_apply]
  congr 1

theorem wordAfter_mod (littleEndian : Bool) (n : Nat) :
    wordAfter littleEndian n = wordAfter littleEndian (n % 2) := by
  induction n using Nat.strong_induction_on with
  | _ n ih =>
      match n with
      | 0 => rfl
      | 1 => rfl
      | k + 2 =>
          have hstep : wordAfter littleEndian (k + 2) = wordAfter littleEndian k := by
            rw [wordAfter, wordAfter, Nat.add_right_comm, afterCalls_add_two]
          rw [hstep, ih k (by omega), Nat.add_mod_right]

/-- The word is the same on a big-endian host, or after the same number of
    calls up to even numbers. -/
theorem wordAfter_eq_iff (littleEndian : Bool) (n m : Nat) :
    wordAfter littleEndian n = wordAfter littleEndian m ↔ littleEndian = false ∨ n % 2 = m % 2 := by
  rw [wordAfter_mod, wordAfter_mod littleEndian m]
  rcases Nat.mod_two_eq_zero_or_one n with hn | hn <;>
    rcases Nat.mod_two_eq_zero_or_one m with hm | hm <;>
    rw [hn, hm] <;> cases littleEndian <;> decide

/-- The word is four octets, not all of them zero. -/
theorem wordAfter_ne_zero (littleEndian : Bool) (n : Nat) :
    (wordAfter littleEndian n).length = 4 ∧ wordAfter littleEndian n ≠ bigEndian 4 0 := by
  rw [wordAfter_mod]
  rcases Nat.mod_two_eq_zero_or_one n with hn | hn <;> rw [hn] <;> cases littleEndian <;> decide

/-- A secret that is there is told from one that is not by the length. -/
theorem lengthPrefixed_append_inj {word x y : Octets} {used s t : Option Octets}
    (hlen : word.length = 4) (hne : word ≠ bigEndian 4 0) (hs : s = none ∨ s = used)
    (ht : t = none ∨ t = used) (h : lengthPrefixed word s ++ x = lengthPrefixed word t ++ y) :
    s = t ∧ x = y := by
  have hzero : (bigEndian 4 0).length = 4 := rfl
  have hcancel : s = t → s = t ∧ x = y := by
    intro hst
    rw [hst] at h
    exact ⟨hst, List.append_cancel_left h⟩
  cases hused : used with
  | none =>
      rw [hused, or_self] at hs ht
      exact hcancel (hs.trans ht.symm)
  | some v =>
      rw [hused] at hs ht
      rcases hs with hs | hs <;> rcases ht with ht | ht
      · exact hcancel (hs.trans ht.symm)
      · rw [hs, ht, lengthPrefixed, lengthPrefixed, List.append_assoc] at h
        exact absurd (List.append_inj_left h (by rw [hzero, hlen])).symm hne
      · rw [hs, ht, lengthPrefixed, lengthPrefixed, List.append_assoc] at h
        exact absurd (List.append_inj_left h (by rw [hzero, hlen])) hne
      · exact hcancel (hs.trans ht.symm)

/-- What is hashed determines the word, and which of the secrets are there. -/
theorem presharedInput_inj {littleEndian : Bool} {n m : Nat} {rs1 : Octets}
    {auxs pbxs a a' p p' : Option Octets} (ha : a = none ∨ a = auxs) (ha' : a' = none ∨ a' = auxs)
    (hp : p = none ∨ p = pbxs) (hp' : p' = none ∨ p' = pbxs)
    (h : presharedInput (wordAfter littleEndian n) rs1 a p =
      presharedInput (wordAfter littleEndian m) rs1 a' p') :
    wordAfter littleEndian n = wordAfter littleEndian m ∧ a = a' ∧ p = p' := by
  rcases wordAfter_ne_zero littleEndian n with ⟨hlen, hne⟩
  have hword : wordAfter littleEndian n = wordAfter littleEndian m := by
    simp only [presharedInput, lengthPrefixed, List.append_assoc] at h
    exact List.append_inj_left h (by rw [hlen, (wordAfter_ne_zero littleEndian m).1])
  rw [presharedInput, presharedInput, ← hword, List.append_assoc, List.append_assoc] at h
  have hrest := List.append_cancel_left h
  rcases lengthPrefixed_append_inj hlen hne ha ha' hrest with ⟨haa, hrest⟩
  have hlast : lengthPrefixed (wordAfter littleEndian n) p ++ [] =
      lengthPrefixed (wordAfter littleEndian n) p' ++ [] := by rw [hrest]
  exact ⟨hword, haa, (lengthPrefixed_append_inj hlen hne hp hp' hlast).1⟩

/-- The inputs of the combinations are covered by the list. -/
theorem mem_presharedInputs {littleEndian : Bool} {sec : Secrets} (n : Nat) {a p : Option Octets}
    (ha : a = none ∨ a = sec.usedAuxs) (hp : p = none ∨ p = sec.usedPbxs) :
    presharedInput (wordAfter littleEndian n) sec.rs1.value a p ∈
      presharedInputs littleEndian sec := by
  have hword : wordAfter littleEndian n ∈ [wordAfter littleEndian 0, wordAfter littleEndian 1] := by
    rw [wordAfter_mod littleEndian n]
    rcases Nat.mod_two_eq_zero_or_one n with hn | hn <;> rw [hn]
    · exact List.mem_cons_self
    · exact List.mem_cons_of_mem _ List.mem_cons_self
  have ha' : a ∈ [none, sec.usedAuxs] := by
    simpa only [List.mem_cons, List.not_mem_nil, or_false] using ha
  have hp' : p ∈ [none, sec.usedPbxs] := by
    simpa only [List.mem_cons, List.not_mem_nil, or_false] using hp
  refine List.mem_flatMap.mpr ⟨_, hword, List.mem_flatMap.mpr ⟨a, ha', ?_⟩⟩
  exact List.mem_map.mpr ⟨p, hp', rfl⟩

/-- Combinations that do not match are passed over, one call each. -/
theorem search_pass {h : Hash} {littleEndian : Bool} {rs1 peerKeyId : Octets} {pre ts : List Try}
    {m : Nat}
    (hpre : ∀ t ∈ pre, ∀ k,
      presharedKeyId h (presharedInput (wordAfter littleEndian k) rs1 t.auxs t.pbxs) ≠ peerKeyId) :
    search h littleEndian rs1 peerKeyId (afterCalls littleEndian m) (pre ++ ts) =
      search h littleEndian rs1 peerKeyId (afterCalls littleEndian (m + pre.length)) ts := by
  induction pre generalizing m with
  | nil => rfl
  | cons t pre ih =>
      have hmiss := hpre t List.mem_cons_self m
      rw [List.cons_append, search, keyId_afterCalls, lengthRs_afterCalls, if_neg hmiss,
        ih (fun u hu => hpre u (List.mem_cons_of_mem t hu)), List.length_cons, Nat.add_right_comm,
        Nat.add_assoc]

/-- Where one combination alone can match, it is found exactly if it does at
    its turn. -/
theorem search_single {h : Hash} {littleEndian : Bool} {rs1 peerKeyId : Octets}
    {pre post : List Try} {t : Try} {m : Nat}
    (hpre : ∀ u ∈ pre, ∀ k,
      presharedKeyId h (presharedInput (wordAfter littleEndian k) rs1 u.auxs u.pbxs) ≠ peerKeyId)
    (hpost : ∀ u ∈ post, ∀ k,
      presharedKeyId h (presharedInput (wordAfter littleEndian k) rs1 u.auxs u.pbxs) ≠ peerKeyId) :
    (search h littleEndian rs1 peerKeyId (afterCalls littleEndian m) (pre ++ t :: post)).2 =
      if presharedKeyId h (presharedInput (wordAfter littleEndian (m + pre.length)) rs1
          t.auxs t.pbxs) = peerKeyId then
        some { key := h.digest (presharedInput (wordAfter littleEndian (m + pre.length)) rs1
                t.auxs t.pbxs), bits := t.bits }
      else none := by
  rw [search_pass hpre, search, keyId_afterCalls, key_afterCalls, lengthRs_afterCalls]
  split
  · rfl
  · have hnone := @search_pass h littleEndian rs1 peerKeyId post [] (m + pre.length + 1) hpost
    rw [List.append_nil] at hnone
    rw [hnone]
    rfl

/-- The responder only combines secrets it has. -/
theorem tries_used {sec : Secrets} {t : Try} (ht : t ∈ tries sec) :
    (t.auxs = none ∨ t.auxs = sec.usedAuxs) ∧ (t.pbxs = none ∨ t.pbxs = sec.usedPbxs) := by
  unfold tries at ht
  unfold Secrets.usedAuxs Secrets.usedPbxs
  cases ha : sec.auxs.cachedflag <;> cases hp : sec.pbxs.cachedflag <;>
    simp only [ha, hp, Bool.false_eq_true, if_false, if_true, Bool.and_self, Bool.and_false,
      Bool.false_and, List.append_nil, List.nil_append, List.cons_append, List.mem_cons,
      List.not_mem_nil, or_false] at ht ⊢ <;>
    rcases ht with rfl | rfl | rfl | rfl <;>
    simp only [true_or, or_true, and_self]

/-- The initiator's combination is tried once, after `triesBefore` others. -/
theorem tries_split {mine theirs : Secrets} (hholds : Holds mine theirs) :
    ∃ pre t post, tries theirs = pre ++ t :: post ∧ pre.length = triesBefore mine theirs ∧
      t.auxs = mine.usedAuxs ∧ t.pbxs = mine.usedPbxs ∧
      ∀ u ∈ pre ++ post, ¬ (u.auxs = mine.usedAuxs ∧ u.pbxs = mine.usedPbxs) := by
  unfold tries triesBefore Secrets.usedAuxs Secrets.usedPbxs
  cases hma : mine.auxs.cachedflag with
  | false =>
      cases hmp : mine.pbxs.cachedflag with
      | false =>
          refine ⟨[], _, _, rfl, rfl, rfl, rfl, ?_⟩
          cases theirs.auxs.cachedflag <;> cases theirs.pbxs.cachedflag <;> simp
      | true =>
          rcases hholds.pbxs hmp with ⟨htp, hvalue⟩
          rw [htp, ← hvalue]
          refine ⟨[_], _, _, rfl, rfl, rfl, rfl, ?_⟩
          cases theirs.auxs.cachedflag <;> simp
  | true =>
      rcases hholds.auxs hma with ⟨hta, hvalue⟩
      rw [hta, ← hvalue]
      cases hmp : mine.pbxs.cachedflag with
      | false =>
          cases theirs.pbxs.cachedflag with
          | false => exact ⟨[_], _, _, rfl, rfl, rfl, rfl, by simp⟩
          | true => exact ⟨[_, _], _, _, rfl, rfl, rfl, rfl, by simp⟩
      | true =>
          rcases hholds.pbxs hmp with ⟨htp, hvalue'⟩
          rw [htp, ← hvalue']
          exact ⟨[_, _, _], _, _, rfl, rfl, rfl, rfl, by simp⟩

/-- Both ends agree if and only if the host is big-endian, or the numbers of
    calls before the three calls that matter are equal up to even numbers. -/
theorem preshared_agrees (h : Hash) (littleEndian : Bool) (mine theirs : Secrets)
    (n between m : Nat) (hholds : Holds mine theirs) (hdiffer : KeyIdsDiffer h littleEndian theirs) :
    Agrees h littleEndian mine theirs n between m ↔
      littleEndian = false ∨
        ((m + triesBefore mine theirs) % 2 = n % 2 ∧ (n + 1 + between) % 2 = n % 2) := by
  rcases tries_split hholds with ⟨pre, t, post, hsplit, hlen, hauxs, hpbxs, hother⟩
  have hused : ∀ u, u ∈ pre ++ post ∨ u = t → u ∈ tries theirs := by
    intro u hu
    rw [hsplit, List.mem_append, List.mem_cons]
    rcases hu with hu | rfl
    · rcases List.mem_append.mp hu with hu | hu
      · exact Or.inl hu
      · exact Or.inr (Or.inr hu)
    · exact Or.inr (Or.inl rfl)
  rcases tries_used (hused t (Or.inr rfl)) with ⟨hta, htp⟩
  -- Equal identifiers come from equal words and equal combinations.
  have hsame : ∀ u, u ∈ tries theirs → ∀ k l,
      presharedKeyId h (presharedInput (wordAfter littleEndian k) theirs.rs1.value u.auxs u.pbxs) =
        presharedKeyId h (presharedInput (wordAfter littleEndian l) theirs.rs1.value t.auxs t.pbxs) →
      wordAfter littleEndian k = wordAfter littleEndian l ∧ u.auxs = t.auxs ∧ u.pbxs = t.pbxs := by
    intro u hu k l hid
    rcases tries_used hu with ⟨hua, hup⟩
    exact presharedInput_inj hua hta hup htp
      (hdiffer _ (mem_presharedInputs k hua hup) _ (mem_presharedInputs l hta htp) hid)
  have hcommit : commitKeyId h littleEndian (afterCalls littleEndian n) mine =
      presharedKeyId h
        (presharedInput (wordAfter littleEndian n) theirs.rs1.value t.auxs t.pbxs) := by
    rw [commitKeyId, keyId_afterCalls, hholds.rs1, hauxs, hpbxs]
  have hkey : initiatorKey h littleEndian (afterCalls littleEndian (n + 1 + between)) mine =
      h.digest (presharedInput (wordAfter littleEndian (n + 1 + between)) theirs.rs1.value
        t.auxs t.pbxs) := by
    rw [initiatorKey, key_afterCalls, hholds.rs1, hauxs, hpbxs]
  have hmiss : ∀ u ∈ pre ++ post, ∀ k,
      presharedKeyId h (presharedInput (wordAfter littleEndian k) theirs.rs1.value u.auxs u.pbxs) ≠
        commitKeyId h littleEndian (afterCalls littleEndian n) mine := by
    intro u hu k hid
    rw [hcommit] at hid
    rcases hsame u (hused u (Or.inl hu)) k n hid with ⟨-, hua, hup⟩
    exact hother u hu ⟨hua.trans hauxs, hup.trans hpbxs⟩
  have hwords : (littleEndian = false ∨
      ((m + triesBefore mine theirs) % 2 = n % 2 ∧ (n + 1 + between) % 2 = n % 2)) ↔
      wordAfter littleEndian (m + triesBefore mine theirs) = wordAfter littleEndian n ∧
        wordAfter littleEndian (n + 1 + between) = wordAfter littleEndian n := by
    rw [wordAfter_eq_iff, wordAfter_eq_iff, or_and_left]
  rw [Agrees, hsplit, search_single (fun u hu => hmiss u (List.mem_append_left post hu))
    (fun u hu => hmiss u (List.mem_append_right pre hu)), hlen, hcommit, hkey, hwords]
  constructor
  · rintro ⟨found, hfound, hfoundkey⟩
    split at hfound
    · rename_i hid
      rw [Option.some.injEq] at hfound
      rw [← hfound] at hfoundkey
      have hturn := (hsame t (hused t (Or.inr rfl)) _ _ hid).1
      -- The key determines its identifier, and that determines the word.
      have hkeyid := congrArg (fun key => h.hmacTruncated key (cstring "Prsh") hvKeySize) hfoundkey
      exact ⟨hturn, (hsame t (hused t (Or.inr rfl)) _ _ hkeyid).1.symm.trans hturn⟩
    · exact absurd hfound (by simp only [reduceCtorEq, not_false_eq_true])
  · rintro ⟨hturn, hlater⟩
    rw [hturn, hlater, if_pos rfl]
    exact ⟨_, rfl, rfl⟩

/-- Secrets for examples: RS1 alone. -/
def sampleSecrets : Secrets :=
  { rs1 := { allocSharedSecret (List.replicate rsSize 1) 0 with cachedflag := true }
    rs2 := allocSharedSecret (List.replicate rsSize 2) 0
    auxs := allocSharedSecret (List.replicate rsSize 3) 0
    pbxs := allocSharedSecret (List.replicate rsSize 4) 0
    cached := { SecretBits.none with rs1 := true }
    matched := .none }

theorem sampleSecrets_holds : Holds sampleSecrets sampleSecrets where
  rs1 := rfl
  auxs := fun h => ⟨h, rfl⟩
  pbxs := fun h => ⟨h, rfl⟩

theorem preshared_agrees_interleaved : Agrees sampleHash true sampleSecrets sampleSecrets 0 1 0 :=
  (preshared_agrees sampleHash true sampleSecrets sampleSecrets 0 1 0 sampleSecrets_holds
    (by decide +kernel)).mpr (by decide)

/-- The first preshared exchange of both processes, on little-endian hosts. -/
theorem preshared_disagrees :
    Holds sampleSecrets sampleSecrets ∧ KeyIdsDiffer sampleHash true sampleSecrets ∧
      ¬ Agrees sampleHash true sampleSecrets sampleSecrets 0 0 0 :=
  ⟨sampleSecrets_holds, by decide +kernel, by decide +kernel⟩

end Zrtp

end CryptoOpal

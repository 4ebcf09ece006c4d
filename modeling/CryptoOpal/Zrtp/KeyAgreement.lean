import CryptoOpal.Zrtp.MessageAccess
import CryptoOpal.Zrtp.Secrets

/-!
# The Choice of a Key Agreement

A Hello lists the components of a profile by their names, one group behind the
other. Who receives it chooses a component of each group. For the key agreement
it looks for two: the first one of the other side that it has itself, and the
first one of its own that the other side has. The smaller one is chosen, which
is the faster one.

Both sides find the same two, each the other way round (`choosePkt_eq`). So they
choose the same without another message.

## Main definitions

* `compId2type`, `compType2id`: The names of the components.
* `Hello`, `attachHello`: The component block of a Hello, and the one of a profile.
* `chooseBestComp`: `_zrtp_choose_best_comp`.
* `Endorsed`: A profile that `zrtp_profile_check` lets pass.

## Theorems

* `helloIds_attachHello`: The key agreements of a Hello are those of the profile.
* `choosePkt_eq`: The choice, in terms of the two profiles.
* `keyAgreement_symmetric`: Both sides choose the same, and one that both have.
-/

namespace CryptoOpal

namespace Zrtp

open Lib (Octets slice)
open Messages (CompClass)

/-- `ZRTP_COMP_TYPE_SIZE`. -/
def compTypeSize : Nat := 4

/-- `zrtp_comp_id2type`. -/
def compId2type : CompClass → Nat → Octets
  | .hash, 1 => cstring "S256"
  | .hash, 2 => cstring "S384"
  | .sas, 1 => cstring "B32 "
  | .sas, 2 => cstring "B256"
  | .cipher, 1 => cstring "AES1"
  | .cipher, 2 => cstring "AES3"
  | .publicKey, 1 => cstring "Prsh"
  | .publicKey, 2 => cstring "Mult"
  | .publicKey, 3 => cstring "DH2k"
  | .publicKey, 4 => cstring "EC25"
  | .publicKey, 5 => cstring "DH3k"
  | .publicKey, 6 => cstring "EC38"
  | .publicKey, 7 => cstring "EC52"
  | .authTagLength, 1 => cstring "HS32"
  | .authTagLength, 2 => cstring "HS80"
  | _, _ => cstring "Unkn"

/-- `zrtp_comp_type2id`. -/
def compType2id (type : CompClass) (name : Octets) : Nat :=
  match type with
  | .hash => if name = cstring "S256" then 1 else if name = cstring "S384" then 2 else 0
  | .sas => if name = cstring "B32 " then 1 else if name = cstring "B256" then 2 else 0
  | .cipher => if name = cstring "AES1" then 1 else if name = cstring "AES3" then 2 else 0
  | .publicKey =>
    if name = cstring "Prsh" then 1
    else if name = cstring "Mult" then 2
    else if name = cstring "DH3k" then 5
    else if name = cstring "DH2k" then 3
    else if name = cstring "EC25" then 4
    else if name = cstring "EC38" then 6
    else if name = cstring "EC52" then 7
    else 0
  | .authTagLength => if name = cstring "HS32" then 1 else if name = cstring "HS80" then 2 else 0

/-- The components of a list, which ends with a zero. -/
def components (list : List Nat) : List Nat := list.takeWhile (· != 0)

/-- The component block of `zrtp_packet_Hello_t`, and how many components each group has. -/
structure Hello where
  hc : Nat
  cc : Nat
  ac : Nat
  kc : Nat
  sc : Nat
  comp : Octets
  deriving DecidableEq

/-- The names of a group, in `zrtp_stream_attach`. -/
def names (type : CompClass) (list : List Nat) : Octets :=
  (components list).flatMap (compId2type type)

/-- The Hello that `zrtp_stream_attach` prepares. -/
def attachHello (profile : Profile) : Hello where
  hc := (components profile.hashSchemes).length
  cc := (components profile.cipherTypes).length
  ac := (components profile.authTagLens).length
  kc := (components profile.pkSchemes).length
  sc := (components profile.sasSchemes).length
  comp := names .hash profile.hashSchemes ++ names .cipher profile.cipherTypes ++
    names .authTagLength profile.authTagLens ++ names .publicKey profile.pkSchemes ++
    names .sas profile.sasSchemes

/-- The list of a profile, and where the group begins in a Hello and how many it has. -/
def profElem (profile : Profile) : CompClass → List Nat
  | .hash => profile.hashSchemes
  | .cipher => profile.cipherTypes
  | .authTagLength => profile.authTagLens
  | .publicKey => profile.pkSchemes
  | .sas => profile.sasSchemes

def groupOffset (hello : Hello) : CompClass → Nat
  | .hash => 0
  | .cipher => hello.hc * compTypeSize
  | .authTagLength => (hello.hc + hello.cc) * compTypeSize
  | .publicKey => (hello.hc + hello.cc + hello.ac) * compTypeSize
  | .sas => (hello.hc + hello.cc + hello.ac + hello.kc) * compTypeSize

def groupCount (hello : Hello) : CompClass → Nat
  | .hash => hello.hc
  | .cipher => hello.cc
  | .authTagLength => hello.ac
  | .publicKey => hello.kc
  | .sas => hello.sc

/-- The components of a group, as `cp` goes through the block. -/
def helloIds (hello : Hello) (type : CompClass) : List Nat :=
  (List.range (groupCount hello type)).map fun i =>
    compType2id type (slice hello.comp (groupOffset hello type + compTypeSize * i) compTypeSize)

/-- `ZRTP_MIN`. -/
def zrtpMin (left right : Nat) : Nat := if left < right then left else right

/-- `_zrtp_choose_best_comp`. Both searches of a key agreement stop at the first one that is found,
and so does the only one of another component. -/
def chooseBestComp (profile : Profile) (peerHello : Hello) (type : CompClass) : Nat :=
  let own := components (profElem profile type)
  let peer := helloIds peerHello type
  let pref := (own.find? fun id => id ∈ peer).getD 0
  match type with
  | .publicKey =>
    let prefPeer := (peer.find? fun id => id ∈ own).getD 0
    zrtpMin prefPeer pref
  | _ => pref

/-- A profile whose key agreements `zrtp_profile_check` lets pass: all of them are registered. -/
structure Endorsed where
  profile : Profile
  registered : ∀ id ∈ components profile.pkSchemes, 1 ≤ id ∧ id ≤ 7
  limit : (components profile.pkSchemes).length ≤ 7

/-- The choice of a key agreement, by a side that has received a Hello. -/
def Endorsed.choosePkt (own peer : Endorsed) : Nat :=
  chooseBestComp own.profile (attachHello peer.profile) .publicKey

section Block

/-- A name has four octets. -/
theorem length_compId2type (type : CompClass) (id : Nat) :
    (compId2type type id).length = compTypeSize := by
  unfold compId2type
  split <;> rfl

theorem length_names (type : CompClass) (list : List Nat) :
    (names type list).length = (components list).length * compTypeSize := by
  unfold names
  rw [List.length_flatMap]
  simp only [length_compId2type, List.map_const', List.sum_replicate_nat]

/-- A block of names, cut into names. -/
theorem slice_flatMap (f : Nat → Octets) (hf : ∀ id, (f id).length = compTypeSize)
    (ids : List Nat) (before after : Octets) :
    (List.range ids.length).map (fun i =>
      slice (before ++ ids.flatMap f ++ after) (before.length + compTypeSize * i) compTypeSize) =
      ids.map f := by
  induction ids generalizing before with
  | nil => rfl
  | cons id ids ih =>
      rw [List.length_cons, List.range_succ_eq_map, List.map_cons, List.map_map, List.map_cons]
      congr 1
      · have hslice := Lib.slice_middle before (f id) (ids.flatMap f ++ after)
        rw [hf] at hslice
        rw [List.flatMap_cons, Nat.mul_zero, Nat.add_zero]
        simp only [List.append_assoc] at hslice ⊢
        exact hslice
      · have hrest := ih (before ++ f id)
        rw [List.length_append, hf] at hrest
        rw [← hrest]
        refine List.map_congr_left fun i _ => ?_
        have hoff : before.length + compTypeSize * (i + 1) =
            before.length + compTypeSize + compTypeSize * i := by
          rw [Nat.mul_succ]
          omega
        show slice _ (before.length + compTypeSize * (i + 1)) _ = _
        rw [hoff, List.flatMap_cons]
        simp only [List.append_assoc]

/-- A name that is registered is known by it. -/
theorem compType2id_compId2type {id : Nat} (h : 1 ≤ id ∧ id ≤ 7) :
    compType2id .publicKey (compId2type .publicKey id) = id := by
  have hcases : id = 1 ∨ id = 2 ∨ id = 3 ∨ id = 4 ∨ id = 5 ∨ id = 6 ∨ id = 7 := by omega
  rcases hcases with rfl | rfl | rfl | rfl | rfl | rfl | rfl <;> rfl

/-- The key agreements of a Hello are those of the profile. -/
theorem helloIds_attachHello (p : Endorsed) :
    helloIds (attachHello p.profile) .publicKey = components p.profile.pkSchemes := by
  let before := names .hash p.profile.hashSchemes ++ names .cipher p.profile.cipherTypes ++
    names .authTagLength p.profile.authTagLens
  have hbefore : before.length = groupOffset (attachHello p.profile) .publicKey := by
    simp only [before, List.length_append, length_names, groupOffset, attachHello, Nat.add_mul]
  have hblock := slice_flatMap (compId2type .publicKey) (length_compId2type .publicKey)
    (components p.profile.pkSchemes) before (names .sas p.profile.sasSchemes)
  rw [hbefore] at hblock
  have hids : helloIds (attachHello p.profile) .publicKey =
      ((components p.profile.pkSchemes).map (compId2type .publicKey)).map
        (compType2id .publicKey) := by
    rw [← hblock, List.map_map]
    rfl
  rw [hids, List.map_map]
  refine (List.map_congr_left fun id hid => ?_).trans (List.map_id _)
  exact compType2id_compId2type (p.registered id hid)

end Block

section Choice

variable (own peer : Endorsed)

/-- The choice, in terms of the two profiles. -/
theorem choosePkt_eq : own.choosePkt peer = zrtpMin
    (((components peer.profile.pkSchemes).find? fun id =>
      id ∈ components own.profile.pkSchemes).getD 0)
    (((components own.profile.pkSchemes).find? fun id =>
      id ∈ components peer.profile.pkSchemes).getD 0) := by
  unfold Endorsed.choosePkt chooseBestComp
  rw [helloIds_attachHello]
  rfl

theorem zrtpMin_comm (left right : Nat) : zrtpMin left right = zrtpMin right left := by
  unfold zrtpMin
  split <;> split <;> omega

/-- What is found in one list is in the other one, too. -/
theorem find_shared {mine theirs : List Nat} (h : ∃ id ∈ mine, id ∈ theirs) :
    (mine.find? fun id => id ∈ theirs).getD 0 ∈ mine ∧
      (mine.find? fun id => id ∈ theirs).getD 0 ∈ theirs := by
  rcases h with ⟨id, hmine, htheirs⟩
  cases hfind : mine.find? fun id => id ∈ theirs with
  | none =>
      have hnone := List.find?_eq_none.1 hfind id hmine
      exact absurd (decide_eq_true htheirs) hnone
  | some found =>
      have htheirs' : found ∈ theirs := by simpa using List.find?_some hfind
      exact ⟨List.mem_of_find?_eq_some hfind, htheirs'⟩

/-- Both sides choose the same key agreement, and one that both have. -/
theorem keyAgreement_symmetric : own.choosePkt peer = peer.choosePkt own ∧
    ((∃ id ∈ components own.profile.pkSchemes, id ∈ components peer.profile.pkSchemes) →
      own.choosePkt peer ∈ components own.profile.pkSchemes ∧
        own.choosePkt peer ∈ components peer.profile.pkSchemes) := by
  constructor
  · rw [choosePkt_eq, choosePkt_eq, zrtpMin_comm]
  · intro hshared
    have hshared' : ∃ id ∈ components peer.profile.pkSchemes,
        id ∈ components own.profile.pkSchemes := by
      rcases hshared with ⟨id, hown, hpeer⟩
      exact ⟨id, hpeer, hown⟩
    rw [choosePkt_eq]
    unfold zrtpMin
    split
    · exact (find_shared hshared').symm
    · exact find_shared hshared

end Choice

end Zrtp

end CryptoOpal

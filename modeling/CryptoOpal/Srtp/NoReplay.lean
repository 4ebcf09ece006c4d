import CryptoOpal.Srtp.Calls
import CryptoOpal.Srtp.Ideal

/-!
# No Packet is Accepted Twice

The receiver's replay protection, over runs that set rollover counters and
receive and send packets in any order.

The database works with indices, and a packet only says the low half of its
own. So the statement has a condition on the packet: its tag verifies under
one rollover counter at most (`BindsRoc`). That is what authentication is
for, and what it guarantees as far as tags cannot be forged.

With that, a packet that is accepted twice would be accepted twice under one
index, and a session whose calls are all tracked refuses the second time.
Without it there is a way in. A rollover counter set by the application
takes effect with the next packet that is accepted, but only on the counter
mode path. The AEAD path leaves it pending, so the same packet is far ahead
of its stream again, and for such a packet the replay check is skipped
(`replay_after_jump`).

## Main definitions

* `acceptedPackets`: The packets accepted in a run.
* `BindsRoc`: A packet that verifies under one rollover counter at most.

## Theorems

* `no_replay`: No packet is accepted twice.
* `replay_after_jump`: An AES-GCM packet that is.
-/

namespace CryptoOpal

namespace Srtp

open Lib (Octets bigEndian slice xorOctets)

variable {C A : Type} [CipherType C] [AuthType A]

/-- The packet a step accepted, if it did. -/
def acceptedPacket (x : Lib.Step (Session C A) SessionCall (SessionResult C)) : Option Octets :=
  match x.input, x.output with
  | .unprotect pkt _, .received (.ok _) => some pkt
  | _, _ => none

/-- The packets accepted in a run, in order. -/
def acceptedPackets (s : Session C A) (calls : List SessionCall) : List Octets :=
  Lib.events callStep acceptedPacket s calls

/-- Under all of these keyings, the packet opens with one rollover counter at
    most. -/
def BindsRoc (K : Set (Keying C A)) (pkt : Octets) : Prop :=
  ∀ k ∈ K, ∀ k' ∈ K, ∀ est est', k.OpensAt pkt est → k'.OpensAt pkt est' →
    est / 2 ^ 16 % 2 ^ 32 = est' / 2 ^ 16 % 2 ^ 32

/-- The keying of a packet's SSRC. -/
def keyingOf (s : Session C A) (pkt : Octets) : Set (Keying C A) :=
  {k | s.keyingOn (hdrSsrc pkt) = some k}

/-- A packet opens under an index that it can have. -/
def OpensWith (K : Set (Keying C A)) (pkt : Octets) (est : Nat) : Prop :=
  ∃ k ∈ K, k.OpensAt pkt est ∧ est < 2 ^ 48 ∧ est % 2 ^ 16 = (hdrSeq pkt).toNat

/-- A packet that binds its rollover counter opens with one index at most. -/
theorem index_unique {K : Set (Keying C A)} {pkt : Octets} {est est' : Nat}
    (hbinds : BindsRoc K pkt) (h : OpensWith K pkt est) (h' : OpensWith K pkt est') :
    est = est' := by
  rcases h with ⟨k, hk, hopens, hlt, hlow⟩
  rcases h' with ⟨k', hk', hopens', hlt', hlow'⟩
  have hroc := hbinds k hk k' hk' est est' hopens hopens'
  omega

/-- What a run has accepted so far of one packet, against the session: the
    session remembers an index of the packet if it has been accepted. -/
structure ReplayMemory (K : Set (Keying C A)) (pkt : Octets) (H : List Octets)
    (s : Session C A) : Prop where
  keying : keyingOf s pkt = K
  memory : ∃ indices, s.Remembers (hdrSsrc pkt) 0 indices ∧
    (pkt ∈ H → ∃ est ∈ indices, OpensWith K pkt est)

/-- A step that accepts a packet went by an index that the packet opens with. -/
theorem opensWith_of_accepted {s : Session C A} {call : SessionCall} {pkt : Octets}
    (h : acceptedPacket (Lib.stepAt callStep s call) = some pkt) :
    ∃ useMki est, call = .unprotect pkt useMki ∧
      usedIndex (hdrSsrc pkt) call (callStep s call).2 = some est ∧
      OpensWith (keyingOf s pkt) pkt est := by
  cases call with
  | setStreamRoc ssrc roc =>
      simp only [acceptedPacket, Lib.stepAt, reduceCtorEq] at h
  | protect p useMki mkiIndex =>
      simp only [acceptedPacket, Lib.stepAt, reduceCtorEq] at h
  | unprotect p useMki =>
      simp only [acceptedPacket, Lib.stepAt, callStep] at h
      cases hok : (srtpUnprotectMki s p useMki).2 with
      | error stop => simp only [hok, reduceCtorEq] at h
      | ok u =>
          simp only [hok, Option.some.injEq] at h
          subst h
          refine ⟨useMki, u.est, rfl, ?_, ?_⟩
          · simp only [usedIndex, callStep, received, hok, if_true, Except.toOption,
              Option.map_some]
          · rcases opensAt_of_unprotect hok with ⟨k, hk, hopens, hlt, hlow⟩
            exact ⟨k, hk, hopens, hlt, hlow⟩

theorem keyingOf_call (s : Session C A) (call : SessionCall) (pkt : Octets) :
    keyingOf (callStep s call).1 pkt = keyingOf s pkt := by
  rw [keyingOf, keyingOf, keyingOn_call]

/-- One call keeps what is remembered of the packet. -/
theorem replayMemory_call {K : Set (Keying C A)} {pkt : Octets} (H : List Octets)
    (s : Session C A) (call : SessionCall) (h : ReplayMemory K pkt H s)
    (htracked : s.Tracked call) :
    ReplayMemory K pkt (H ++ (acceptedPacket (Lib.stepAt callStep s call)).toList)
      (callStep s call).1 := by
  rcases h.memory with ⟨indices, hmem, hseen⟩
  refine ⟨by rw [keyingOf_call, h.keying], _, remembers_call hmem htracked, ?_⟩
  intro hin
  rcases List.mem_append.mp hin with hin | hin
  · rcases hseen hin with ⟨est, hest, hopens⟩
    exact ⟨est, List.mem_append_left _ hest, hopens⟩
  · -- The packet has just been accepted, and its index is the one now used.
    rcases opensWith_of_accepted (Option.mem_toList.mp hin) with ⟨useMki, est, -, hused, hopens⟩
    rw [h.keying] at hopens
    exact ⟨est, List.mem_append_right _ (Option.mem_toList.mpr hused), hopens⟩

/-- A packet that has been accepted is not accepted again. -/
theorem refused_again {K : Set (Keying C A)} {pkt : Octets} (hbinds : BindsRoc K pkt)
    (H : List Octets) (s : Session C A) (call : SessionCall) (p : Octets)
    (h : ReplayMemory K pkt H s) (htracked : s.Tracked call)
    (haccepted : acceptedPacket (Lib.stepAt callStep s call) = some p) :
    ∀ p' ∈ H, ¬ (p' = pkt ∧ p = pkt) := by
  rintro p' hin ⟨rfl, rfl⟩
  rcases h.memory with ⟨indices, hmem, hseen⟩
  rcases hseen hin with ⟨est', hest', hopens'⟩
  rcases opensWith_of_accepted haccepted with ⟨useMki, est, rfl, hused, hopens⟩
  rw [h.keying] at hopens
  rw [← index_unique hbinds hopens hopens'] at hest'
  exact fresh_received hmem htracked hused (Nat.zero_le est) hest'

theorem count_le_one_of_pairwise {α : Type} [BEq α] [LawfulBEq α] {l : List α} {a : α}
    (h : l.Pairwise fun x y => ¬ (x = a ∧ y = a)) : l.count a ≤ 1 := by
  by_contra hcount
  have hsub : (List.replicate 2 a).Sublist l := List.replicate_sublist_iff.mpr (by omega)
  have hpair := h.sublist hsub
  simp only [List.replicate_succ, List.replicate_zero, List.pairwise_cons, List.mem_singleton, forall_eq, and_self, not_true_eq_false,
    false_and] at hpair

/-- No replay. In every run whose calls are all tracked, a packet that
    verifies under one rollover counter at most is accepted at most once. -/
theorem no_replay (s : Session C A) (calls : List SessionCall) (pkt : Octets)
    (hbinds : BindsRoc (keyingOf s pkt) pkt)
    (htracked : Lib.Along callStep Session.Tracked s calls) :
    (acceptedPackets s calls).count pkt ≤ 1 := by
  refine count_le_one_of_pairwise ?_
  have hstart : ReplayMemory (keyingOf s pkt) pkt [] s :=
    ⟨rfl, [], remembers_nil s _, fun hin => absurd hin List.not_mem_nil⟩
  exact Lib.events_pairwise (ReplayMemory (keyingOf s pkt) pkt) replayMemory_call
    (refused_again hbinds) [] s calls hstart htracked List.Pairwise.nil

section Samples

variable {id : CipherTypeId} {pkt body : Octets}

theorem roc_of_aeadIv (ssrc : UInt32) (est : Nat) :
    ((aeadIv (List.replicate 12 0) ssrc est ++ List.replicate 12 0).take 10).drop 6 =
      bigEndian 4 (est / 2 ^ 16) := by
  simp only [aeadIv, bigEndian, xorOctets, List.replicate, List.cons_append, List.nil_append,
    List.zipWith_cons_cons, List.zipWith_nil_left, List.take_succ_cons, List.drop_succ_cons,
    UInt8.xor_zero]
  rfl

/-- A packet that opens with the sample's AES-GCM keys ends with its rollover
    counter. -/
theorem roc_of_opens (hgcm : id.isGcm = true) {k : Keying KeystreamCipher FixedAuth} {est : Nat}
    (h : Opens k (sampleKeys id) pkt est 0 body) :
    bigEndian 4 (est / 2 ^ 16) =
      let data := slice pkt (encStart pkt) (sub32 (sub32 pkt.length 0) (encStart pkt))
      data.drop (data.length - 4) := by
  cases h with
  | plain o hplain hopen hdecrypt =>
      rw [show (sampleKeys id).isGcm = id.isGcm from rfl, hgcm] at hplain
      exact absurd hplain (by decide)
  | aead o _ hready hopen =>
      rcases readyAead_eq_ok.mp hready with ⟨cipher, xtn, hivs, -, -, -, -, rfl⟩
      simp only [setAeadIvs, setIvs, sampleKeys, CipherType.setIv, bind, Except.bind,
        Except.ok.injEq, Prod.mk.injEq] at hivs
      simp only [openAead, ← hivs.1, bind_eq_ok, orStop_eq_ok, CipherType.setAad,
        CipherType.decrypt, Except.ok.injEq, exists_eq_left', rocCipher, hgcm, if_true,
        KeystreamCipher.openTag, roc_of_aeadIv] at hopen
      rcases hopen with ⟨a, htag, -⟩
      by_contra hne
      rw [if_neg hne] at htag
      exact absurd htag (by simp only [reduceCtorEq, not_false_eq_true])

/-- The sample's AES-GCM tag binds the rollover counter. -/
theorem bindsRoc_sample (hgcm : id.isGcm = true) {K : Set (Keying KeystreamCipher FixedAuth)}
    (hK : ∀ k ∈ K, k.sessionKeys = [sampleKeys id]) (pkt : Octets) : BindsRoc K pkt := by
  have hopen : ∀ k ∈ K, ∀ est, k.OpensAt pkt est → ∃ body,
      Opens k (sampleKeys id) pkt est 0 body := by
    rintro k hk est ⟨keys, hkeys, mkiSize, body, hmki, hopens⟩
    rw [hK k hk, List.mem_singleton] at hkeys
    subst hkeys
    -- The sample has no MKI, so both lengths an MKI may have are zero.
    obtain rfl : mkiSize = 0 := hmki.elim (fun h => h) (fun h => h)
    exact ⟨body, hopens⟩
  intro k hk k' hk' est est' h h'
  rcases hopen k hk est h with ⟨body, hopens⟩
  rcases hopen k' hk' est' h' with ⟨body', hopens'⟩
  have heq := (roc_of_opens hgcm hopens).trans (roc_of_opens hgcm hopens').symm
  have hdec := congrArg Lib.ofBigEndian heq
  rw [Lib.ofBigEndian_bigEndian, Lib.ofBigEndian_bigEndian] at hdec
  exact hdec

theorem keyingOf_sampleSession (id : CipherTypeId) (pkt : Octets) :
    ∀ k ∈ keyingOf (sampleSession id) pkt, k.sessionKeys = [sampleKeys id] := by
  intro k hk
  simp only [keyingOf, Session.keyingOn, sampleSession, sessionOf, Session.getStream, Lib.findKey,
    sampleStream, streamOf, Set.mem_ofPred_eq] at hk
  split at hk
  · rename_i str hget
    split at hget
    · rw [Option.some.injEq] at hk hget
      rw [← hk, ← hget]
      rfl
    · exact absurd hget (by simp only [reduceCtorEq, not_false_eq_true])
  · exact absurd hk (by simp only [Option.map_none, reduceCtorEq, not_false_eq_true])

/-- An AES-GCM packet that arrives twice is accepted once. -/
theorem no_replay_twice :
    (acceptedPackets (sampleSession .aesGcm128)
      [.unprotect (samplePacket 0 5 [0, 0, 0, 0]) false,
        .unprotect (samplePacket 0 5 [0, 0, 0, 0]) false]).count
      (samplePacket 0 5 [0, 0, 0, 0]) ≤ 1 :=
  no_replay _ _ _ (bindsRoc_sample rfl (keyingOf_sampleSession _ _) _) (by decide +kernel)

/-- After the application has set a rollover counter, the same packet is
    accepted twice. -/
theorem replay_after_jump :
    ¬ ∀ (s : Session KeystreamCipher FixedAuth) (calls : List SessionCall) (pkt : Octets),
      BindsRoc (keyingOf s pkt) pkt → (acceptedPackets s calls).count pkt ≤ 1 := by
  intro h
  have htwice := h (sampleSession .aesGcm128)
    [.setStreamRoc 1 1, .unprotect (samplePacket 0 5 [0, 0, 0, 1]) false,
      .unprotect (samplePacket 0 5 [0, 0, 0, 1]) false] (samplePacket 0 5 [0, 0, 0, 1])
    (bindsRoc_sample rfl (keyingOf_sampleSession _ _) _)
  exact absurd htwice (by decide +kernel)

end Samples

end Srtp

end CryptoOpal

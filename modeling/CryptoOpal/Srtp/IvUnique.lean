import CryptoOpal.Srtp.Calls
import CryptoOpal.Srtp.Ideal

/-!
# The Sender's Initialization Vectors

A counter mode cipher must not see an IV twice under one key. The sender
builds the IV from SSRC and packet index, so for a stream with one key this
comes down to the indices: as long as every call is tracked, no index is
sent twice, and distinct indices have distinct IVs.

An index has 48 bits, and this is where uniqueness ends. The rollover counter
of a guess wraps around in silence, so a stream that has been taken to its
last index goes on with index zero, and with the IV that belongs to it
(`iv_repeats`).

## Main definitions

* `SessionKeys.ivAt`: The IV for an index.
* `sentIvs`: The IVs of the packets sent on an SSRC.

## Theorems

* `iv_of_protect`: The IV of a packet that is sent.
* `iv_unique`: No IV is used twice.
-/

namespace CryptoOpal

namespace Srtp

open Lib (Octets)

variable {C A : Type} [CipherType C]

/-- The IV that a packet with this SSRC and index is encrypted under. -/
def SessionKeys.ivAt (keys : SessionKeys C A) (ssrc : UInt32) (est : Nat) : Octets :=
  if keys.isGcm then aeadIv keys.salt ssrc est
  else rtpIv (CipherType.typeId keys.rtpCipher) ssrc est

/-- The keys are for a counter mode cipher, AES-ICM or AES-GCM. -/
def SessionKeys.isCounterMode (keys : SessionKeys C A) : Bool :=
  (CipherType.typeId keys.rtpCipher).isIcm || keys.isGcm

/-- Distinct indices of one SSRC have distinct IVs under a counter mode key. -/
theorem ivAt_inj {keys : SessionKeys C A} {ssrc : UInt32} {est est' : Nat}
    (hmode : keys.isCounterMode = true) (h : est < 2 ^ 48) (h' : est' < 2 ^ 48)
    (heq : keys.ivAt ssrc est = keys.ivAt ssrc est') : est = est' := by
  unfold SessionKeys.ivAt at heq
  by_cases hgcm : keys.isGcm = true
  · rw [if_pos hgcm, if_pos hgcm] at heq
    exact aeadIv_inj keys.salt_len h h' heq
  · have hicm : (CipherType.typeId keys.rtpCipher).isIcm = true := by
      rw [SessionKeys.isCounterMode, Bool.or_eq_true] at hmode
      exact hmode.resolve_right hgcm
    rw [if_neg hgcm, if_neg hgcm, rtpIv, rtpIv, if_pos hicm, if_pos hicm] at heq
    exact icmIv_inj h h' heq

variable [AuthType A]

/-- The IV of the packet a step sent on an SSRC, if it sent one. -/
def sentIv (ssrc : UInt32) (x : Lib.Step (Session C A) SessionCall (SessionResult C)) :
    Option Octets :=
  match x.input, x.output with
  | .protect pkt _ _, .sent (.ok p) => if hdrSsrc pkt = ssrc then some p.iv else none
  | _, _ => none

/-- The IVs of the packets sent on an SSRC in a run, in order. -/
def sentIvs (s : Session C A) (ssrc : UInt32) (calls : List SessionCall) : List Octets :=
  Lib.events callStep (sentIv ssrc) s calls

theorem iv_sealPacket {keying : Keying C A} {keys : SessionKeys C A} {pkt : Octets}
    {useMki : Bool} {est : Nat} {o : Sealed C}
    (h : sealPacket keying keys pkt useMki est = .ok o) : o.iv = keys.ivAt (hdrSsrc pkt) est := by
  unfold sealPacket at h
  unfold SessionKeys.ivAt
  by_cases hgcm : keys.isGcm = true
  · rw [if_pos hgcm] at h ⊢
    simp only [sealAead, bind_eq_ok, Except.ok.injEq] at h
    rcases h with ⟨ivs, -, extended, -, cipher, -, body, -, tag, -, rfl⟩
    rfl
  · rw [if_neg hgcm] at h ⊢
    simp only [sealPlain, bind_eq_ok, Except.ok.injEq] at h
    rcases h with ⟨ivs, -, pfx, -, extended, -, body, -, tag, -, rfl⟩
    rfl

/-- A packet that is sent goes out under the IV of its index, with keys of its
    stream. -/
theorem iv_of_protect {s : Session C A} {pkt : Octets} {useMki : Bool} {mkiIndex : Nat}
    {p : Protected C} (hrep : s.NoRepeat (hdrSsrc pkt))
    (hok : (srtpProtectMki s pkt useMki mkiIndex).2 = .ok p) :
    p.est < 2 ^ 48 ∧ ∃ keying, s.keyingOn (hdrSsrc pkt) = some keying ∧
      ∃ keys ∈ keying.sessionKeys, p.iv = keys.ivAt (hdrSsrc pkt) p.est := by
  rcases protect_ok hok with ⟨s₁, stream, stream', est, o, hout, -, htake, hseal, rfl, -⟩
  refine ⟨?_, stream.keying, keying_outgoing hout, stream.keysAt useMki mkiIndex, ?_,
    iv_sealPacket hseal⟩
  · unfold Stream.TakesIndex at htake
    by_cases hgcm : (stream.keysAt useMki mkiIndex).isGcm = true
    · rw [if_pos hgcm] at htake
      rw [← (takeIndexAead_checked (allowRepeatTx_outgoing hrep hout) htake).1]
      exact Rdbx.estimateIndex_lt _ _
    · rw [if_neg hgcm] at htake
      rcases takeIndex_admits (allowRepeatTx_outgoing hrep hout) htake with ⟨_, _, hadmits, -⟩
      exact hadmits.est_lt
  · exact stream.keysAt_mem useMki mkiIndex

/-- What a run has sent so far on an SSRC, against the session: every IV is
    that of an index the session remembers. -/
structure IvMemory (keying : Keying C A) (keys : SessionKeys C A) (ssrc : UInt32)
    (H : List Octets) (s : Session C A) : Prop where
  keying : s.keyingOn ssrc = some keying
  memory : ∃ indices, s.Remembers ssrc 0 indices ∧
    ∀ iv ∈ H, ∃ est ∈ indices, est < 2 ^ 48 ∧ iv = keys.ivAt ssrc est

section OneKey

variable {keying : Keying C A} {keys : SessionKeys C A} {ssrc : UInt32}

/-- A step that sends a packet uses the IV of the index it takes. -/
theorem ivAt_of_sent {s : Session C A} {call : SessionCall} {iv : Octets}
    (hkeying : s.keyingOn ssrc = some keying) (hkeys : keying.sessionKeys = [keys])
    (hrep : keying.allowRepeatTx = false)
    (h : sentIv ssrc (Lib.stepAt callStep s call) = some iv) :
    ∃ est, usedIndex ssrc call (callStep s call).2 = some est ∧ est < 2 ^ 48 ∧
      iv = keys.ivAt ssrc est := by
  cases call with
  | setStreamRoc ssrc' roc => simp only [sentIv, Lib.stepAt, reduceCtorEq] at h
  | unprotect pkt useMki => simp only [sentIv, Lib.stepAt, reduceCtorEq] at h
  | protect pkt useMki mkiIndex =>
      simp only [sentIv, Lib.stepAt, callStep] at h
      cases hok : (srtpProtectMki s pkt useMki mkiIndex).2 with
      | error e => simp only [hok, reduceCtorEq] at h
      | ok p =>
          simp only [hok] at h
          by_cases hssrc : hdrSsrc pkt = ssrc
          · subst hssrc
            rw [if_pos rfl, Option.some.injEq] at h
            have hno : s.NoRepeat (hdrSsrc pkt) := by
              intro keying' hk
              rw [hkeying, Option.some.injEq] at hk
              rw [← hk]
              exact hrep
            rcases iv_of_protect hno hok with ⟨hlt, keying', hk, keys', hmem, hiv⟩
            rw [hkeying, Option.some.injEq] at hk
            rw [← hk, hkeys, List.mem_singleton] at hmem
            refine ⟨p.est, ?_, hlt, by rw [← h, hiv, hmem]⟩
            simp only [usedIndex, callStep, sent, hok, if_true, Except.toOption, Option.map_some]
          · rw [if_neg hssrc] at h
            exact absurd h (by simp only [reduceCtorEq, not_false_eq_true])

/-- One call keeps every IV tied to an index that is remembered. -/
theorem ivMemory_call (hkeys : keying.sessionKeys = [keys])
    (hrep : keying.allowRepeatTx = false) (H : List Octets) (s : Session C A)
    (call : SessionCall) (h : IvMemory keying keys ssrc H s) (htracked : s.Tracked call) :
    IvMemory keying keys ssrc (H ++ (sentIv ssrc (Lib.stepAt callStep s call)).toList)
      (callStep s call).1 := by
  rcases h.memory with ⟨indices, hmem, hivs⟩
  refine ⟨by rw [keyingOn_call, h.keying], _, remembers_call hmem htracked, ?_⟩
  intro iv hin
  rcases List.mem_append.mp hin with hin | hin
  · rcases hivs iv hin with ⟨est, hest, hrest⟩
    exact ⟨est, List.mem_append_left _ hest, hrest⟩
  · rcases ivAt_of_sent h.keying hkeys hrep (Option.mem_toList.mp hin) with ⟨est, hused, hrest⟩
    exact ⟨est, List.mem_append_right _ (Option.mem_toList.mpr hused), hrest⟩

/-- The IV of a packet that is sent is none of those used before. -/
theorem iv_fresh (hkeys : keying.sessionKeys = [keys]) (hmode : keys.isCounterMode = true)
    (hrep : keying.allowRepeatTx = false) (H : List Octets) (s : Session C A)
    (call : SessionCall) (iv : Octets) (h : IvMemory keying keys ssrc H s)
    (htracked : s.Tracked call) (hsent : sentIv ssrc (Lib.stepAt callStep s call) = some iv) :
    ∀ iv' ∈ H, iv' ≠ iv := by
  intro iv' hin heq
  rcases h.memory with ⟨indices, hmem, hivs⟩
  rcases hivs iv' hin with ⟨est', hest', hlt', hiv'⟩
  rcases ivAt_of_sent h.keying hkeys hrep hsent with ⟨est, hused, hlt, hiv⟩
  have hsame : est = est' := by
    have hivs : keys.ivAt ssrc est = keys.ivAt ssrc est' := by rw [← hiv, ← hiv', heq]
    exact ivAt_inj hmode hlt hlt' hivs
  have hno : s.NoRepeat ssrc := by
    intro keying' hk
    rw [h.keying, Option.some.injEq] at hk
    rw [← hk]
    exact hrep
  rw [← hsame] at hest'
  exact fresh_call hmem hno htracked hused (Nat.zero_le est) hest'

end OneKey

/-- The sender's IVs are unique. On a stream with one key of a counter mode
    cipher that does not repeat indices, no two packets of a run whose calls
    are all tracked are sent under one IV. -/
theorem iv_unique (s : Session C A) (ssrc : UInt32) (calls : List SessionCall)
    (keying : Keying C A) (keys : SessionKeys C A) (hkeying : s.keyingOn ssrc = some keying)
    (hkeys : keying.sessionKeys = [keys]) (hmode : keys.isCounterMode = true)
    (hrep : keying.allowRepeatTx = false)
    (htracked : Lib.Along callStep Session.Tracked s calls) : (sentIvs s ssrc calls).Nodup := by
  have hstart : IvMemory keying keys ssrc [] s :=
    ⟨hkeying, [], remembers_nil s ssrc, fun iv hin => absurd hin List.not_mem_nil⟩
  exact Lib.events_pairwise (IvMemory keying keys ssrc) (ivMemory_call hkeys hrep)
    (iv_fresh hkeys hmode hrep) [] s calls hstart htracked List.Pairwise.nil

/-- The IVs of three packets, one of them sent after a jump of the rollover
    counter. -/
theorem iv_unique_jump :
    (sentIvs (sampleSession .aesIcm128) 1
      [.protect (samplePacket 0 5 []) false 0, .setStreamRoc 1 7,
        .protect (samplePacket 0 5 []) false 0, .protect (samplePacket 0 6 []) false 0]).Nodup :=
  iv_unique _ 1 _ (sampleStream .aesIcm128).keying (sampleKeys .aesIcm128) rfl rfl rfl rfl
    (by decide +kernel)

/-- Past the last index the sender starts over, and so do its IVs. -/
theorem iv_repeats :
    ¬ ∀ (s : Session KeystreamCipher FixedAuth) (ssrc : UInt32) (calls : List SessionCall)
      (keying : Keying KeystreamCipher FixedAuth) (keys : SessionKeys KeystreamCipher FixedAuth),
      s.keyingOn ssrc = some keying → keying.sessionKeys = [keys] → keys.isCounterMode = true →
      keying.allowRepeatTx = false → (sentIvs s ssrc calls).Nodup := by
  intro h
  have hnodup := h (sampleSession .aesIcm128) 1
    [.protect (samplePacket 0 0 []) false 0, .setStreamRoc 1 0xffffffff,
      .protect (samplePacket 0xff 0xff []) false 0, .protect (samplePacket 0 0 []) false 0]
    (sampleStream .aesIcm128).keying (sampleKeys .aesIcm128) rfl rfl rfl rfl
  exact absurd hnodup (by decide +kernel)

end Srtp

end CryptoOpal

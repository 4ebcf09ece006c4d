import CryptoOpal.Srtp.Ideal
import CryptoOpal.Srtp.KeyDerivation

/-!
# Policies and New Streams

What an application hands to the session functions, and the stream that is
made of it: `srtp_policy_t`, `srtp_validate_policy_master_keys` and
`srtp_stream_init`.

A stream can fail to be made for reasons that lie outside of the policy. The
library asks for memory, looks for cipher types in the kernel, and lets the
devices behind some ciphers set up and tear down their keys. `Env` collects
what comes of these requests during one call. Nothing is assumed about it.

Each set of session keys gets a number of its own, counted up from the first
one given.

The requests and the policy at the end are for runs on the fixed ciphers of
`Ideal`.

## Main definitions

* `Policy`, `PolicyKey`: `srtp_policy_t` and `srtp_master_key_t`.
* `validatePolicyMasterKeys`: The check on the master keys.
* `Env`: What comes of the requests to kernel, allocator and devices.
* `streamInitAllMasterKeys`, `streamInit`: A new stream.
* `sampleEnv`, `samplePolicy`: Requests and a policy to run the model on.

## Theorems

* `streamInit_eq_ok`: What a new stream is made of.
* `ref_streamInitKeys`, `refs_initMasterKeys`: The numbers of its keys.
-/

namespace CryptoOpal

namespace Srtp

open Lib (Octets)

/-- `srtp_ssrc_type_t`. -/
inductive SsrcType where
  | undefined
  | specific
  | anyInbound
  | anyOutbound
  deriving DecidableEq

/-- `srtp_master_key_t`, as the application has filled it in. -/
structure PolicyKey where
  key : Option Octets
  mkiId : Octets
  deriving DecidableEq

/-- `srtp_policy_t`. The EKT policy is always null. -/
structure Policy where
  ssrcType : SsrcType
  ssrcValue : UInt32
  rtp : CryptoPolicy
  rtcp : CryptoPolicy
  key : Option Octets
  keys : List PolicyKey
  windowSize : Nat
  allowRepeatTx : Int
  encXtnHdr : List Int
  deriving DecidableEq

/-- `SRTP_MAX_NUM_MASTER_KEYS`. -/
def srtpMaxNumMasterKeys : Nat := 16

/-- `srtp_validate_policy_master_keys`. -/
def validatePolicyMasterKeys (p : Policy) : Bool :=
  match p.key with
  | some _ => true
  | none =>
    p.keys ≠ [] && decide (p.keys.length ≤ srtpMaxNumMasterKeys) &&
      p.keys.all fun k => k.key.isSome && decide (k.mkiId.length ≤ srtpMaxMkiLen)

/-- What comes of the requests that the library makes during a call. -/
structure Env (C A : Type) where
  kernel : Kernel C A
  /-- Allocating the stream with its ciphers and authentication functions. -/
  streamAlloc : Policy → Except SrtpErrStatus Unit
  /-- Allocating the replay window. -/
  rdbxAlloc : Except SrtpErrStatus Unit
  /-- Allocating the copies of a template, one after the other. -/
  cloneAlloc : Nat → Except SrtpErrStatus Unit
  /-- Taking down the ciphers of a stream that are its own. -/
  dealloc : Nat → Except SrtpErrStatus Unit

/-- The master key for `srtp_stream_init_keys`. The check on the master keys
    refuses the two cases that have none. -/
def PolicyKey.masterKey (k : PolicyKey) : Except Stop MasterKey :=
  match k.key with
  | none => .error .fault
  | some key =>
    if h : k.mkiId.length ≤ srtpMaxMkiLen then .ok ⟨key, k.mkiId, h⟩ else .error .fault

section Initialization

variable {C A : Type}

/-- The loop of `srtp_stream_init_all_master_keys`. -/
def initMasterKeys (kernel : Kernel C A) (p : Policy) :
    Nat → List PolicyKey → Except Stop (List (SessionKeys C A))
  | _, [] => .ok []
  | ref, k :: ks => do
    let master ← k.masterKey
    let keys ← streamInitKeys kernel p.rtp p.rtcp p.encXtnHdr ref master
    let rest ← initMasterKeys kernel p (ref + 1) ks
    .ok (keys :: rest)

/-- The master keys that a policy goes by: the single key, without an MKI, if
    there is one. -/
def Policy.masterKeys (p : Policy) : List PolicyKey :=
  match p.key with
  | some key => [{ key := some key, mkiId := [] }]
  | none => p.keys.take srtpMaxNumMasterKeys

/-- `srtp_stream_init_all_master_keys`. The check on the master keys has seen to
    it that there is one. -/
def streamInitAllMasterKeys (kernel : Kernel C A) (p : Policy) (ref : Nat) :
    Except Stop { l : List (SessionKeys C A) // l ≠ [] } := do
  let keys ← initMasterKeys kernel p ref p.masterKeys
  if h : keys = [] then .error .fault else .ok ⟨keys, h⟩

/-- The size of the replay window. Zero stands for the default. -/
def policyWindow (p : Policy) : Except Stop { n : Nat // 0 < n ∧ n ≤ 0x8000 } :=
  if p.windowSize = 0 then .ok ⟨128, by decide⟩
  else if h : p.windowSize < 64 ∨ 0x8000 ≤ p.windowSize then .error (.status .badParam)
  else .ok ⟨p.windowSize, by omega⟩

/-- `srtp_stream_init`, with the first number for the stream's keys. -/
def streamInit (env : Env C A) (p : Policy) (ref : Nat) : Except Stop (Stream C A) := do
  let window ← policyWindow p
  orStop .status env.rdbxAlloc
  -- guard against uninitialized memory
  refuseIf (p.allowRepeatTx ≠ 0 ∧ p.allowRepeatTx ≠ 1) (.status .badParam)
  let keys ← streamInitAllMasterKeys env.kernel p ref
  .ok
    { ssrc := p.ssrcValue
      sessionKeys := keys.1
      rtpRdbx :=
        { index := 0
          bitmask := Bitvector.alloc window.1
          pos := Bitvector.length_alloc_pos window.2.1 }
      rtpServices := p.rtp.secServ
      rtcpRdb := Rdb.init
      rtcpServices := p.rtcp.secServ
      direction := .unknown
      allowRepeatTx := decide (p.allowRepeatTx = 1)
      encXtnHdr := p.encXtnHdr
      pendingRoc := 0
      keys_ne := keys.2
      window_le := Bitvector.length_alloc_le window.2.2 }

/-- The numbers of a stream's keys. -/
def Stream.refs (stream : Stream C A) : List Nat := stream.sessionKeys.map SessionKeys.ref

theorem ref_streamInitKeys {kernel : Kernel C A} {rtp rtcp : CryptoPolicy} {encXtnHdr : List Int}
    {ref : Nat} {master : MasterKey} {keys : SessionKeys C A}
    (h : streamInitKeys kernel rtp rtcp encXtnHdr ref master = .ok keys) : keys.ref = ref := by
  simp only [streamInitKeys, bind_eq_ok, Except.ok.injEq] at h
  obtain ⟨_, -, _, -, _, -, _, -, _, -, _, -, _, -, _, -, _, -, _, -, _, -, _, -, rfl⟩ := h
  rfl

theorem refs_initMasterKeys {kernel : Kernel C A} {p : Policy} {ks : List PolicyKey}
    {l : List (SessionKeys C A)} {ref : Nat} (h : initMasterKeys kernel p ref ks = .ok l) :
    l.map SessionKeys.ref = List.range' ref ks.length := by
  induction ks generalizing ref l with
  | nil =>
      rw [initMasterKeys, Except.ok.injEq] at h
      rw [← h]
      rfl
  | cons k ks ih =>
      simp only [initMasterKeys, bind_eq_ok, Except.ok.injEq] at h
      rcases h with ⟨master, -, keys, hkeys, rest, hrest, hl⟩
      rw [← hl, List.map_cons, ref_streamInitKeys hkeys, ih hrest, List.length_cons,
        List.range'_succ]

/-- What a new stream is made of. -/
theorem streamInit_eq_ok {env : Env C A} {p : Policy} {ref : Nat} {stream : Stream C A}
    (h : streamInit env p ref = .ok stream) :
    stream.ssrc = p.ssrcValue ∧ stream.refs = List.range' ref p.masterKeys.length ∧
      stream.rtpRdbx.index = 0 ∧ stream.pendingRoc = 0 := by
  simp only [streamInit, bind_eq_ok, Except.ok.injEq] at h
  obtain ⟨window, -, _, -, _, -, keys, hkeys, rfl⟩ := h
  simp only [streamInitAllMasterKeys, bind_eq_ok] at hkeys
  rcases hkeys with ⟨l, hl, hkeys⟩
  split at hkeys
  · exact absurd hkeys (by simp only [reduceCtorEq, not_false_eq_true])
  · rw [Except.ok.injEq] at hkeys
    refine ⟨rfl, ?_, rfl, rfl⟩
    unfold Stream.refs
    rw [← hkeys]
    exact refs_initMasterKeys hl

end Initialization

section Samples

/-- Requests that all succeed, with keys that are all alike. -/
def sampleEnv : Env KeystreamCipher FixedAuth :=
  { kernel :=
      { kdfGenerate := fun _ _ n => .ok (List.replicate n 0)
        cipherInit := fun id _ _ => .ok (rocCipher id)
        authInit := fun _ _ _ => .ok rocAuth }
    streamAlloc := fun _ => .ok ()
    rdbxAlloc := .ok ()
    cloneAlloc := fun _ => .ok ()
    dealloc := fun _ => .ok () }

/-- A default policy for an SSRC, or for all of them. -/
def samplePolicy (type : SsrcType) (ssrc : UInt32) : Policy :=
  { ssrcType := type
    ssrcValue := ssrc
    rtp := rtcpDefault
    rtcp := rtcpDefault
    key := some (List.replicate 30 0)
    keys := []
    windowSize := 0
    allowRepeatTx := 0
    encXtnHdr := [] }

end Samples

end Srtp

end CryptoOpal

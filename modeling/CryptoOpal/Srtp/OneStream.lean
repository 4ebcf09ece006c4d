import CryptoOpal.Lib.Transducer
import CryptoOpal.Srtp.Ideal
import CryptoOpal.Srtp.Owners

/-!
# One Stream for Each SSRC

Runs that manage the streams of a session between packets: streams are added,
removed and updated in any order, and RTP and RTCP packets come and go.

Two things hold along every such run, as long as no stream is added for an
SSRC that has one. There is one stream for each SSRC. And a stream that was
removed stays removed: no packet after it goes by its keys, unless the
template has them too.

`srtp_add_stream` does not enforce the condition. A second stream with the
SSRC goes to the head of the list and hides the first, which comes back to
light when the second is removed.

## Main definitions

* `ManageCall`, `ManageResult`, `manageStep`: A call and what it does.
* `Session.NewSsrc`: The call adds no second stream.
* `removedStream`, `usedKeys`: What a step removed, and the keys it went by.

## Theorems

* `changes_manageStep`, `released_removedStream`, `supplies_usedKeys`: One step.
* `sound_srtpCreate`: The state at the start.
* `one_stream_per_ssrc`: Whole runs.
* `two_streams`: A run that adds a second stream.
-/

namespace CryptoOpal

namespace Srtp

open Lib (Octets)
open Lib.Registry (Change)
open Relation (ReflTransGen)

variable {C A : Type} [CipherType C] [AuthType A]

/-- A call of the library, with its arguments, and with what comes of the
    requests it makes. -/
inductive ManageCall (C A : Type) where
  | add (env : Env C A) (p : Policy)
  | remove (env : Env C A) (ssrc : UInt32)
  | update (env : Env C A) (p : Policy)
  | protect (pkt : Octets) (useMki : Bool) (mkiIndex : Nat)
  | unprotect (pkt : Octets) (useMki : Bool)
  | protectRtcp (pkt : Octets) (useMki : Bool) (mkiIndex : Nat)
  | unprotectRtcp (pkt : Octets) (useMki : Bool) (tmpTag : Octets)

/-- The result of a call. -/
inductive ManageResult (C : Type) where
  | managed (result : Except Stop Unit)
  | removed (result : Except SrtpErrStatus Unit)
  | sent (result : Except SrtpErrStatus (Protected C))
  | received (result : Except Stop Unprotected)
  | sentRtcp (result : Except SrtpErrStatus (ProtectedRtcp C))
  | receivedRtcp (result : Except Stop UnprotectedRtcp)

/-- The session after a call, and the result. -/
def manageStep (s : Session C A) : ManageCall C A → Session C A × ManageResult C
  | .add env p => ((srtpAddStream env s p).1, .managed (srtpAddStream env s p).2)
  | .remove env ssrc => ((srtpRemoveStream env s ssrc).1, .removed (srtpRemoveStream env s ssrc).2)
  | .update env p => ((srtpUpdateStream env s p).1, .managed (srtpUpdateStream env s p).2)
  | .protect pkt useMki mkiIndex =>
    ((srtpProtectMki s pkt useMki mkiIndex).1, .sent (srtpProtectMki s pkt useMki mkiIndex).2)
  | .unprotect pkt useMki =>
    ((srtpUnprotectMki s pkt useMki).1, .received (srtpUnprotectMki s pkt useMki).2)
  | .protectRtcp pkt useMki mkiIndex =>
    ((srtpProtectRtcpMki s pkt useMki mkiIndex).1,
      .sentRtcp (srtpProtectRtcpMki s pkt useMki mkiIndex).2)
  | .unprotectRtcp pkt useMki tmpTag =>
    ((srtpUnprotectRtcpMki s pkt useMki tmpTag).1,
      .receivedRtcp (srtpUnprotectRtcpMki s pkt useMki tmpTag).2)

/-- A stream that is added is for an SSRC that has none. -/
def Session.NewSsrc (s : Session C A) : ManageCall C A → Prop
  | .add _ p => p.ssrcType = .specific → (s.getStream p.ssrcValue).isNone
  | _ => True

instance (s : Session C A) (call : ManageCall C A) : Decidable (s.NewSsrc call) :=
  match call with
  | .add _ p =>
    inferInstanceAs (Decidable (p.ssrcType = .specific → (s.getStream p.ssrcValue).isNone))
  | .remove _ _ | .update _ _ | .protect _ _ _ | .unprotect _ _ | .protectRtcp _ _ _
  | .unprotectRtcp _ _ _ => inferInstanceAs (Decidable True)

/-- A call of the session that was made: its states, call and result. -/
abbrev ManageStep (C A : Type) := Lib.Step (Session C A) (ManageCall C A) (ManageResult C)

/-- The stream that a successful `srtp_remove_stream` took off the list. -/
def removedStream (x : ManageStep C A) : Option (Stream C A) :=
  match x.input, x.output with
  | .remove _ ssrc, .removed (.ok _) => x.before.getStream ssrc
  | _, _ => none

/-- The number of the keys that a packet went by. -/
def usedKeys (x : ManageStep C A) : Option Nat :=
  match x.output with
  | .sent (.ok p) => some p.ref
  | .received (.ok u) => some u.ref
  | .sentRtcp (.ok p) => some p.ref
  | .receivedRtcp (.ok u) => some u.ref
  | _ => none

/-- A later packet goes by the keys of a removed stream only if the template has
    them. -/
def GoneForGood (x y : ManageStep C A) : Prop :=
  ∀ stream n, removedStream x = some stream → usedKeys y = some n → n ∈ stream.refs →
    ∃ template, y.before.streamTemplate = some template ∧ n ∈ template.refs

section Steps

variable {s : Session C A} {call : ManageCall C A}

theorem changes_manageStep (h : s.registry.Sound) (hnew : s.NewSsrc call) :
    ReflTransGen Change s.registry (manageStep s call).1.registry := by
  cases call with
  | add env p => exact changes_addStream fun htype => Option.isNone_iff_eq_none.mp (hnew htype)
  | remove env ssrc => exact changes_removeStream env s ssrc
  | update env p => exact changes_srtpUpdateStream env p h.distinct
  | protect pkt useMki mkiIndex => exact changes_protect s pkt useMki mkiIndex
  | unprotect pkt useMki => exact changes_unprotect s pkt useMki
  | protectRtcp pkt useMki mkiIndex => exact changes_protectRtcp s pkt useMki mkiIndex
  | unprotectRtcp pkt useMki tmpTag => exact changes_unprotectRtcp s pkt useMki tmpTag

/-- The keys that a packet goes by are in the table. -/
theorem supplies_usedKeys {n : Nat}
    (hused : usedKeys (Lib.stepAt manageStep s call) = some n) : s.registry.Supplies n := by
  cases call with
  | add env p => exact absurd hused (by simp only [usedKeys, Lib.stepAt, manageStep, reduceCtorEq,
      not_false_eq_true])
  | remove env ssrc => exact absurd hused (by simp only [usedKeys, Lib.stepAt, manageStep,
      reduceCtorEq, not_false_eq_true])
  | update env p => exact absurd hused (by simp only [usedKeys, Lib.stepAt, manageStep,
      reduceCtorEq, not_false_eq_true])
  | protect pkt useMki mkiIndex =>
      cases hok : (srtpProtectMki s pkt useMki mkiIndex).2 with
      | error e => simp only [usedKeys, Lib.stepAt, manageStep, hok, reduceCtorEq] at hused
      | ok p =>
          simp only [usedKeys, Lib.stepAt, manageStep, hok, Option.some.injEq] at hused
          exact hused ▸ supplies_protect hok
  | unprotect pkt useMki =>
      cases hok : (srtpUnprotectMki s pkt useMki).2 with
      | error e => simp only [usedKeys, Lib.stepAt, manageStep, hok, reduceCtorEq] at hused
      | ok u =>
          simp only [usedKeys, Lib.stepAt, manageStep, hok, Option.some.injEq] at hused
          exact hused ▸ supplies_unprotect hok
  | protectRtcp pkt useMki mkiIndex =>
      cases hok : (srtpProtectRtcpMki s pkt useMki mkiIndex).2 with
      | error e => simp only [usedKeys, Lib.stepAt, manageStep, hok, reduceCtorEq] at hused
      | ok p =>
          simp only [usedKeys, Lib.stepAt, manageStep, hok, Option.some.injEq] at hused
          exact hused ▸ supplies_protectRtcp hok
  | unprotectRtcp pkt useMki tmpTag =>
      cases hok : (srtpUnprotectRtcpMki s pkt useMki tmpTag).2 with
      | error e => simp only [usedKeys, Lib.stepAt, manageStep, hok, reduceCtorEq] at hused
      | ok u =>
          simp only [usedKeys, Lib.stepAt, manageStep, hok, Option.some.injEq] at hused
          exact hused ▸ supplies_unprotectRtcp hok

/-- The keys of a stream that was removed are released. -/
theorem released_removedStream {stream : Stream C A} (h : s.registry.Sound)
    (hremoved : removedStream (Lib.stepAt manageStep s call) = some stream) :
    (manageStep s call).1.registry.Released stream.refs := by
  cases call with
  | remove env ssrc =>
      have hget : s.getStream ssrc = some stream := by
        simp only [removedStream, Lib.stepAt, manageStep] at hremoved
        split at hremoved
        · rename_i env' ssrc' u hinput houtput
          rw [ManageCall.remove.injEq] at hinput
          rw [hinput.2]
          exact hremoved
        · exact absurd hremoved (by simp only [reduceCtorEq, not_false_eq_true])
      have hfind := Session.findKey_registry s ssrc
      rw [hget, Option.map_some] at hfind
      have hreleased := Lib.Registry.released_erase h hfind
      have hafter : (manageStep s (.remove env ssrc)).1 = s.eraseStream ssrc := by
        simp only [manageStep, srtpRemoveStream, hget]
      rw [hafter, registry_eraseStream]
      exact hreleased
  | _ =>
      simp only [removedStream, Lib.stepAt, manageStep, reduceCtorEq] at hremoved

end Steps

section Creation

/-- The SSRCs that a list of policies makes streams for. -/
def specificSsrcs (policies : List (Env C A × Policy)) : List UInt32 :=
  (policies.filter fun x => x.2.ssrcType = .specific).map fun x => x.2.ssrcValue

omit [CipherType C] [AuthType A] in
/-- Policies for different SSRCs make one stream each. -/
theorem sound_addStreams (policies : List (Env C A × Policy)) :
    ∀ {s s' : Session C A}, s.registry.Sound → (specificSsrcs policies).Nodup →
      (∀ ssrc ∈ specificSsrcs policies, s.getStream ssrc = none) →
      addStreams s policies = .ok s' → s'.registry.Sound := by
  induction policies with
  | nil =>
      intro s s' hsound _ _ h
      rw [addStreams, Except.ok.injEq] at h
      exact h ▸ hsound
  | cons x rest ih =>
      intro s s' hsound hnodup hnone h
      rcases x with ⟨env, p⟩
      have hfirst : p.ssrcType = .specific →
          specificSsrcs ((env, p) :: rest) = p.ssrcValue :: specificSsrcs rest := by
        intro htype
        unfold specificSsrcs
        rw [List.filter_cons_of_pos (by simp only [htype, decide_true]), List.map_cons]
      have hother : p.ssrcType ≠ .specific →
          specificSsrcs ((env, p) :: rest) = specificSsrcs rest := by
        intro htype
        unfold specificSsrcs
        rw [List.filter_cons_of_neg (by simp only [htype, decide_false, Bool.false_eq_true,
          not_false_eq_true])]
      have hadd : Relation.ReflTransGen Change s.registry (srtpAddStream env s p).1.registry :=
        changes_addStream fun htype => hnone _ (by rw [hfirst htype]; exact List.mem_cons_self)
      rw [addStreams] at h
      cases hresult : (srtpAddStream env s p).2 with
      | error stop =>
          rw [show srtpAddStream env s p = ((srtpAddStream env s p).1, .error stop) from
            Prod.ext rfl hresult] at h
          exact absurd h (by simp only [reduceCtorEq, not_false_eq_true])
      | ok u =>
      rw [show srtpAddStream env s p = ((srtpAddStream env s p).1, .ok u) from
        Prod.ext rfl hresult] at h
      have hsound' := Lib.Registry.sound_changes hsound hadd
      rcases addStream_ok hresult with ⟨tmp, hinit, ⟨htype, hs⟩ | ⟨htype, -, dir, hs⟩⟩
      · rw [hfirst htype] at hnodup hnone
        rw [List.nodup_cons] at hnodup
        refine ih hsound' hnodup.2 (fun ssrc hmem => ?_) h
        -- The new stream is none of those still to come.
        have hne : p.ssrcValue ≠ ssrc := by
          rintro rfl
          exact hnodup.1 hmem
        rw [hs, Session.getStream_insertStream, (streamInit_eq_ok hinit).1, if_neg hne]
        exact hnone ssrc (List.mem_cons_of_mem _ hmem)
      · rw [hother htype] at hnodup hnone
        refine ih hsound' hnodup (fun ssrc hmem => ?_) h
        rw [hs, Session.getStream_putTemplate]
        exact hnone ssrc hmem

omit [CipherType C] [AuthType A] in
theorem sound_srtpCreate {policies : List (Env C A × Policy)} {s : Session C A}
    (hpolicies : (specificSsrcs policies).Nodup) (h : srtpCreate policies = .ok s) :
    s.registry.Sound :=
  sound_addStreams policies (Lib.Registry.sound_empty 0) hpolicies (fun _ _ => rfl) h

end Creation

/-- The invariant of a run: the table is sound, it was after every step, and
    what was removed is released. -/
structure ManageMemory (H : List (ManageStep C A)) (s : Session C A) : Prop where
  sound : s.registry.Sound
  distinct : ∀ x ∈ H, (x.after.streamList.map Stream.ssrc).Nodup
  released : ∀ x ∈ H, ∀ stream, removedStream x = some stream →
    s.registry.Released stream.refs

theorem manageMemory_step {H : List (ManageStep C A)} {s : Session C A} {call : ManageCall C A}
    (h : ManageMemory H s) (hnew : s.NewSsrc call) :
    ManageMemory (H ++ (some (Lib.stepAt manageStep s call)).toList) (manageStep s call).1 := by
  have hchanges := changes_manageStep h.sound hnew
  have hsound := Lib.Registry.sound_changes h.sound hchanges
  have hcases {x : ManageStep C A}
      (hx : x ∈ H ++ (some (Lib.stepAt manageStep s call)).toList) :
      x ∈ H ∨ x = Lib.stepAt manageStep s call := by
    rwa [Option.toList_some, List.mem_append, List.mem_singleton] at hx
  refine ⟨hsound, ?_, ?_⟩
  · intro x hx
    rcases hcases hx with hx | rfl
    · exact h.distinct x hx
    · exact Session.owners_registry (manageStep s call).1 ▸ hsound.distinct
  · intro x hx stream hremoved
    rcases hcases hx with hx | rfl
    · exact Lib.Registry.released_changes h.sound (h.released x hx stream hremoved) hchanges
    · exact released_removedStream h.sound hremoved

/-- A packet goes by released keys only if the template has them. -/
theorem goneForGood_step {H : List (ManageStep C A)} {s : Session C A} {call : ManageCall C A}
    (h : ManageMemory H s) : ∀ x ∈ H, GoneForGood x (Lib.stepAt manageStep s call) := by
  intro x hx stream n hremoved hused hn
  rcases (h.released x hx stream hremoved).ofTemplate (supplies_usedKeys hused) hn with
    ⟨refs, htemplate, hmem⟩
  rcases Option.map_eq_some_iff.mp htemplate with ⟨template, hsome, rfl⟩
  exact ⟨template, hsome, hmem⟩

theorem events_some (s : Session C A) (calls : List (ManageCall C A)) :
    Lib.events manageStep some s calls = Lib.run manageStep s calls :=
  List.filterMap_some

/-- In every run from `srtp_create` in which no stream is added for an SSRC that
    has one, there is one stream for each SSRC in every state, and no packet
    goes by the keys of a stream that was removed before, unless the template
    has them. -/
theorem one_stream_per_ssrc {policies : List (Env C A × Policy)} {s : Session C A}
    {calls : List (ManageCall C A)} (hcreate : srtpCreate policies = .ok s)
    (hpolicies : (specificSsrcs policies).Nodup)
    (hcalls : Lib.Along manageStep Session.NewSsrc s calls) :
    (s.streamList.map Stream.ssrc).Nodup ∧
      (∀ x ∈ Lib.run manageStep s calls, (x.after.streamList.map Stream.ssrc).Nodup) ∧
      (Lib.run manageStep s calls).Pairwise GoneForGood := by
  have hsound := sound_srtpCreate hpolicies hcreate
  have hstart : ManageMemory [] s :=
    ⟨hsound, fun _ h => absurd h List.not_mem_nil, fun _ h => absurd h List.not_mem_nil⟩
  have hend := Lib.history_invariant ManageMemory (fun _ _ _ h hnew => manageMemory_step h hnew)
    [] s calls hstart hcalls
  have hpairs := Lib.events_pairwise ManageMemory (fun _ _ _ h hnew => manageMemory_step h hnew)
    (fun _ _ _ _ h _ he => Option.some.inj he ▸ goneForGood_step h) [] s calls hstart hcalls
    List.Pairwise.nil
  rw [List.nil_append, events_some] at hend hpairs
  exact ⟨Session.owners_registry s ▸ hsound.distinct, hend.distinct, hpairs⟩

section Samples

/-- A session that `srtp_create` makes of one policy. -/
def createdSession : Session KeystreamCipher FixedAuth :=
  (srtpCreate [(sampleEnv, samplePolicy .specific 1)]).toOption.getD Session.empty

theorem srtpCreate_sample :
    srtpCreate [(sampleEnv, samplePolicy .specific 1)] = .ok createdSession := by
  have hok : (srtpCreate [(sampleEnv, samplePolicy .specific 1)]).toOption.isSome = true := by
    decide +kernel
  unfold createdSession
  cases h : srtpCreate [(sampleEnv, samplePolicy .specific 1)] with
  | error stop =>
      rw [h] at hok
      exact absurd hok Bool.false_ne_true
  | ok s => rfl

theorem one_stream_per_ssrc_removed :
    (createdSession.streamList.map Stream.ssrc).Nodup ∧
      (∀ x ∈ Lib.run manageStep createdSession [.remove sampleEnv 1,
          .add sampleEnv (samplePolicy .specific 1), .protect (samplePacket 0 0 []) false 0],
        (x.after.streamList.map Stream.ssrc).Nodup) ∧
      (Lib.run manageStep createdSession [.remove sampleEnv 1,
        .add sampleEnv (samplePolicy .specific 1),
        .protect (samplePacket 0 0 []) false 0]).Pairwise GoneForGood :=
  one_stream_per_ssrc srtpCreate_sample (by decide) (by decide +kernel)

/-- A stream that is added for an SSRC that has one. -/
theorem two_streams :
    ¬ ∀ (policies : List (Env KeystreamCipher FixedAuth × Policy))
      (s : Session KeystreamCipher FixedAuth)
      (calls : List (ManageCall KeystreamCipher FixedAuth)), srtpCreate policies = .ok s →
      ∀ x ∈ Lib.run manageStep s calls, (x.after.streamList.map Stream.ssrc).Nodup := by
  intro h
  have hnodup := h [(sampleEnv, samplePolicy .specific 1)] createdSession
    [.add sampleEnv (samplePolicy .specific 1)] srtpCreate_sample _ List.mem_cons_self
  exact absurd hnodup (by decide +kernel)

end Samples

end Srtp

end CryptoOpal

import CryptoOpal.Srtp.Owners

/-!
# Updates That Fail

When an update that returns an error leaves the session as it was.

An update is refused if it fails before it has unlinked a stream: the check
on the master keys, an SSRC without a stream, a missing template, or, for the
template, a new one that cannot be made. Once a stream is unlinked nothing
brings it back, so whatever fails then leaves a session with fewer streams.
For a list of policies the first error ends the call, and the policies before
it stay applied.

`FailsLate` and `UpdateFailsLate` are the exact conditions for that. They
name what fails by what it is about: the stream, the policy, the copy.

## Main definitions

* `unlinked`: The streams that an update of the template unlinks.
* `Refused`, `FailsLate`: The two ways in which an update fails.
* `UpdateFailsLate`: A list of policies leaves something behind.
* `AllOrNothing`: A call that returns an error has changed nothing.

## Theorems

* `srtpUpdateStream_refused`, `srtpUpdateStream_late`,
  `srtpUpdateStream_applied`: The three ways in which an update ends.
* `update_all_or_nothing`: When updates are all or nothing.
* `update_loses_stream`: An update that loses a stream.
-/

namespace CryptoOpal

namespace Srtp

variable {C A : Type}

/-- The streams that the loop over the copies of a template unlinks, in order:
    for each copy it finds, the first stream with its SSRC. -/
def unlinked (template : Stream C A) : Nat → List (Stream C A) → List (Stream C A)
  | 0, _ => []
  | n + 1, l =>
    match l.find? fun stream => stream.copyOf template with
    | none => []
    | some old =>
      match Lib.findKey Stream.ssrc l old.ssrc with
      | none => []
      | some stream =>
        stream :: unlinked template n (Lib.eraseFirst Stream.ssrc old.ssrc l)

/-- The stream that is unlinked in a round cannot be taken down or made anew. -/
def RoundFails (env : Env C A) (s : Session C A) (k : Nat) (stream : Stream C A) : Prop :=
  (∃ e, streamDealloc env stream s.streamTemplate = .error e) ∨ ∃ e, env.cloneAlloc k = .error e

/-- The new stream of a policy cannot be made. -/
def InitFails (env : Env C A) (s : Session C A) (p : Policy) : Prop :=
  (∃ e, env.streamAlloc p = .error e) ∨
    (env.streamAlloc p = .ok () ∧ ∃ e, streamInit env p s.nextRef = .error (.status e))

/-- The policy is for the template. -/
def Policy.forTemplate (p : Policy) : Prop := p.ssrcType = .anyInbound ∨ p.ssrcType = .anyOutbound

/-- An update fails before it has unlinked a stream. -/
def Refused (env : Env C A) (s : Session C A) (p : Policy) : Prop :=
  validatePolicyMasterKeys p = false ∨ p.ssrcType = .undefined ∨
    (p.ssrcType = .specific ∧ s.getStream p.ssrcValue = none) ∨
    (p.forTemplate ∧ (s.streamTemplate = none ∨ InitFails env s p))

/-- An update fails after it has unlinked a stream. -/
def FailsLate (env : Env C A) (s : Session C A) (p : Policy) : Prop :=
  validatePolicyMasterKeys p = true ∧
    ((p.ssrcType = .specific ∧ ∃ stream, s.getStream p.ssrcValue = some stream ∧
        ((∃ e, streamDealloc env stream s.streamTemplate = .error e) ∨ InitFails env s p)) ∨
      (p.forTemplate ∧ ∃ template new, s.streamTemplate = some template ∧
        env.streamAlloc p = .ok () ∧ streamInit env p s.nextRef = .ok new ∧
        ∃ k stream, (unlinked template s.streamList.length s.streamList)[k]? = some stream ∧
          RoundFails env s k stream))

/-- An update in a list of policies fails. -/
def SomeFails : Session C A → List (Env C A × Policy) → Prop
  | _, [] => False
  | s, (env, p) :: rest =>
    Refused env s p ∨ FailsLate env s p ∨
      ((srtpUpdateStream env s p).2 = .ok () ∧ SomeFails (srtpUpdateStream env s p).1 rest)

/-- A list of policies fails after it has changed something: the first one on
    its way, or a later one. -/
def UpdateFailsLate (s : Session C A) : List (Env C A × Policy) → Prop
  | [] => False
  | (env, p) :: rest =>
    FailsLate env s p ∨
      ((srtpUpdateStream env s p).2 = .ok () ∧ SomeFails (srtpUpdateStream env s p).1 rest)

/-- A call that returns an error has changed no stream, not the template, and no
    key's limit. -/
def AllOrNothing (s : Session C A) (r : Session C A × Except Stop Unit) : Prop :=
  ∀ e, r.2 = .error (.status e) →
    r.1.streamList = s.streamList ∧ r.1.streamTemplate = s.streamTemplate ∧ r.1.limits = s.limits

/-- The keys of a session have numbers that were given out. -/
def Session.Numbered (s : Session C A) : Prop :=
  (∀ stream ∈ s.streamList, ∀ n ∈ stream.refs, n < s.nextRef) ∧
    ∀ template ∈ s.streamTemplate, ∀ n ∈ template.refs, n < s.nextRef

/-- A stream or the template has keys that were not given out before number
    `r`. -/
def Session.HasNew (s : Session C A) (r : Nat) : Prop :=
  (∃ stream ∈ s.streamList, ∀ n ∈ stream.refs, r ≤ n) ∨
    ∃ template, s.streamTemplate = some template ∧ ∀ n ∈ template.refs, r ≤ n

section Rounds

variable {env : Env C A} {template new : Stream C A}

/-- The loop goes through if every round does. -/
theorem convertStreams_applied (n : Nat) :
    ∀ {k : Nat} {s : Session C A} {copies : List (Stream C A)},
      (∀ i stream, (unlinked template n s.streamList)[i]? = some stream →
        ¬ RoundFails env s (k + i) stream) →
      ∃ s' copies', convertStreams env template new n k s copies = (s', .ok copies') := by
  induction n with
  | zero => exact fun _ => ⟨_, _, rfl⟩
  | succ n ih =>
      intro k s copies h
      rw [unlinked] at h
      rw [convertStreams]
      cases hfind : s.streamList.find? fun stream => stream.copyOf template with
      | none => exact ⟨_, _, rfl⟩
      | some old =>
      have hmem := List.mem_of_find?_eq_some hfind
      cases hget : s.getStream old.ssrc with
      | none => exact absurd (List.mem_map_of_mem hmem) (Lib.findKey_eq_none.mp hget)
      | some stream =>
      have hkey : Lib.findKey Stream.ssrc s.streamList old.ssrc = some stream := hget
      simp only [hfind, hkey] at h
      have hfirst := h 0 stream rfl
      unfold RoundFails at hfirst
      rw [Nat.add_zero, not_or] at hfirst
      cases hdealloc : streamDealloc env stream s.streamTemplate with
      | error e => exact absurd ⟨e, hdealloc⟩ hfirst.1
      | ok u =>
      cases hclone : env.cloneAlloc k with
      | error e => exact absurd ⟨e, hclone⟩ hfirst.2
      | ok u =>
      simp only [srtpRemoveStream, hget, hdealloc]
      refine ih fun i stream' hi => ?_
      have hlater := h (i + 1) stream' (by rw [List.getElem?_cons_succ]; exact hi)
      rwa [← Nat.add_assoc, Nat.add_right_comm] at hlater

/-- The loop fails if a round does, and streams are missing then. -/
theorem convertStreams_late (n : Nat) :
    ∀ {k : Nat} {s : Session C A} {copies : List (Stream C A)} {i : Nat} {stream : Stream C A},
      (unlinked template n s.streamList)[i]? = some stream → RoundFails env s (k + i) stream →
      ∃ s' e, convertStreams env template new n k s copies = (s', .error e) ∧
        s'.streamList.length < s.streamList.length := by
  induction n with
  | zero =>
      intro k s copies i stream hi _
      exact absurd hi (by simp only [unlinked, List.getElem?_nil, reduceCtorEq, not_false_eq_true])
  | succ n ih =>
      intro k s copies i stream hi hfails
      rw [unlinked] at hi
      rw [convertStreams]
      cases hfind : s.streamList.find? fun stream => stream.copyOf template with
      | none => simp only [hfind, List.getElem?_nil, reduceCtorEq] at hi
      | some old =>
      cases hget : s.getStream old.ssrc with
      | none =>
          have hkey : Lib.findKey Stream.ssrc s.streamList old.ssrc = none := hget
          simp only [hfind, hkey, List.getElem?_nil, reduceCtorEq] at hi
      | some removed =>
      have hkey : Lib.findKey Stream.ssrc s.streamList old.ssrc = some removed := hget
      have hshort : (s.eraseStream old.ssrc).streamList.length + 1 = s.streamList.length :=
        Lib.length_eraseFirst hget
      simp only [hfind, hkey] at hi
      simp only [srtpRemoveStream, hget]
      cases hdealloc : streamDealloc env removed s.streamTemplate with
      | error e => exact ⟨_, e, rfl, by omega⟩
      | ok u =>
      cases hclone : env.cloneAlloc k with
      | error e => exact ⟨_, e, rfl, by omega⟩
      | ok u =>
      cases i with
      | zero =>
          -- This round went through, so it is a later one that fails.
          rw [List.getElem?_cons_zero, Option.some.injEq] at hi
          rw [← hi] at hfails
          rcases hfails with ⟨e, he⟩ | ⟨e, he⟩
          · rw [hdealloc] at he
            exact absurd he (by simp only [reduceCtorEq, not_false_eq_true])
          · rw [Nat.add_zero, hclone] at he
            exact absurd he (by simp only [reduceCtorEq, not_false_eq_true])
      | succ i =>
          rw [List.getElem?_cons_succ] at hi
          rw [← Nat.add_assoc, Nat.add_right_comm] at hfails
          have hlater := @ih (k + 1) (s.eraseStream old.ssrc)
            ((new.clone old.ssrc).restore old :: copies) i stream hi hfails
          rcases hlater with ⟨s', e, heq, hlt⟩
          exact ⟨s', e, heq, by omega⟩

end Rounds

section Calls

variable {env : Env C A} {s : Session C A} {p : Policy}

/-- A policy whose stream cannot be made is not added. -/
theorem addStream_initFails (hvalid : validatePolicyMasterKeys p = true)
    (h : InitFails env s p) : ∃ e, srtpAddStream env s p = (s, .error (.status e)) := by
  unfold srtpAddStream
  rw [hvalid, if_neg (by decide)]
  rcases h with ⟨e, halloc⟩ | ⟨halloc, e, hinit⟩
  · rw [halloc]
    exact ⟨e, rfl⟩
  · rw [halloc, hinit]
    exact ⟨e, rfl⟩

/-- A new stream is made, or making it has no defined end. -/
theorem init_of_not_initFails (h : ¬ InitFails env s p) :
    env.streamAlloc p = .ok () ∧
      ((∃ tmp, streamInit env p s.nextRef = .ok tmp) ∨
        streamInit env p s.nextRef = .error .fault) := by
  unfold InitFails at h
  rw [not_or] at h
  cases halloc : env.streamAlloc p with
  | error e => exact absurd ⟨e, halloc⟩ h.1
  | ok u =>
      refine ⟨rfl, ?_⟩
      cases hinit : streamInit env p s.nextRef with
      | ok tmp => exact Or.inl ⟨tmp, rfl⟩
      | error stop =>
          cases stop with
          | fault => exact Or.inr rfl
          | status e => exact absurd ⟨halloc, e, hinit⟩ h.2

/-- The keys of a new stream are new. -/
theorem new_streamInit {tmp : Stream C A} (h : streamInit env p s.nextRef = .ok tmp) :
    ∀ n ∈ tmp.refs, s.nextRef ≤ n := by
  intro n hn
  rw [(streamInit_eq_ok h).2.1, List.mem_range'_1] at hn
  exact hn.1

theorem updateTemplateStreams_refused (h : s.streamTemplate = none ∨ InitFails env s p) :
    ∃ e, updateTemplateStreams env s p = (s, .error (.status e)) := by
  unfold updateTemplateStreams
  cases htemplate : s.streamTemplate with
  | none => exact ⟨_, rfl⟩
  | some template =>
      rw [htemplate] at h
      rcases h with h | ⟨e, halloc⟩ | ⟨halloc, e, hinit⟩
      · exact absurd h (by simp only [reduceCtorEq, not_false_eq_true])
      · rw [halloc]
        exact ⟨e, rfl⟩
      · rw [halloc, hinit]
        exact ⟨e, rfl⟩

/-- An update that is refused. -/
theorem srtpUpdateStream_refused (h : Refused env s p) :
    ∃ e, srtpUpdateStream env s p = (s, .error (.status e)) := by
  unfold srtpUpdateStream
  by_cases hvalid : validatePolicyMasterKeys p = false
  · rw [if_pos hvalid]
    exact ⟨_, rfl⟩
  rw [if_neg hvalid]
  rcases h with h | htype | ⟨htype, hget⟩ | ⟨htype | htype, h⟩
  · exact absurd h hvalid
  · rw [htype]
    exact ⟨_, rfl⟩
  · rw [htype]
    simp only [updateStream, hget]
    exact ⟨_, rfl⟩
  · rw [htype]
    exact updateTemplateStreams_refused h
  · rw [htype]
    exact updateTemplateStreams_refused h

/-- An update that fails late: streams are missing. -/
theorem srtpUpdateStream_late (h : FailsLate env s p) :
    ∃ s' e, srtpUpdateStream env s p = (s', .error (.status e)) ∧
      s'.streamList.length < s.streamList.length := by
  rcases h with ⟨hvalid, h⟩
  have htemplates (h : ∃ template new, s.streamTemplate = some template ∧
      env.streamAlloc p = .ok () ∧ streamInit env p s.nextRef = .ok new ∧
      ∃ k stream, (unlinked template s.streamList.length s.streamList)[k]? = some stream ∧
        RoundFails env s k stream) :
      ∃ s' e, updateTemplateStreams env s p = (s', .error (.status e)) ∧
        s'.streamList.length < s.streamList.length := by
    rcases h with ⟨template, new, htemplate, halloc, hinit, k, stream, hk, hfails⟩
    have hlate := @convertStreams_late C A env template new s.streamList.length 0 s [] k stream hk
      (by rw [Nat.zero_add]; exact hfails)
    rcases hlate with ⟨s', e, hloop, hshort⟩
    refine ⟨s', e, ?_, hshort⟩
    simp only [updateTemplateStreams, htemplate, halloc, hinit, hloop]
  unfold srtpUpdateStream
  rw [hvalid, if_neg (by decide)]
  rcases h with ⟨htype, stream, hget, hfails⟩ | ⟨htype | htype, h⟩
  · rw [htype]
    have hshort : (s.eraseStream p.ssrcValue).streamList.length + 1 = s.streamList.length :=
      Lib.length_eraseFirst hget
    simp only [updateStream, hget, srtpRemoveStream]
    cases hdealloc : streamDealloc env stream s.streamTemplate with
    | error e => exact ⟨_, e, rfl, by omega⟩
    | ok u =>
        rcases hfails with ⟨e, he⟩ | hinit
        · rw [hdealloc] at he
          exact absurd he (by simp only [reduceCtorEq, not_false_eq_true])
        · have hadd : ∃ e, srtpAddStream env (s.eraseStream p.ssrcValue) p =
              (s.eraseStream p.ssrcValue, .error (.status e)) := addStream_initFails hvalid hinit
          rcases hadd with ⟨e, hadd⟩
          simp only [hadd]
          exact ⟨_, e, rfl, by omega⟩
  · rw [htype]
    exact htemplates h
  · rw [htype]
    exact htemplates h

/-- What an update leaves that is applied: as many streams as before, one of
    them or the template with new keys. -/
structure Applied (s s' : Session C A) : Prop where
  length_eq : s'.streamList.length = s.streamList.length
  nextRef_le : s.nextRef ≤ s'.nextRef
  hasNew : s'.HasNew s.nextRef

theorem updateTemplateStreams_applied {template : Stream C A}
    (htemplate : s.streamTemplate = some template) (hinit : ¬ InitFails env s p)
    (hrounds : ∀ new i stream, streamInit env p s.nextRef = .ok new →
      (unlinked template s.streamList.length s.streamList)[i]? = some stream →
      ¬ RoundFails env s i stream) :
    (∃ s', updateTemplateStreams env s p = (s', .ok ()) ∧ Applied s s') ∨
      (updateTemplateStreams env s p).2 = .error .fault := by
  rcases init_of_not_initFails hinit with ⟨halloc, ⟨new, hinit⟩ | hinit⟩
  · have hloop := @convertStreams_applied C A env template new s.streamList.length 0 s [] (by
      intro i stream hi
      rw [Nat.zero_add]
      exact hrounds new i stream hinit hi)
    rcases hloop with ⟨s', copies, hloop⟩
    have hconverts := convertStreams_converts _ hloop
    have hlength := hconverts.perm.length_eq
    simp only [List.length_append, List.length_map, List.length_nil, Nat.zero_add] at hlength
    refine Or.inl ⟨{ (s'.allocRefs new.refs.length).putTemplate new with
      streamList := copies ++ s'.streamList }, ?_, ?_, ?_, Or.inr ⟨new, rfl, new_streamInit hinit⟩⟩
    · simp only [updateTemplateStreams, htemplate, halloc, hinit, hloop]
    · simp only [List.length_append]
      exact hlength
    · simp only [Session.putTemplate, Session.allocRefs, hconverts.nextRef_eq]
      exact Nat.le_add_right _ _
  · right
    simp only [updateTemplateStreams, htemplate, halloc, hinit]

theorem updateStream_applied {old : Stream C A} (hvalid : validatePolicyMasterKeys p = true)
    (htype : p.ssrcType = .specific) (hget : s.getStream p.ssrcValue = some old)
    (hdealloc : streamDealloc env old s.streamTemplate = .ok ()) (hinit : ¬ InitFails env s p) :
    (∃ s', updateStream env s p = (s', .ok ()) ∧ Applied s s') ∨
      (updateStream env s p).2 = .error .fault := by
  have hshort : (s.eraseStream p.ssrcValue).streamList.length + 1 = s.streamList.length :=
    Lib.length_eraseFirst hget
  have hnext : (s.eraseStream p.ssrcValue).nextRef = s.nextRef := rfl
  simp only [updateStream, hget, srtpRemoveStream, hdealloc]
  rcases init_of_not_initFails hinit with ⟨halloc, ⟨tmp, hinit⟩ | hinit⟩
  · have hadd : srtpAddStream env (s.eraseStream p.ssrcValue) p =
        (((s.eraseStream p.ssrcValue).allocRefs tmp.refs.length).insertStream tmp, .ok ()) := by
      unfold srtpAddStream
      rw [hvalid, if_neg (by decide), halloc]
      simp only [hnext, hinit, htype]
    have hfound : (((s.eraseStream p.ssrcValue).allocRefs
        tmp.refs.length).insertStream tmp).getStream p.ssrcValue = some tmp := by
      rw [Session.getStream_insertStream, (streamInit_eq_ok hinit).1, if_pos rfl]
    have hput : (((s.eraseStream p.ssrcValue).allocRefs
        tmp.refs.length).insertStream tmp).putStream (tmp.restore old) =
        ((s.eraseStream p.ssrcValue).allocRefs tmp.refs.length).insertStream
          (tmp.restore old) := by
      simp only [Session.putStream, Session.insertStream, Lib.replaceFirst]
      rw [if_pos (show tmp.ssrc = (tmp.restore old).ssrc from rfl)]
    simp only [hadd, hfound, hput]
    refine Or.inl ⟨_, rfl, hshort, Nat.le_add_right _ _, Or.inl ?_⟩
    have hnew : ∀ n ∈ (tmp.restore old).refs, s.nextRef ≤ n := fun n hn => new_streamInit hinit n hn
    exact ⟨tmp.restore old, List.mem_cons_self, hnew⟩
  · have hadd : srtpAddStream env (s.eraseStream p.ssrcValue) p =
        (s.eraseStream p.ssrcValue, .error .fault) := by
      unfold srtpAddStream
      rw [hvalid, if_neg (by decide), halloc]
      simp only [hnext, hinit]
    right
    simp only [hadd]

/-- An update that does not fail: it is applied, or it has no defined end. -/
theorem srtpUpdateStream_applied (hrefused : ¬ Refused env s p) (hlate : ¬ FailsLate env s p) :
    (∃ s', srtpUpdateStream env s p = (s', .ok ()) ∧ Applied s s') ∨
      (srtpUpdateStream env s p).2 = .error .fault := by
  unfold Refused at hrefused
  rw [not_or, not_or, not_or, Bool.not_eq_false] at hrefused
  rcases hrefused with ⟨hvalid, hundefined, hnone, htemplates⟩
  have htemplate (htype : p.forTemplate) :
      (∃ s', updateTemplateStreams env s p = (s', .ok ()) ∧ Applied s s') ∨
        (updateTemplateStreams env s p).2 = .error .fault := by
    have hnot := not_or.mp fun h => htemplates ⟨htype, h⟩
    rcases Option.ne_none_iff_exists'.mp hnot.1 with ⟨template, htemplate⟩
    have halloc := (init_of_not_initFails hnot.2).1
    refine updateTemplateStreams_applied htemplate hnot.2 fun new i stream hinit hi hfails => ?_
    exact hlate ⟨hvalid, Or.inr ⟨htype, template, new, htemplate, halloc, hinit, i, stream, hi,
      hfails⟩⟩
  unfold srtpUpdateStream
  rw [hvalid, if_neg (by decide)]
  cases htype : p.ssrcType with
  | undefined => exact absurd htype hundefined
  | anyInbound => exact htemplate (Or.inl htype)
  | anyOutbound => exact htemplate (Or.inr htype)
  | specific =>
      cases hget : s.getStream p.ssrcValue with
      | none => exact absurd ⟨htype, hget⟩ hnone
      | some old =>
          have hnot := not_or.mp fun h => hlate ⟨hvalid, Or.inl ⟨htype, old, hget, h⟩⟩
          cases hdealloc : streamDealloc env old s.streamTemplate with
          | error e => exact absurd ⟨e, hdealloc⟩ hnot.1
          | ok u => exact updateStream_applied hvalid htype hget hdealloc hnot.2

end Calls

/-- Which updates return an error. -/
theorem srtpUpdateStream_fails_iff (env : Env C A) (s : Session C A) (p : Policy) :
    (∃ e, (srtpUpdateStream env s p).2 = .error (.status e)) ↔
      Refused env s p ∨ FailsLate env s p := by
  by_cases hrefused : Refused env s p
  · rcases srtpUpdateStream_refused hrefused with ⟨e, h⟩
    exact iff_of_true ⟨e, by rw [h]⟩ (Or.inl hrefused)
  by_cases hlate : FailsLate env s p
  · rcases srtpUpdateStream_late hlate with ⟨s', e, h, -⟩
    exact iff_of_true ⟨e, by rw [h]⟩ (Or.inr hlate)
  refine iff_of_false ?_ (not_or.mpr ⟨hrefused, hlate⟩)
  rintro ⟨e, he⟩
  rcases srtpUpdateStream_applied hrefused hlate with ⟨s', h, -⟩ | h
  · rw [h] at he
    exact absurd he (by simp only [reduceCtorEq, not_false_eq_true])
  · rw [h] at he
    exact absurd he (by simp only [Except.error.injEq, reduceCtorEq, not_false_eq_true])

/-- A policy that is applied. -/
theorem applied_of_ok {env : Env C A} {s : Session C A} {p : Policy}
    (hok : (srtpUpdateStream env s p).2 = .ok ()) :
    ¬ Refused env s p ∧ ¬ FailsLate env s p ∧ Applied s (srtpUpdateStream env s p).1 := by
  have hnone : ¬ (Refused env s p ∨ FailsLate env s p) := by
    rw [← srtpUpdateStream_fails_iff, hok]
    simp only [reduceCtorEq, exists_false, not_false_eq_true]
  rw [not_or] at hnone
  refine ⟨hnone.1, hnone.2, ?_⟩
  rcases srtpUpdateStream_applied hnone.1 hnone.2 with ⟨s', heq, happlied⟩ | hfault
  · rw [heq]
    exact happlied
  · rw [hok] at hfault
    exact absurd hfault (by simp only [reduceCtorEq, not_false_eq_true])

theorem Session.HasNew.mono {s : Session C A} {r r' : Nat} (h : s.HasNew r') (hle : r ≤ r') :
    s.HasNew r := by
  rcases h with ⟨stream, hmem, hn⟩ | ⟨template, hmem, hn⟩
  · exact Or.inl ⟨stream, hmem, fun n hmem' => Nat.le_trans hle (hn n hmem')⟩
  · exact Or.inr ⟨template, hmem, fun n hmem' => Nat.le_trans hle (hn n hmem')⟩

/-- There is at least one set of keys in a stream. -/
theorem exists_mem_refs (stream : Stream C A) : ∃ n, n ∈ stream.refs :=
  ⟨_, List.mem_map_of_mem (List.head_mem stream.keys_ne)⟩

/-- New keys are not those of a session before. -/
theorem not_same_of_hasNew {s t : Session C A} (hs : s.Numbered) (ht : t.HasNew s.nextRef) :
    ¬ (t.streamList = s.streamList ∧ t.streamTemplate = s.streamTemplate ∧
      t.limits = s.limits) := by
  rintro ⟨hlist, htemplate, -⟩
  rcases ht with ⟨stream, hmem, hnew⟩ | ⟨template, hmem, hnew⟩
  · rcases exists_mem_refs stream with ⟨n, hn⟩
    exact absurd (hs.1 stream (hlist ▸ hmem) n hn) (Nat.not_lt.mpr (hnew n hn))
  · rcases exists_mem_refs template with ⟨n, hn⟩
    rw [htemplate] at hmem
    exact absurd (hs.2 template hmem n hn) (Nat.not_lt.mpr (hnew n hn))

/-- The loop over the policies, one policy at a time. -/
theorem updateStreams_cons (env : Env C A) (s : Session C A) (p : Policy)
    (rest : List (Env C A × Policy)) :
    updateStreams s ((env, p) :: rest) =
      if (srtpUpdateStream env s p).2 = .ok () then
        updateStreams (srtpUpdateStream env s p).1 rest
      else srtpUpdateStream env s p := by
  rw [updateStreams]
  generalize srtpUpdateStream env s p = r
  rcases r with ⟨s', result⟩
  cases result with
  | error stop => rw [if_neg (by simp only [reduceCtorEq, not_false_eq_true])]
  | ok u => rw [if_pos rfl]

/-- Which lists of policies return an error. -/
theorem updateStreams_fails_iff (policies : List (Env C A × Policy)) : ∀ s : Session C A,
    (∃ e, (updateStreams s policies).2 = .error (.status e)) ↔ SomeFails s policies := by
  induction policies with
  | nil =>
      intro s
      simp only [updateStreams, reduceCtorEq, exists_false, SomeFails]
  | cons x rest ih =>
      intro s
      rcases x with ⟨env, p⟩
      rw [updateStreams_cons, SomeFails]
      by_cases hok : (srtpUpdateStream env s p).2 = .ok ()
      · rcases applied_of_ok hok with ⟨hrefused, hlate, -⟩
        rw [if_pos hok, ih]
        simp only [hrefused, hlate, hok, false_or, true_and]
      · rw [if_neg hok, srtpUpdateStream_fails_iff]
        simp only [hok, false_and, or_false]

/-- What a list of policies leaves that returns an error: the session as it was,
    fewer streams, or new keys. -/
theorem updateStreams_error (policies : List (Env C A × Policy)) : ∀ {s : Session C A} {e},
    (updateStreams s policies).2 = .error (.status e) → (updateStreams s policies).1 = s ∨
      (updateStreams s policies).1.streamList.length < s.streamList.length ∨
      (updateStreams s policies).1.HasNew s.nextRef := by
  induction policies with
  | nil =>
      intro s e he
      simp only [updateStreams, reduceCtorEq] at he
  | cons x rest ih =>
      intro s e he
      rcases x with ⟨env, p⟩
      rw [updateStreams_cons] at he ⊢
      by_cases hok : (srtpUpdateStream env s p).2 = .ok ()
      · rw [if_pos hok] at he ⊢
        have happlied := (applied_of_ok hok).2.2
        right
        rcases ih he with hsame | hshort | hnew
        · exact Or.inr (by rw [hsame]; exact happlied.hasNew)
        · exact Or.inl (by rw [← happlied.length_eq]; exact hshort)
        · exact Or.inr (hnew.mono happlied.nextRef_le)
      · rw [if_neg hok] at he ⊢
        rcases (srtpUpdateStream_fails_iff env s p).mp ⟨e, he⟩ with hrefused | hlate
        · rcases srtpUpdateStream_refused hrefused with ⟨e', heq⟩
          exact Or.inl (by rw [heq])
        · rcases srtpUpdateStream_late hlate with ⟨s', e', heq, hshort⟩
          exact Or.inr (Or.inl (by rw [heq]; exact hshort))

/-- One update is all or nothing unless it fails after it has unlinked a
    stream. -/
theorem allOrNothing_srtpUpdateStream (env : Env C A) (s : Session C A) (p : Policy) :
    AllOrNothing s (srtpUpdateStream env s p) ↔ ¬ FailsLate env s p := by
  constructor
  · intro hall hlate
    -- Streams that are missing show in the length of the list.
    rcases srtpUpdateStream_late hlate with ⟨s', e, heq, hshort⟩
    rw [heq] at hall
    exact absurd ((hall e rfl).1 ▸ hshort) (Nat.lt_irrefl _)
  · intro hlate e he
    rcases (srtpUpdateStream_fails_iff env s p).mp ⟨e, he⟩ with hrefused | hl
    · rcases srtpUpdateStream_refused hrefused with ⟨e', heq⟩
      rw [heq]
      exact ⟨rfl, rfl, rfl⟩
    · exact absurd hl hlate

/-- After a policy that is applied, any error leaves something behind. -/
theorem allOrNothing_updateStreams {s s' : Session C A} (hs : s.Numbered) (happlied : Applied s s')
    (policies : List (Env C A × Policy)) :
    AllOrNothing s (updateStreams s' policies) ↔ ¬ SomeFails s' policies := by
  rw [← updateStreams_fails_iff]
  constructor
  · rintro hall ⟨e, he⟩
    rcases updateStreams_error policies he with hsame | hshort | hnew
    · exact not_same_of_hasNew hs (hsame.symm ▸ happlied.hasNew) (hall e he)
    · rw [(hall e he).1, happlied.length_eq] at hshort
      exact absurd hshort (Nat.lt_irrefl _)
    · exact not_same_of_hasNew hs (hnew.mono happlied.nextRef_le) (hall e he)
  · intro hnot e he
    exact absurd ⟨e, he⟩ hnot

/-- When updates are all or nothing: an update of a stream or of the template
    unless it fails after it has unlinked a stream, and a list of updates
    unless it fails after it has changed something. -/
theorem update_all_or_nothing {s : Session C A} (hs : s.Numbered) :
    (∀ (env : Env C A) (p : Policy),
      AllOrNothing s (srtpUpdateStream env s p) ↔ ¬ FailsLate env s p) ∧
    ∀ policies : List (Env C A × Policy),
      AllOrNothing s (srtpUpdate s policies) ↔ ¬ UpdateFailsLate s policies := by
  refine ⟨fun env p => allOrNothing_srtpUpdateStream env s p, fun policies => ?_⟩
  cases policies with
  | nil => exact iff_of_true (fun _ _ => ⟨rfl, rfl, rfl⟩) id
  | cons x rest =>
  rcases x with ⟨env, p⟩
  unfold srtpUpdate UpdateFailsLate
  by_cases hvalid : validatePolicyMasterKeys p = false
  · have hrefused : Refused env s p := Or.inl hvalid
    rcases srtpUpdateStream_refused hrefused with ⟨e, heq⟩
    simp only [hvalid, if_true]
    refine iff_of_true (fun _ _ => ⟨rfl, rfl, rfl⟩) ?_
    rintro (⟨htrue, -⟩ | ⟨hok, -⟩)
    · exact absurd (htrue.symm.trans hvalid) (by decide)
    · rw [heq] at hok
      exact absurd hok (by simp only [reduceCtorEq, not_false_eq_true])
  simp only [if_neg hvalid]
  rw [updateStreams_cons]
  by_cases hok : (srtpUpdateStream env s p).2 = .ok ()
  · rcases applied_of_ok hok with ⟨-, hlate, happlied⟩
    rw [if_pos hok, allOrNothing_updateStreams hs happlied]
    simp only [hlate, false_or, hok, true_and]
  · rw [if_neg hok, allOrNothing_srtpUpdateStream]
    simp only [hok, false_and, or_false]

/-- The sample session. -/
theorem update_all_or_nothing_sample :
    (∀ (env : Env KeystreamCipher FixedAuth) (p : Policy),
      AllOrNothing (sampleSession .aesIcm128) (srtpUpdateStream env (sampleSession .aesIcm128) p) ↔
        ¬ FailsLate env (sampleSession .aesIcm128) p) ∧
    ∀ policies : List (Env KeystreamCipher FixedAuth × Policy),
      AllOrNothing (sampleSession .aesIcm128) (srtpUpdate (sampleSession .aesIcm128) policies) ↔
        ¬ UpdateFailsLate (sampleSession .aesIcm128) policies := by
  refine update_all_or_nothing ⟨?_, fun _ h => absurd h (Option.not_mem_none _)⟩
  intro stream hmem n hn
  rw [List.mem_singleton.mp (show stream ∈ [sampleStream .aesIcm128] from hmem)] at hn
  rw [List.mem_singleton.mp (show n ∈ [0] from hn)]
  exact Nat.zero_lt_one

/-- An update with a replay window that is too small loses the stream. -/
theorem update_loses_stream :
    ¬ ∀ (env : Env KeystreamCipher FixedAuth) (s : Session KeystreamCipher FixedAuth)
      (p : Policy), AllOrNothing s (srtpUpdateStream env s p) := by
  intro h
  have hall := h sampleEnv (sampleSession .aesIcm128)
    { samplePolicy .specific 1 with windowSize := 1 } .badParam rfl
  exact absurd (congrArg List.length hall.1) (by decide)

end Srtp

end CryptoOpal

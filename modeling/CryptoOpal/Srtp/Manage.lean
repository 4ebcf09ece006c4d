import CryptoOpal.Srtp.Policy

/-!
# Adding, Removing and Updating Streams

The session functions that change the list of streams: `srtp_add_stream`,
`srtp_create`, `srtp_remove_stream` and the two kinds of `srtp_update_stream`.

An update of one stream removes it and adds a new one. An update of the
template makes a new template, and then for each copy of the old one removes
it and makes a copy of the new. It tells the copies by their first
authentication function, which they share with the template. Either way the
new stream takes over the index and the RTCP database of the old one, and
nothing else.

Neither update looks ahead. What fails halfway stays halfway.

The loop over the copies ends because each round removes a stream, so as many
rounds as there are streams are enough.

## Main definitions

* `Session.allocRefs`: Numbers and limits for new keys.
* `srtpAddStream`, `srtpCreate`: New streams.
* `srtpRemoveStream`: Unlinking a stream.
* `updateTemplateStreams`, `updateStream`, `srtpUpdateStream`: Updates.
* `srtpUpdate`: Updates by a list of policies.

## Theorems

* `addStream_error`, `addStream_ok`: What adding does to a session.
* `convertStreams_converts`: What the loop over the copies does.
* `convertStreams_left`: The loop leaves no copy of the old template.
-/

namespace CryptoOpal

namespace Srtp

variable {C A : Type}

/-- The limits of `n` new sets of session keys, and their numbers. -/
def Session.allocRefs (s : Session C A) (n : Nat) : Session C A :=
  { s with
    limits := fun r =>
      if s.nextRef ≤ r ∧ r < s.nextRef + n then { numLeft := 0xffffffffffff, state := .normal }
      else s.limits r
    nextRef := s.nextRef + n }

/-- `srtp_add_stream`. -/
def srtpAddStream (env : Env C A) (s : Session C A) (p : Policy) :
    Session C A × Except Stop Unit :=
  if validatePolicyMasterKeys p = false then (s, .error (.status .badParam))
  else
    match env.streamAlloc p with
    | .error e => (s, .error (.status e))
    | .ok _ =>
      match streamInit env p s.nextRef with
      | .error stop => (s, .error stop)
      | .ok tmp =>
        match p.ssrcType, s.streamTemplate with
        -- if the template stream has already been set, then the policy is inconsistent
        | .anyOutbound, some _ => (s, .error (.status .badParam))
        | .anyOutbound, none =>
          ((s.allocRefs tmp.refs.length).putTemplate { tmp with direction := .srtpSender }, .ok ())
        | .anyInbound, some _ => (s, .error (.status .badParam))
        | .anyInbound, none =>
          ((s.allocRefs tmp.refs.length).putTemplate { tmp with direction := .srtpReceiver },
            .ok ())
        | .specific, _ => ((s.allocRefs tmp.refs.length).insertStream tmp, .ok ())
        | .undefined, _ => (s, .error (.status .badParam))

/-- A session without streams. -/
def Session.empty : Session C A :=
  { streamList := [], streamTemplate := none
    limits := fun _ => { numLeft := 0, state := .normal }, nextRef := 0 }

/-- The loop of `srtp_create` over the policies. -/
def addStreams : Session C A → List (Env C A × Policy) → Except Stop (Session C A)
  | s, [] => .ok s
  | s, (env, p) :: rest =>
    match srtpAddStream env s p with
    | (_, .error stop) => .error stop
    | (s, .ok _) => addStreams s rest

/-- `srtp_create`, once the session itself is allocated. -/
def srtpCreate (policies : List (Env C A × Policy)) : Except Stop (Session C A) :=
  addStreams Session.empty policies

/-- `srtp_stream_dealloc`. What a stream shares with the template stays. -/
def streamDealloc (env : Env C A) (stream : Stream C A) (template : Option (Stream C A)) :
    Except SrtpErrStatus Unit :=
  if template.map Stream.refs = some stream.refs then .ok ()
  else env.dealloc stream.firstKeys.ref

/-- The list without the first stream of an SSRC. -/
def Session.eraseStream (s : Session C A) (ssrc : UInt32) : Session C A :=
  { s with streamList := Lib.eraseFirst Stream.ssrc ssrc s.streamList }

/-- `srtp_remove_stream`. The stream is unlinked before it is taken down. -/
def srtpRemoveStream (env : Env C A) (s : Session C A) (ssrc : UInt32) :
    Session C A × Except SrtpErrStatus Unit :=
  match s.getStream ssrc with
  | none => (s, .error .noCtx)
  | some stream => (s.eraseStream ssrc, streamDealloc env stream s.streamTemplate)

/-- What an update keeps of the old stream. -/
def Stream.restore (stream old : Stream C A) : Stream C A :=
  { stream with
    rtpRdbx := { stream.rtpRdbx with index := old.rtpRdbx.index }
    rtcpRdb := old.rtcpRdb }

/-- The stream has the template's first authentication function. -/
def Stream.copyOf (stream template : Stream C A) : Bool :=
  decide (stream.firstKeys.ref = template.firstKeys.ref)

/-- The loop of `update_template_streams` for all old templated streams, with
    the number of rounds left, that of copies made and the new list so far. -/
def convertStreams (env : Env C A) (template new : Stream C A) :
    Nat → Nat → Session C A → List (Stream C A) →
      Session C A × Except SrtpErrStatus (List (Stream C A))
  | 0, _, s, copies => (s, .ok copies)
  | n + 1, k, s, copies =>
    match s.streamList.find? fun stream => stream.copyOf template with
    -- no more templated streams
    | none => (s, .ok copies)
    | some old =>
      match srtpRemoveStream env s old.ssrc with
      | (s, .error e) => (s, .error e)
      | (s, .ok _) =>
        match env.cloneAlloc k with
        | .error e => (s, .error e)
        | .ok _ =>
          convertStreams env template new n (k + 1) s ((new.clone old.ssrc).restore old :: copies)

/-- `update_template_streams`. -/
def updateTemplateStreams (env : Env C A) (s : Session C A) (p : Policy) :
    Session C A × Except Stop Unit :=
  match s.streamTemplate with
  | none => (s, .error (.status .badParam))
  | some template =>
    match env.streamAlloc p with
    | .error e => (s, .error (.status e))
    | .ok _ =>
      match streamInit env p s.nextRef with
      | .error stop => (s, .error stop)
      | .ok new =>
        match convertStreams env template new s.streamList.length 0 s [] with
        | (s, .error e) => (s, .error (.status e))
        | (s, .ok copies) =>
          ({ (s.allocRefs new.refs.length).putTemplate new with
              streamList := copies ++ s.streamList },
            .ok ())

/-- `update_stream`. -/
def updateStream (env : Env C A) (s : Session C A) (p : Policy) :
    Session C A × Except Stop Unit :=
  match s.getStream p.ssrcValue with
  | none => (s, .error (.status .badParam))
  | some old =>
    match srtpRemoveStream env s p.ssrcValue with
    | (s, .error e) => (s, .error (.status e))
    | (s, .ok _) =>
      match srtpAddStream env s p with
      | (s, .error stop) => (s, .error stop)
      | (s, .ok _) =>
        match s.getStream p.ssrcValue with
        | none => (s, .error (.status .fail))
        | some stream => (s.putStream (stream.restore old), .ok ())

/-- `srtp_update_stream`. -/
def srtpUpdateStream (env : Env C A) (s : Session C A) (p : Policy) :
    Session C A × Except Stop Unit :=
  if validatePolicyMasterKeys p = false then (s, .error (.status .badParam))
  else
    match p.ssrcType with
    | .anyOutbound => updateTemplateStreams env s p
    | .anyInbound => updateTemplateStreams env s p
    | .specific => updateStream env s p
    | .undefined => (s, .error (.status .badParam))

/-- The loop of `srtp_update` over the policies. -/
def updateStreams : Session C A → List (Env C A × Policy) → Session C A × Except Stop Unit
  | s, [] => (s, .ok ())
  | s, (env, p) :: rest =>
    match srtpUpdateStream env s p with
    | (s, .error stop) => (s, .error stop)
    | (s, .ok _) => updateStreams s rest

/-- `srtp_update`. Only the first policy is looked at before the loop. -/
def srtpUpdate (s : Session C A) (policies : List (Env C A × Policy)) :
    Session C A × Except Stop Unit :=
  match policies with
  | [] => (s, .error (.status .badParam))
  | (_, p) :: _ =>
    if validatePolicyMasterKeys p = false then (s, .error (.status .badParam))
    else updateStreams s policies

section Calls

variable {env : Env C A} {s : Session C A} {p : Policy}

/-- A policy that is refused leaves the session as it was. -/
theorem addStream_error {stop : Stop} (h : (srtpAddStream env s p).2 = .error stop) :
    (srtpAddStream env s p).1 = s := by
  unfold srtpAddStream at h ⊢
  split
  · rfl
  rename_i hvalid
  rw [if_neg hvalid] at h
  cases halloc : env.streamAlloc p with
  | error e => rfl
  | ok u =>
  cases hinit : streamInit env p s.nextRef with
  | error e => rfl
  | ok tmp =>
  simp only [halloc, hinit] at h ⊢
  split
  · rfl
  · rename_i htype htemplate
    simp only [htype, htemplate, reduceCtorEq] at h
  · rfl
  · rename_i htype htemplate
    simp only [htype, htemplate, reduceCtorEq] at h
  · rename_i htype
    simp only [htype, reduceCtorEq] at h
  · rfl

/-- A policy that is taken makes a new stream of the list, or the template. -/
theorem addStream_ok (h : (srtpAddStream env s p).2 = .ok ()) :
    ∃ tmp, streamInit env p s.nextRef = .ok tmp ∧
      ((p.ssrcType = .specific ∧
          (srtpAddStream env s p).1 = (s.allocRefs tmp.refs.length).insertStream tmp) ∨
        (p.ssrcType ≠ .specific ∧ s.streamTemplate = none ∧ ∃ dir, (srtpAddStream env s p).1 =
          (s.allocRefs tmp.refs.length).putTemplate { tmp with direction := dir })) := by
  unfold srtpAddStream at h ⊢
  split at h
  · exact absurd h (by simp only [reduceCtorEq, not_false_eq_true])
  rename_i hvalid
  rw [if_neg hvalid]
  cases halloc : env.streamAlloc p with
  | error e => simp only [halloc, reduceCtorEq] at h
  | ok u =>
  cases hinit : streamInit env p s.nextRef with
  | error e => simp only [halloc, hinit, reduceCtorEq] at h
  | ok tmp =>
  simp only [halloc, hinit] at h ⊢
  refine ⟨tmp, rfl, ?_⟩
  cases htype : p.ssrcType with
  | undefined => simp only [htype, reduceCtorEq] at h
  | specific => exact Or.inl ⟨rfl, rfl⟩
  | anyInbound =>
      cases htemplate : s.streamTemplate with
      | some t => simp only [htype, htemplate, reduceCtorEq] at h
      | none => exact Or.inr ⟨by decide, rfl, _, rfl⟩
  | anyOutbound =>
      cases htemplate : s.streamTemplate with
      | some t => simp only [htype, htemplate, reduceCtorEq] at h
      | none => exact Or.inr ⟨by decide, rfl, _, rfl⟩

end Calls

section Conversion

variable {env : Env C A} {template new : Stream C A} {k : Nat} {s s' : Session C A}
  {copies copies' : List (Stream C A)}

/-- One round of the loop over the copies of a template, if it does not fail:
    there is no copy left, or one is unlinked and made anew. -/
theorem convertStreams_round {n : Nat}
    (h : convertStreams env template new (n + 1) k s copies = (s', .ok copies')) :
    ((∀ stream ∈ s.streamList, stream.copyOf template = false) ∧ s' = s ∧ copies' = copies) ∨
      ∃ old removed, s.getStream old.ssrc = some removed ∧
        convertStreams env template new n (k + 1) (s.eraseStream old.ssrc)
          ((new.clone old.ssrc).restore old :: copies) = (s', .ok copies') := by
  rw [convertStreams] at h
  cases hfind : s.streamList.find? fun stream => stream.copyOf template with
  | none =>
      simp only [hfind, Prod.mk.injEq, Except.ok.injEq] at h
      refine Or.inl ⟨fun stream hmem => ?_, h.1.symm, h.2.symm⟩
      exact Bool.eq_false_iff.mpr (List.find?_eq_none.mp hfind stream hmem)
  | some old =>
      simp only [hfind] at h
      unfold srtpRemoveStream at h
      cases hget : s.getStream old.ssrc with
      | none => simp only [hget, Prod.mk.injEq, reduceCtorEq, and_false] at h
      | some removed =>
      cases hdealloc : streamDealloc env removed s.streamTemplate with
      | error e => simp only [hget, hdealloc, Prod.mk.injEq, reduceCtorEq, and_false] at h
      | ok u =>
      cases hclone : env.cloneAlloc k with
      | error e => simp only [hget, hdealloc, hclone, Prod.mk.injEq, reduceCtorEq, and_false] at h
      | ok u =>
          simp only [hget, hdealloc, hclone] at h
          exact Or.inr ⟨old, removed, hget, h⟩

/-- What the loop over the copies of a template does: it takes streams off the
    list, one for each copy it makes. -/
structure Converts (new : Stream C A) (s s' : Session C A) (copies copies' : List (Stream C A)) :
    Prop where
  template_eq : s'.streamTemplate = s.streamTemplate
  nextRef_eq : s'.nextRef = s.nextRef
  limits_eq : s'.limits = s.limits
  sublist : s'.streamList.Sublist s.streamList
  perm : (copies'.map Stream.ssrc ++ s'.streamList.map Stream.ssrc).Perm
    (copies.map Stream.ssrc ++ s.streamList.map Stream.ssrc)
  refs : (∀ c ∈ copies, c.refs = new.refs) → ∀ c ∈ copies', c.refs = new.refs

theorem Converts.refl (new : Stream C A) (s : Session C A) (copies : List (Stream C A)) :
    Converts new s s copies copies :=
  ⟨rfl, rfl, rfl, List.Sublist.refl _, List.Perm.refl _, id⟩

theorem convertStreams_converts (n : Nat) :
    ∀ {k : Nat} {s s' : Session C A} {copies copies' : List (Stream C A)},
      convertStreams env template new n k s copies = (s', .ok copies') →
      Converts new s s' copies copies' := by
  induction n with
  | zero =>
      intro k s s' copies copies' h
      simp only [convertStreams, Prod.mk.injEq, Except.ok.injEq] at h
      rw [← h.1, ← h.2]
      exact Converts.refl new s copies
  | succ n ih =>
      intro k s s' copies copies' h
      rcases convertStreams_round h with ⟨-, rfl, rfl⟩ | ⟨old, removed, hget, hrest⟩
      · exact Converts.refl new _ _
      have hrest := ih hrest
      have hperm := (Lib.perm_eraseFirst hget).map Stream.ssrc
      rw [List.map_cons, Session.ssrc_of_getStream hget] at hperm
      refine ⟨hrest.template_eq, hrest.nextRef_eq, hrest.limits_eq,
        hrest.sublist.trans Lib.eraseFirst_sublist, hrest.perm.trans ?_, fun hc => hrest.refs ?_⟩
      · -- The SSRC moves from the list to the copies.
        rw [List.map_cons, List.cons_append]
        exact List.perm_middle.symm.trans (hperm.append_left _)
      · intro c hmem
        rcases List.mem_cons.mp hmem with rfl | hmem
        · rfl
        · exact hc c hmem

/-- With as many rounds as there are streams, the loop leaves no copy of the old
    template. -/
theorem convertStreams_left (n : Nat) :
    ∀ {k : Nat} {s s' : Session C A} {copies copies' : List (Stream C A)},
      s.streamList.length ≤ n → convertStreams env template new n k s copies = (s', .ok copies') →
      ∀ stream ∈ s'.streamList, stream.copyOf template = false := by
  induction n with
  | zero =>
      intro k s s' copies copies' hlen h stream hmem
      simp only [convertStreams, Prod.mk.injEq] at h
      rw [← h.1, List.eq_nil_of_length_eq_zero (Nat.le_zero.mp hlen)] at hmem
      exact absurd hmem List.not_mem_nil
  | succ n ih =>
      intro k s s' copies copies' hlen h
      rcases convertStreams_round h with ⟨hnone, rfl, rfl⟩ | ⟨old, removed, hget, hrest⟩
      · exact hnone
      · have hshort : (s.eraseStream old.ssrc).streamList.length + 1 = s.streamList.length :=
          Lib.length_eraseFirst hget
        exact ih (by omega) hrest

end Conversion

end Srtp

end CryptoOpal

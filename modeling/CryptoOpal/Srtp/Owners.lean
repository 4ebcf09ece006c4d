import CryptoOpal.Lib.Registry
import CryptoOpal.Srtp.Manage
import CryptoOpal.Srtp.Memory
import CryptoOpal.Srtp.ProtectRtcp

/-!
# A Session as a Table of Owners

A session seen as a `Lib.Registry`: the streams own sets of session keys
under their SSRC, and the copies of the template share those of the template.

Every session function changes this table in one of the few ways that
`Lib.Registry.Change` allows. The packet functions at most add a copy of the
template, for an SSRC that has no stream. The functions that manage streams
add, unlink and convert. The one exception is `srtp_add_stream`, which does
not look whether there is a stream with the SSRC already.

A packet that goes through goes by keys that are in the table.

## Main definitions

* `Session.registry`: The table of a session.

## Theorems

* `changes_protect`, `changes_unprotect` and their RTCP companions: The packet
  functions.
* `changes_addStream`, `changes_srtpUpdateStream`: The management functions.
* `supplies_protect` and its companions: The keys of a packet.
-/

namespace CryptoOpal

namespace Srtp

open Lib (Octets Registry)
open Lib.Registry (Change)
open Relation (ReflTransGen)

variable {C A : Type}

/-- The table of a session: who has which keys, by their numbers. -/
def Session.registry (s : Session C A) : Registry UInt32 :=
  { entries := s.streamList.map fun stream => (stream.ssrc, stream.refs)
    template := s.streamTemplate.map Stream.refs
    next := s.nextRef }

namespace Session

variable {s : Session C A} {stream old : Stream C A} {ssrc : UInt32}

theorem owners_registry (s : Session C A) :
    s.registry.owners = s.streamList.map Stream.ssrc := by
  unfold registry Registry.owners
  rw [List.map_map]
  rfl

theorem getStream_eq_none : s.getStream ssrc = none ↔ ssrc ∉ s.registry.owners := by
  rw [owners_registry]
  exact Lib.findKey_eq_none

theorem findKey_registry (s : Session C A) (ssrc : UInt32) :
    Lib.findKey Prod.fst s.registry.entries ssrc =
      (s.getStream ssrc).map fun stream => (stream.ssrc, stream.refs) :=
  Lib.findKey_map fun _ => rfl

/-- A change in place to a stream's state does not show. -/
theorem registry_putStream (hget : s.getStream stream.ssrc = some old)
    (hrefs : stream.refs = old.refs) : (s.putStream stream).registry = s.registry := by
  unfold registry putStream
  rw [Lib.map_replaceFirst_of_eq hget]
  rw [ssrc_of_getStream hget, hrefs]

theorem registry_putTemplate (htemplate : s.streamTemplate = some old)
    (hrefs : stream.refs = old.refs) : (s.putTemplate stream).registry = s.registry := by
  unfold registry putTemplate
  rw [htemplate, Option.map_some, Option.map_some, hrefs]

/-- A copy of the template for an SSRC without a stream. -/
theorem change_clone (hget : s.getStream stream.ssrc = none)
    (htemplate : s.registry.template = some stream.refs) :
    Change s.registry (s.insertStream stream).registry :=
  .cloned stream.ssrc stream.refs htemplate (getStream_eq_none.mp hget)

/-- Keys of a stream in the list are in the table. -/
theorem supplies_stream {n : Nat} (hget : s.getStream ssrc = some stream) (hn : n ∈ stream.refs) :
    s.registry.Supplies n :=
  Or.inl ⟨(stream.ssrc, stream.refs), List.mem_map_of_mem (Lib.mem_of_findKey hget), hn⟩

theorem supplies_template {n : Nat} (htemplate : s.streamTemplate = some stream)
    (hn : n ∈ stream.refs) : s.registry.Supplies n := by
  refine Or.inr ⟨stream.refs, ?_, hn⟩
  unfold registry
  rw [htemplate]
  rfl

end Session

theorem Stream.refs_congr {stream old : Stream C A} (h : stream.keying = old.keying) :
    stream.refs = old.refs :=
  congrArg (fun keying => keying.sessionKeys.map SessionKeys.ref) h

theorem Stream.ref_mem {stream : Stream C A} {keys : SessionKeys C A}
    (h : keys ∈ stream.sessionKeys) : keys.ref ∈ stream.refs :=
  List.mem_map_of_mem h

section Packets

variable {s s₁ : Session C A} {stream : Stream C A} {ssrc : UInt32} {rtp : Bool}

/-- Finding the stream to send on adds a copy of the template at most. -/
theorem changes_outgoing (h : s.outgoing ssrc rtp = .ok (s₁, stream)) :
    ReflTransGen Change s.registry s₁.registry := by
  rcases outgoing_cases h with ⟨old, hget, hstream, hs₁⟩ |
    ⟨template, dir, hget, htemplate, hstream, hs₁⟩
  · have hssrc : stream.ssrc = ssrc := ssrc_outgoing h
    have hput : (s.putStream stream).registry = s.registry := by
      refine Session.registry_putStream (by rw [hssrc]; exact hget) (Stream.refs_congr ?_)
      rw [hstream, Stream.keying_claimDirection]
    rw [hs₁, hput]
  · have hclone : Change s.registry (s.insertStream stream).registry := by
      refine Session.change_clone (by rw [ssrc_outgoing h]; exact hget) ?_
      unfold Session.registry
      rw [htemplate, hstream]
      rfl
    rw [hs₁]
    exact .single hclone

/-- The keys of the stream to send on are in the table. -/
theorem supplies_outgoing {n : Nat} (h : s.outgoing ssrc rtp = .ok (s₁, stream))
    (hn : n ∈ stream.refs) : s.registry.Supplies n := by
  rcases outgoing_cases h with ⟨old, hget, hstream, -⟩ | ⟨template, dir, -, htemplate, hstream, -⟩
  · have hrefs : stream.refs = old.refs :=
      Stream.refs_congr (by rw [hstream, Stream.keying_claimDirection])
    exact Session.supplies_stream hget (hrefs ▸ hn)
  · have hrefs : stream.refs = template.refs := by
      rw [hstream]
      rfl
    exact Session.supplies_template htemplate (hrefs ▸ hn)

/-- The stream that was found to send on, put back with the same keys. -/
theorem registry_sent {stream' : Stream C A} (h : s.outgoing ssrc rtp = .ok (s₁, stream))
    (hssrc : stream'.ssrc = stream.ssrc) (hkeying : stream'.keying = stream.keying) :
    (s₁.putStream stream').registry = s₁.registry := by
  refine Session.registry_putStream ?_ (Stream.refs_congr hkeying)
  rw [hssrc, ssrc_outgoing h, getStream_outgoing h, if_pos rfl]

/-- A packet that is accepted on a stream. -/
theorem changes_accepted {new : Stream C A} (hget : s.getStream new.ssrc = some stream)
    (hkeying : new.keying = stream.keying) :
    ReflTransGen Change s.registry (s.putStream new).registry := by
  rw [Session.registry_putStream hget (Stream.refs_congr hkeying)]

/-- A packet that is accepted by way of the template makes a stream of its
    own. -/
theorem changes_accepted_template {new template : Stream C A}
    (hget : s.getStream new.ssrc = none) (htemplate : s.streamTemplate = some stream)
    (hsame : template.keying = stream.keying) (hkeying : new.keying = stream.keying) :
    ReflTransGen Change s.registry ((s.putTemplate template).insertStream new).registry := by
  have hput := Session.registry_putTemplate htemplate (Stream.refs_congr hsame)
  rw [← hput]
  refine .single (Session.change_clone hget ?_)
  rw [hput, Stream.refs_congr hkeying]
  unfold Session.registry
  rw [htemplate]
  rfl

variable [CipherType C] [AuthType A]

theorem changes_protect (s : Session C A) (pkt : Octets) (useMki : Bool) (mkiIndex : Nat) :
    ReflTransGen Change s.registry (srtpProtectMki s pkt useMki mkiIndex).1.registry := by
  have hstep := protect_cases s pkt useMki mkiIndex
  generalize srtpProtectMki s pkt useMki mkiIndex = r at hstep
  rcases r with ⟨s', result⟩
  -- A stream that has taken an index is put back with its keys.
  have htaken {s₁ : Session C A} {stream stream' : Stream C A} {keys : SessionKeys C A} {est : Nat}
      (hout : s.outgoing (hdrSsrc pkt) true = .ok (s₁, stream))
      (hindex : stream.TakesIndex keys (hdrSeq pkt) stream' est) :
      ReflTransGen Change s.registry ((s₁.useKey keys).1.putStream stream').registry := by
    have hframe := takesIndex_frame hindex
    have hsame := registry_sent hout hframe.1 hframe.2
    exact hsame.symm ▸ changes_outgoing hout
  cases hstep with
  | refused e => exact .refl
  | counted s₁ stream e hout =>
      change ReflTransGen Change s.registry s₁.registry
      exact changes_outgoing hout
  | taken s₁ stream stream' est e hout hindex => exact htaken hout hindex
  | sent s₁ stream stream' est o hout hlimit hindex hseal => exact htaken hout hindex

theorem supplies_protect {pkt : Octets} {useMki : Bool} {mkiIndex : Nat} {p : Protected C}
    (hok : (srtpProtectMki s pkt useMki mkiIndex).2 = .ok p) : s.registry.Supplies p.ref := by
  rcases protect_ok hok with ⟨s₁, stream, stream', est, o, hout, -, -, -, rfl, -⟩
  exact supplies_outgoing hout (Stream.ref_mem (stream.keysAt_mem useMki mkiIndex))

theorem changes_protectRtcp (s : Session C A) (pkt : Octets) (useMki : Bool) (mkiIndex : Nat) :
    ReflTransGen Change s.registry (srtpProtectRtcpMki s pkt useMki mkiIndex).1.registry := by
  unfold srtpProtectRtcpMki
  split
  · exact .refl
  split
  · exact .refl
  rename_i s₁ stream hout
  simp only
  split
  · exact changes_outgoing hout
  rename_i rdb hinc
  have hsame : (s₁.putStream { stream with rtcpRdb := rdb }).registry = s₁.registry :=
    registry_sent hout rfl rfl
  split
  · exact hsame.symm ▸ changes_outgoing hout
  · exact hsame.symm ▸ changes_outgoing hout

theorem supplies_protectRtcp {pkt : Octets} {useMki : Bool} {mkiIndex : Nat}
    {p : ProtectedRtcp C} (hok : (srtpProtectRtcpMki s pkt useMki mkiIndex).2 = .ok p) :
    s.registry.Supplies p.ref := by
  rcases protectRtcp_ok hok with ⟨s₁, stream, rdb, o, -, hout, -, -, rfl, -⟩
  exact supplies_outgoing hout (Stream.ref_mem (stream.keysAt_mem useMki mkiIndex))

theorem changes_unprotect (s : Session C A) (pkt : Octets) (useMki : Bool) :
    ReflTransGen Change s.registry (srtpUnprotectMki s pkt useMki).1.registry := by
  have hstep := unprotect_cases s pkt useMki
  generalize srtpUnprotectMki s pkt useMki = r at hstep
  rcases r with ⟨s', result⟩
  cases hstep with
  | refused stop => exact .refl
  | counted inc keys mkiSize stop hinc hkeys => exact .refl
  | accepted inc keys mkiSize body hinc hkeys hlimit hopens =>
      change ReflTransGen Change (s.useKey keys).1.registry
        ((s.useKey keys).1.accept inc pkt (inc.advance && !keys.isGcm)).registry
      unfold Session.accept
      rcases incoming_cases hinc with ⟨hprov, hget, -⟩ | ⟨hprov, hget, htemplate, -⟩
      · rw [hprov, if_neg (by decide)]
        refine changes_accepted ?_
          ((Stream.keying_record _ _ _ _).trans (Stream.keying_claimDirection _ _))
        rw [Stream.ssrc_record, Stream.ssrc_claimDirection, Session.ssrc_of_getStream hget]
        exact hget
      · rw [hprov, if_pos rfl]
        refine changes_accepted_template ?_ htemplate (Stream.keying_claimDirection _ _)
          ((Stream.keying_record _ _ _ _).trans (Stream.keying_claimDirection _ _))
        rw [Stream.ssrc_record, Stream.ssrc_clone]
        exact hget

theorem supplies_unprotect {pkt : Octets} {useMki : Bool} {u : Unprotected}
    (hok : (srtpUnprotectMki s pkt useMki).2 = .ok u) : s.registry.Supplies u.ref := by
  rcases unprotect_ok hok with ⟨inc, keys, mkiSize, body, hinc, hkeys, -, -, rfl, -⟩
  have href := Stream.ref_mem (mem_of_selectKeys hkeys).1
  rcases incoming_cases hinc with ⟨-, hget, -⟩ | ⟨-, -, htemplate, -⟩
  · exact Session.supplies_stream hget href
  · exact Session.supplies_template htemplate href

theorem changes_unprotectRtcp (s : Session C A) (pkt : Octets) (useMki : Bool)
    (tmpTag : Octets) :
    ReflTransGen Change s.registry (srtpUnprotectRtcpMki s pkt useMki tmpTag).1.registry := by
  cases hresult : (srtpUnprotectRtcpMki s pkt useMki tmpTag).2 with
  | error stop => rw [unprotectRtcp_error hresult]
  | ok u =>
      rcases unprotectRtcp_ok hresult with ⟨stream, provisional, hinc, -, hsession⟩
      rw [hsession]
      unfold Session.acceptRtcp
      rcases incomingRtcp_cases hinc with ⟨hprov, hget⟩ | ⟨hprov, hget, htemplate⟩
      · rw [hprov, if_neg (by decide)]
        refine changes_accepted ?_ (Stream.keying_claimDirection stream _)
        change s.getStream (stream.claimDirection .srtpReceiver).ssrc = some stream
        rw [Stream.ssrc_claimDirection, Session.ssrc_of_getStream hget]
        exact hget
      · rw [hprov, if_pos rfl]
        exact changes_accepted_template hget htemplate (Stream.keying_claimDirection stream _)
          (Stream.keying_claimDirection stream _)

theorem supplies_unprotectRtcp {pkt : Octets} {useMki : Bool} {tmpTag : Octets}
    {u : UnprotectedRtcp} (hok : (srtpUnprotectRtcpMki s pkt useMki tmpTag).2 = .ok u) :
    s.registry.Supplies u.ref := by
  rcases unprotectRtcp_ok hok with ⟨stream, provisional, hinc, hopen, -⟩
  have href : u.ref ∈ stream.refs := by
    simp only [openRtcpPacket, bind_eq_ok, Prod.exists, Except.ok.injEq] at hopen
    rcases hopen with ⟨keys, mkiSize, hkeys, -, -, body, seq, -, rfl⟩
    exact Stream.ref_mem (mem_of_selectKeys hkeys).1
  rcases incomingRtcp_cases hinc with ⟨-, hget⟩ | ⟨-, -, htemplate⟩
  · exact Session.supplies_stream hget href
  · exact Session.supplies_template htemplate href

end Packets

section Management

variable {env : Env C A} {s : Session C A} {p : Policy}

/-- The keys of a new stream are new. -/
theorem fresh_streamInit {tmp : Stream C A} (h : streamInit env p s.nextRef = .ok tmp) :
    s.registry.Fresh tmp.refs (s.nextRef + tmp.refs.length) := by
  have hrefs := (streamInit_eq_ok h).2.1
  refine ⟨Nat.le_add_right _ _, fun n hn => ?_⟩
  rw [hrefs] at hn ⊢
  rw [List.length_range']
  rw [List.mem_range'_1] at hn
  exact hn

/-- Adding a stream, if there is none with its SSRC. -/
theorem changes_addStream (hnew : p.ssrcType = .specific → s.getStream p.ssrcValue = none) :
    ReflTransGen Change s.registry (srtpAddStream env s p).1.registry := by
  cases hresult : (srtpAddStream env s p).2 with
  | error stop => rw [addStream_error hresult]
  | ok u =>
      rcases addStream_ok hresult with ⟨tmp, hinit, ⟨htype, hs⟩ | ⟨-, htemplate, dir, hs⟩⟩
      · rw [hs]
        have hssrc := (streamInit_eq_ok hinit).1
        refine .single (.added tmp.ssrc tmp.refs _ ?_ (fresh_streamInit hinit))
        rw [← Session.getStream_eq_none, hssrc]
        exact hnew htype
      · rw [hs]
        have hnone : s.registry.template = none := by
          unfold Session.registry
          rw [htemplate]
          rfl
        exact .single (.started tmp.refs _ hnone (fresh_streamInit hinit))

theorem registry_eraseStream (s : Session C A) (ssrc : UInt32) :
    (s.eraseStream ssrc).registry =
      ⟨Lib.eraseFirst Prod.fst ssrc s.registry.entries, s.registry.template, s.registry.next⟩ := by
  unfold Session.eraseStream Session.registry
  simp only [Lib.map_eraseFirst (fun (stream : Stream C A) =>
    (rfl : Prod.fst (stream.ssrc, stream.refs) = stream.ssrc))]

theorem changes_removeStream (env : Env C A) (s : Session C A) (ssrc : UInt32) :
    ReflTransGen Change s.registry (srtpRemoveStream env s ssrc).1.registry := by
  unfold srtpRemoveStream
  split
  · exact .refl
  · simp only [registry_eraseStream]
    exact .single (.removed ssrc)

/-- Whatever comes of the loop over the copies, all it does to the session is to
    unlink streams. -/
theorem changes_convertStreams (env : Env C A) (template new : Stream C A) (n : Nat) :
    ∀ (k : Nat) (s : Session C A) (copies : List (Stream C A)),
      ReflTransGen Change s.registry (convertStreams env template new n k s copies).1.registry := by
  induction n with
  | zero => exact fun _ _ _ => .refl
  | succ n ih =>
      intro k s copies
      rw [convertStreams]
      split
      · exact .refl
      rename_i old hfind
      have hremove := changes_removeStream env s old.ssrc
      generalize srtpRemoveStream env s old.ssrc = r at hremove
      rcases r with ⟨s₁, result⟩
      cases result with
      | error e => exact hremove
      | ok u =>
          cases env.cloneAlloc k with
          | error e => exact hremove
          | ok u => exact hremove.trans (ih _ _ _)

theorem head?_refs (stream : Stream C A) : stream.refs.head? = some stream.firstKeys.ref := by
  unfold Stream.refs Stream.firstKeys
  rw [List.head?_map, List.head?_eq_some_head stream.keys_ne, Option.map_some]

/-- An update of the template converts the copies of the old one, or fails on
    the way. -/
theorem changes_updateTemplateStreams (env : Env C A) (s : Session C A) (p : Policy) :
    ReflTransGen Change s.registry (updateTemplateStreams env s p).1.registry := by
  unfold updateTemplateStreams
  cases htemplate : s.streamTemplate with
  | none => exact .refl
  | some template =>
  simp only
  split
  · exact .refl
  cases hinit : streamInit env p s.nextRef with
  | error stop => exact .refl
  | ok new =>
  simp only
  have hloop := changes_convertStreams env template new s.streamList.length 0 s []
  rcases hconvert : convertStreams env template new s.streamList.length 0 s [] with ⟨s', result⟩
  rw [hconvert] at hloop
  cases result with
  | error e => exact hloop
  | ok copies =>
      have hconverts := convertStreams_converts _ hconvert
      have hleft := convertStreams_left _ (Nat.le_refl _) hconvert
      have hcopies : copies.map (fun c => (c.ssrc, c.refs)) =
          (copies.map Stream.ssrc).map fun ssrc => (ssrc, new.refs) := by
        rw [List.map_map]
        refine List.map_congr_left fun c hc => ?_
        rw [hconverts.refs (fun _ h => absurd h List.not_mem_nil) c hc]
        rfl
      have hconverted : Change s.registry
          ⟨(copies.map Stream.ssrc).map (fun ssrc => (ssrc, new.refs)) ++
            s'.streamList.map (fun stream => (stream.ssrc, stream.refs)), some new.refs,
            s.nextRef + new.refs.length⟩ := by
        refine .converted template.refs new.refs _ _ _ ?_ (fresh_streamInit hinit) ?_ ?_ ?_
        · unfold Session.registry
          rw [htemplate]
          rfl
        · rw [Session.owners_registry, List.map_map]
          exact hconverts.perm
        · intro e he
          rcases List.mem_map.mp he with ⟨stream, hmem, rfl⟩
          exact List.mem_map_of_mem (hconverts.sublist.subset hmem)
        · intro e he
          rcases List.mem_map.mp he with ⟨stream, hmem, rfl⟩
          rw [head?_refs, head?_refs, Ne, Option.some.injEq]
          exact of_decide_eq_false (hleft stream hmem)
      refine .single ?_
      simp only [Session.registry, Session.allocRefs, Session.putTemplate, List.map_append,
        Option.map_some, hconverts.nextRef_eq, hcopies]
      exact hconverted

/-- An update of a stream unlinks it and adds a new one. -/
theorem changes_updateStream (env : Env C A) (p : Policy)
    (hdistinct : s.registry.owners.Nodup) :
    ReflTransGen Change s.registry (updateStream env s p).1.registry := by
  unfold updateStream
  cases hget : s.getStream p.ssrcValue with
  | none => exact .refl
  | some old =>
  simp only
  have hremove := changes_removeStream env s p.ssrcValue
  have hgone : (srtpRemoveStream env s p.ssrcValue).1.getStream p.ssrcValue = none := by
    unfold srtpRemoveStream
    rw [hget]
    rw [Session.owners_registry] at hdistinct
    exact Lib.findKey_eq_none.mpr (Lib.notMem_eraseFirst hdistinct)
  generalize srtpRemoveStream env s p.ssrcValue = r at hremove hgone
  rcases r with ⟨s₁, result⟩
  cases result with
  | error e => exact hremove
  | ok u =>
  have hadd : ReflTransGen Change s₁.registry (srtpAddStream env s₁ p).1.registry :=
    changes_addStream fun _ => hgone
  simp only
  generalize srtpAddStream env s₁ p = r at hadd
  rcases r with ⟨s₂, result⟩
  cases result with
  | error stop => exact hremove.trans hadd
  | ok u =>
  cases hnew : s₂.getStream p.ssrcValue with
  | none =>
      simp only [hnew]
      exact hremove.trans hadd
  | some stream =>
      have hput : s₂.getStream (stream.restore old).ssrc = some stream := by
        change s₂.getStream stream.ssrc = some stream
        rw [Session.ssrc_of_getStream hnew]
        exact hnew
      simp only [hnew, Session.registry_putStream hput rfl]
      exact hremove.trans hadd

theorem changes_srtpUpdateStream (env : Env C A) (p : Policy)
    (hdistinct : s.registry.owners.Nodup) :
    ReflTransGen Change s.registry (srtpUpdateStream env s p).1.registry := by
  unfold srtpUpdateStream
  split
  · exact .refl
  cases p.ssrcType with
  | undefined => exact .refl
  | specific => exact changes_updateStream env p hdistinct
  | anyInbound => exact changes_updateTemplateStreams env s p
  | anyOutbound => exact changes_updateTemplateStreams env s p

end Management

end Srtp

end CryptoOpal

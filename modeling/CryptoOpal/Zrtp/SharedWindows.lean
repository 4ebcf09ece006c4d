import CryptoOpal.Lib.Transducer
import CryptoOpal.Zrtp.Receive
import Mathlib.Logic.Function.Basic

/-!
# Streams That Share the Replay Nodes

All streams of one global SRTP context find their replay nodes in one list, by
the SSRC in the packet. Two streams whose peers use one SSRC have one window
between them, and what one of them receives makes the other reject valid
packets as replays. For RTCP the first octet of the SSRC is enough.

The results of a stream are those it would have had alone as long as it looks
up no node that another stream has looked up before. What two streams share
in a node is its two halves, and its owner: when that stream fails, the node
is gone.

The state has a record, kept by no code, of which stream has looked up which
node. A node that is there at the start was looked up by its owner. The
handlers of a stream work on that stream only.

## Main definitions

* `Receivers`: The streams, the nodes they share, and the record.
* `receiveStep`: A stream receives a packet.
* `resultsOf`: What one stream did with its packets.
* `Apart`: The stream looks up no node of another stream.
* `AsAlone`: Two states are one to the stream.

## Theorems

* `asAlone_other`, `asAlone_own`: What the two kinds of steps preserve.
* `results_alone`: The results of a stream are those it has alone.
-/

namespace CryptoOpal

namespace Zrtp

namespace Engine

open Lib (Octets Along run)

/-- All streams of one SRTP global context. -/
structure Receivers where
  rp : ReplayCtx
  streams : Nat → Stream
  used : List (Nat × Nat)

/-- The nodes there are were looked up by their owners. -/
def Receivers.start (rp : ReplayCtx) (streams : Nat → Stream) : Receivers :=
  ⟨rp, streams, rp.incHead.map fun node => (node.srtpCtx, node.ssrc)⟩

/-- A stream receives a packet. -/
def receiveStep (z : Global) (σ : Receivers) (i : Nat × Received) : Receivers × Outcome :=
  let stream := σ.streams i.1
  let done := receive z i.1 σ.rp stream i.2
  ({ rp := done.rp
     streams := Function.update σ.streams i.1 done.stream
     used := (lookup stream i.2).toList.map (fun found => (i.1, found.2)) ++ σ.used },
    done.outcome)

/-- What a stream did with its packets, in a run of all of them. -/
def resultsOf (z : Global) (j : Nat) (σ : Receivers) (calls : List (Nat × Received)) :
    List Outcome :=
  (run (receiveStep z) σ calls).filterMap fun x => if x.input.1 = j then some x.output else none

/-- A packet of this stream looks up no node that another stream has looked
    up. -/
def Apart (j : Nat) (σ : Receivers) (i : Nat × Received) : Prop :=
  i.1 = j → ∀ found ∈ (lookup (σ.streams j) i.2).toList, ∀ e ∈ σ.used, e.2 = found.2 → e.1 = j

instance (j : Nat) (σ : Receivers) (i : Nat × Received) : Decidable (Apart j σ i) :=
  inferInstanceAs (Decidable (_ → _))

/-- Another stream has looked up the node with this key. -/
def Receivers.Others (σ : Receivers) (j key : Nat) : Prop := ∃ e ∈ σ.used, e.1 ≠ j ∧ e.2 = key

/-- Two states that are one to the stream: its own state, and the nodes no
    other stream has looked up. -/
structure AsAlone (j : Nat) (σ τ : Receivers) : Prop where
  stream : σ.streams j = τ.streams j
  distinct : Distinct σ.rp.incHead
  distinct' : Distinct τ.rp.incHead
  recorded : ∀ key i, ownerAt σ.rp.incHead key = some i → (i, key) ∈ σ.used
  halves : ∀ key, ¬ σ.Others j key → ∀ half,
    halfAt half σ.rp.incHead key = halfAt half τ.rp.incHead key
  owners : ∀ key, ¬ σ.Others j key → ownerAt σ.rp.incHead key = ownerAt τ.rp.incHead key

section

variable {z : Global} {j : Nat} {σ τ : Receivers} {i : Nat × Received}

/-- The owner of a node is who looked it up first. -/
theorem recorded_start {rp : ReplayCtx} {streams : Nat → Stream} {key i : Nat}
    (h : ownerAt rp.incHead key = some i) : (i, key) ∈ (Receivers.start rp streams).used := by
  rw [ownerAt, Option.map_eq_some_iff] at h
  rcases h with ⟨node, hnode, howner⟩
  have hkey : node.ssrc = key := Lib.key_of_findKey hnode
  have hmem : node ∈ rp.incHead := Lib.mem_of_findKey hnode
  rw [Receivers.start, List.mem_map]
  exact ⟨node, hmem, by rw [howner, hkey]⟩

theorem asAlone_start {rp : ReplayCtx} (streams : Nat → Stream) (h : Distinct rp.incHead) :
    AsAlone j (.start rp streams) (.start rp streams) where
  stream := rfl
  distinct := h
  distinct' := h
  recorded _ _ := recorded_start
  halves _ _ _ := rfl
  owners _ _ := rfl

/-- A step without a look at the nodes. -/
theorem receiveStep_quiet {stream : Stream} (h : lookup stream i.2 = none) :
    ∃ destroyed stream' outcome, ∀ σ : Receivers, σ.streams i.1 = stream →
      receiveStep z σ i =
        (⟨afterHandler i.1 destroyed σ.rp, Function.update σ.streams i.1 stream', σ.used⟩,
          outcome) := by
  have hquiet : Quiet i.1 fun rp => receive z i.1 rp stream i.2 := receive_quiet h
  rcases hquiet with ⟨destroyed, stream', outcome, hcall⟩
  refine ⟨destroyed, stream', outcome, ?_⟩
  intro σ hσ
  simp only [receiveStep, hσ, h, hcall, Option.toList_none, List.map_nil, List.nil_append]

/-- A step that looks a node up. -/
theorem receiveStep_lookup {stream : Stream} {half : Half} {key : Nat}
    (h : lookup stream i.2 = some (half, key)) :
    ∃ (unprotect : List ReplayNode → List ReplayNode × Outcome) (stream' : Stream),
      (∀ σ : Receivers, σ.streams i.1 = stream →
        receiveStep z σ i =
          (⟨{ σ.rp with incHead := (unprotect σ.rp.incHead).1 },
            Function.update σ.streams i.1 stream', (i.1, key) :: σ.used⟩,
            (unprotect σ.rp.incHead).2)) ∧
      ∀ nodes nodes', halfAt half nodes key = halfAt half nodes' key →
        (unprotect nodes).2 = (unprotect nodes').2 ∧
          ∃ moved, Looked i.1 half key moved nodes (unprotect nodes).1 ∧
            Looked i.1 half key moved nodes' (unprotect nodes').1 := by
  have hlooks : LooksUp i.1 half key fun rp => receive z i.1 rp stream i.2 := receive_lookup h
  rcases hlooks with ⟨unprotect, stream', hcall, halike⟩
  refine ⟨unprotect, stream', ?_, halike⟩
  intro σ hσ
  simp only [receiveStep, hσ, h, hcall, Option.toList_some, List.map_cons, List.map_nil,
    List.singleton_append]

/-- The nodes that a handler leaves have the owners they had. -/
theorem recorded_afterHandler {id : Nat} {destroyed : Bool} (hdistinct : Distinct σ.rp.incHead)
    (h : ∀ key i, ownerAt σ.rp.incHead key = some i → (i, key) ∈ σ.used) (key i : Nat)
    (howner : ownerAt (afterHandler id destroyed σ.rp).incHead key = some i) :
    (i, key) ∈ σ.used := by
  rw [ownerAt_afterHandler hdistinct] at howner
  split at howner
  · exact absurd howner (by simp only [reduceCtorEq, not_false_eq_true])
  · exact h key i howner

/-- A node that is new belongs to the stream that looked it up. -/
theorem recorded_looked {id key : Nat} {half : Half} {moved : ReplayProtection}
    {nodes : List ReplayNode} (hlooked : Looked id half key moved σ.rp.incHead nodes)
    (h : ∀ key i, ownerAt σ.rp.incHead key = some i → (i, key) ∈ σ.used) (k i : Nat)
    (howner : ownerAt nodes k = some i) : (i, k) ∈ (id, key) :: σ.used := by
  rw [hlooked.owners] at howner
  by_cases hk : key = k
  · rw [if_pos hk] at howner
    cases hold : ownerAt σ.rp.incHead k with
    | none =>
        rw [hold, Option.getD_none, Option.some.injEq] at howner
        rw [← howner, hk]
        exact List.mem_cons_self
    | some id' =>
        rw [hold, Option.getD_some, Option.some.injEq] at howner
        rw [← howner]
        exact List.mem_cons_of_mem _ (h k id' hold)
  · rw [if_neg hk] at howner
    exact List.mem_cons_of_mem _ (h k i howner)

/-- What another stream does is nothing to this one. -/
theorem asAlone_other (h : AsAlone j σ τ) (hi : i.1 ≠ j) : AsAlone j (receiveStep z σ i).1 τ := by
  have hstream : ∀ stream', Function.update σ.streams i.1 stream' j = τ.streams j := by
    intro stream'
    rw [Function.update_of_ne (Ne.symm hi)]
    exact h.stream
  cases hlook : lookup (σ.streams i.1) i.2 with
  | none =>
    rcases receiveStep_quiet (z := z) hlook with ⟨destroyed, stream', outcome, hstep⟩
    rw [hstep σ rfl]
    -- What the handler takes away has been recorded for the other stream.
    have hkept : ∀ key, ¬ σ.Others j key →
        ¬ (destroyed = true ∧ ownerAt σ.rp.incHead key = some i.1) := by
      rintro key hkey ⟨_, howner⟩
      exact hkey ⟨(i.1, key), h.recorded key i.1 howner, hi, rfl⟩
    refine ⟨hstream stream', distinct_afterHandler h.distinct, h.distinct',
      recorded_afterHandler h.distinct h.recorded, ?_, ?_⟩
    · intro key hkey half
      rw [halfAt_afterHandler h.distinct, if_neg (hkept key hkey)]
      exact h.halves key hkey half
    · intro key hkey
      rw [ownerAt_afterHandler h.distinct, if_neg (hkept key hkey)]
      exact h.owners key hkey
  | some found =>
    rcases found with ⟨half, key⟩
    rcases receiveStep_lookup (z := z) hlook with ⟨unprotect, stream', hstep, halike⟩
    rw [hstep σ rfl]
    rcases halike σ.rp.incHead σ.rp.incHead rfl with ⟨_, moved, hlooked, _⟩
    have hother : ∀ k, ¬ (∃ e ∈ (i.1, key) :: σ.used, e.1 ≠ j ∧ e.2 = k) →
        ¬ σ.Others j k ∧ key ≠ k := by
      intro k hk
      refine ⟨?_, ?_⟩
      · rintro ⟨e, he, hrest⟩
        exact hk ⟨e, List.mem_cons_of_mem _ he, hrest⟩
      · intro hsame
        exact hk ⟨(i.1, key), List.mem_cons_self, hi, hsame⟩
    refine ⟨hstream stream', hlooked.distinct h.distinct, h.distinct',
      recorded_looked hlooked h.recorded, ?_, ?_⟩
    · intro k hk half'
      rcases hother k hk with ⟨hothers, hne⟩
      rw [hlooked.halves, if_neg fun hboth => hne hboth.1]
      exact h.halves k hothers half'
    · intro k hk
      rcases hother k hk with ⟨hothers, hne⟩
      rw [hlooked.owners, if_neg hne]
      exact h.owners k hothers

/-- What the stream does is the same in both. -/
theorem asAlone_own (h : AsAlone j σ τ) (hi : i.1 = j) (hapart : Apart j σ i) :
    AsAlone j (receiveStep z σ i).1 (receiveStep z τ i).1 ∧
      (receiveStep z σ i).2 = (receiveStep z τ i).2 := by
  subst hi
  have hupdate : ∀ stream', Function.update σ.streams i.1 stream' i.1 =
      Function.update τ.streams i.1 stream' i.1 := by
    intro stream'
    rw [Function.update_self, Function.update_self]
  cases hlook : lookup (σ.streams i.1) i.2 with
  | none =>
    rcases receiveStep_quiet (z := z) hlook with ⟨destroyed, stream', outcome, hstep⟩
    rw [hstep σ rfl, hstep τ h.stream.symm]
    refine ⟨⟨hupdate stream', distinct_afterHandler h.distinct, distinct_afterHandler h.distinct',
      recorded_afterHandler h.distinct h.recorded, ?_, ?_⟩, rfl⟩
    · intro key hkey half
      simp only [halfAt_afterHandler h.distinct, halfAt_afterHandler h.distinct',
        h.owners key hkey, h.halves key hkey half]
    · intro key hkey
      simp only [ownerAt_afterHandler h.distinct, ownerAt_afterHandler h.distinct',
        h.owners key hkey]
  | some found =>
    rcases found with ⟨half, key⟩
    rcases receiveStep_lookup (z := z) hlook with ⟨unprotect, stream', hstep, halike⟩
    rw [hstep σ rfl, hstep τ h.stream.symm]
    -- The node that is looked up is no other stream's.
    have hmine : ¬ σ.Others i.1 key := by
      rintro ⟨e, he, hne, hkey⟩
      exact hne (hapart rfl (half, key) (Option.mem_toList.mpr hlook) e he hkey)
    rcases halike σ.rp.incHead τ.rp.incHead (h.halves key hmine half) with
      ⟨houtcome, moved, hlooked, hlooked'⟩
    have hothers : ∀ k, ¬ (∃ e ∈ (i.1, key) :: σ.used, e.1 ≠ i.1 ∧ e.2 = k) → ¬ σ.Others i.1 k := by
      rintro k hk ⟨e, he, hrest⟩
      exact hk ⟨e, List.mem_cons_of_mem _ he, hrest⟩
    refine ⟨⟨hupdate stream', hlooked.distinct h.distinct, hlooked'.distinct h.distinct',
      recorded_looked hlooked h.recorded, ?_, ?_⟩, houtcome⟩
    · intro k hk half'
      rw [hlooked.halves, hlooked'.halves, h.halves k (hothers k hk) half']
    · intro k hk
      rw [hlooked.owners, hlooked'.owners, h.owners k (hothers k hk)]

/-- Run with the others or alone, the stream does the same from one state on. -/
theorem resultsOf_asAlone (h : AsAlone j σ τ) (calls : List (Nat × Received))
    (hapart : Along (receiveStep z) (Apart j) σ calls) :
    resultsOf z j σ calls = resultsOf z j τ (calls.filter fun i => i.1 = j) := by
  induction calls generalizing σ τ with
  | nil => rfl
  | cons i calls ih =>
      rcases Lib.along_cons.mp hapart with ⟨hi, hrest⟩
      by_cases hown : i.1 = j
      · rcases asAlone_own (z := z) h hown hi with ⟨hnext, houtcome⟩
        have hhere : (i :: calls).filter (fun i => i.1 = j) =
            i :: calls.filter fun i => i.1 = j :=
          List.filter_cons_of_pos (decide_eq_true hown)
        have hlater := ih hnext hrest
        rw [hhere]
        simp only [resultsOf, run, List.filterMap_cons, Lib.stepAt, if_pos hown] at hlater ⊢
        rw [houtcome, hlater]
      · have hnext : AsAlone j (receiveStep z σ i).1 τ := asAlone_other h hown
        have hhere : (i :: calls).filter (fun i => i.1 = j) = calls.filter fun i => i.1 = j :=
          List.filter_cons_of_neg (by simp only [hown, decide_false, Bool.false_eq_true,
            not_false_eq_true])
        have hlater := ih hnext hrest
        rw [hhere]
        simp only [resultsOf, run, List.filterMap_cons, Lib.stepAt, if_neg hown] at hlater ⊢
        exact hlater

end

end Engine

end Zrtp

end CryptoOpal

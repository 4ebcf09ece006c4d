import CryptoOpal.T38.Udptl
import Mathlib.Data.List.Chain

/-!
# What a Packet Repeats

A packet is right when its payloads are those of the last frames, the last one
first: then the `i`-th secondary is the payload of the frame whose sequence number
is less by `i`. The payloads in a packet stay those of the last frames as long as
each new frame is put before them, so nothing may be left in the packet when the
counts are used up, and there must be room for one more.

Without the option the packet is left as it is when it is sent again although the
counts go down. What is left in it is then no longer what precedes the next frame.

## Main definitions

* `Labelled`: The payloads of a packet are those of the last frames.
* `Next`: Frames have consecutive sequence numbers.
* `Sound`: What an action needs.
* `AllLabelled`: Every packet of a run is right.

## Theorems

* `inv_put`, `inv_decrement`: What a new frame and the counts leave behind.
* `labelled_of_inv`: The packet that is kept is right.
* `packets_labelled`: Every packet of a run is right.
-/

namespace CryptoOpal

namespace T38

open Lib (Octets)

/-- The packet has the number of the last frame, and its payloads are those of the
last frames, each with the number that goes with its place. -/
def Labelled (frames : List Frame) (packet : UdptlPacket) : Prop :=
  ∀ i payload, (packet.primaryIfpPacket :: packet.secondaryIfpPackets)[i]? = some payload →
    ∃ frame, frames[i]? = some frame ∧ frame.payload = payload ∧
      frame.sequenceNumber + UInt16.ofNat i = packet.seqNumber

/-- A frame has the sequence number after that of the frame before it. -/
def Next (s : Sending) : Action → Prop
  | .write frame => ∀ last ∈ s.frames.head?, frame.sequenceNumber = last.sequenceNumber + 1
  | .idle => True

/-- A new frame fits into the packet. If there are no counts left, nothing is left
in the packet either, and otherwise there is room for one more. A packet is sent
again only if one was sent. -/
def Sound (s : Sending) : Action → Prop
  | .write frame => frame.payload ≠ [] ∧ frame.payload.length ≤ maximumStringSize ∧
      if s.sender.sentPacketRedundancy = [] then
        s.sender.sentPacket.secondaryIfpPackets = []
      else
        s.sender.sentPacket.secondaryIfpPackets.length < maximumArraySize
  | .idle => s.frames ≠ []

instance (s : Sending) (a : Action) : Decidable (Next s a) := by
  cases a with
  | write frame => exact inferInstanceAs (Decidable (∀ last ∈ s.frames.head?, _))
  | idle => exact inferInstanceAs (Decidable True)

instance (s : Sending) (a : Action) : Decidable (Sound s a) := by
  cases a with
  | write frame => exact inferInstanceAs (Decidable (_ ∧ _ ∧ ite _ _ _))
  | idle => exact inferInstanceAs (Decidable (_ ≠ _))

section Invariant

/-- The payloads in the packet are those of the last frames, and there is at most
one count more than there are secondaries. -/
structure Inv (s : Sending) : Prop where
  consecutive : s.frames.IsChain fun newer older =>
    newer.sequenceNumber = older.sequenceNumber + 1
  number : ∀ last ∈ s.frames.head?, s.sender.sentPacket.seqNumber = last.sequenceNumber
  payloads : s.frames ≠ [] →
    s.sender.sentPacket.primaryIfpPacket :: s.sender.sentPacket.secondaryIfpPackets <+:
      s.frames.map Frame.payload
  empty : s.frames = [] → s.sender.sentPacketRedundancy = []
  counts : s.sender.sentPacketRedundancy.length ≤ s.sender.sentPacket.secondaryIfpPackets.length + 1

variable {s : Sending}

theorem length_counts (counts : List Int) :
    ((counts.map fun count => int32 (count - 1)).rdropWhile
      fun count => decide (count ≤ 0)).length ≤ counts.length := by
  have hle := (List.rdropWhile_prefix (fun count : Int => decide (count ≤ 0))
    (l := counts.map fun count => int32 (count - 1))).length_le
  rwa [List.length_map] at hle

/-- An array that is made shorter keeps its first elements. -/
theorem setArraySize_shorter (secondary : List Octets) (n : Nat) (h : n ≤ secondary.length) :
    setArraySize secondary n <+: secondary ∧ n ≤ (setArraySize secondary n).length := by
  rw [setArraySize]
  split
  · exact ⟨List.prefix_refl _, h⟩
  · rw [Nat.sub_eq_zero_of_le h, List.replicate_zero, List.append_nil]
    exact ⟨List.take_prefix _ _, by rw [List.length_take, Nat.min_eq_left h]⟩

/-- Going down with the counts leaves the first payloads in the packet. -/
theorem inv_decrement (h : Inv s) (stripRedundancy : Bool) :
    Inv ⟨s.sender.decrementSentPacketRedundancy stripRedundancy, s.frames⟩ := by
  have hle := length_counts s.sender.sentPacketRedundancy
  have hcounts := h.counts
  have hnone : s.sender.sentPacketRedundancy = [] →
      (s.sender.decrementSentPacketRedundancy stripRedundancy).sentPacketRedundancy = [] := by
    intro hempty
    rw [Sender.decrementSentPacketRedundancy, hempty]
    rfl
  cases stripRedundancy with
  | false =>
      exact ⟨h.consecutive, h.number, h.payloads, fun hempty => hnone (h.empty hempty),
        hle.trans hcounts⟩
  | true =>
      have hless := Nat.sub_le_of_le_add (hle.trans hcounts)
      rcases setArraySize_shorter _ _ hless with ⟨hshorter, hlength⟩
      refine ⟨h.consecutive, h.number, ?_, fun hempty => hnone (h.empty hempty), ?_⟩
      · intro hsome
        exact (List.cons_prefix_cons.mpr ⟨rfl, hshorter⟩).trans (h.payloads hsome)
      · exact Nat.le_add_of_sub_le hlength

/-- A new frame comes before those in the packet. -/
theorem inv_put (h : Inv s) {frame : Frame} (hnext : Next s (.write frame))
    (hsound : Sound s (.write frame)) : Inv ⟨s.sender.put frame, frame :: s.frames⟩ := by
  rcases hsound with ⟨_, hlength, hroom⟩
  have hvalue : ∀ old, setValue old frame.payload = frame.payload := by
    intro old
    rw [setValue, if_neg (Nat.not_lt.mpr hlength)]
  have hcounts := h.counts
  refine ⟨List.isChain_cons.mpr ⟨hnext, h.consecutive⟩, ?_, ?_, fun hnil => (List.cons_ne_nil _ _ hnil).elim, ?_⟩
  · intro last hlast
    rw [← Option.some.inj hlast]
    rfl
  · intro _
    simp only [Sender.put, List.map_cons, hvalue]
    rw [List.cons_prefix_cons]
    refine ⟨rfl, ?_⟩
    by_cases hempty : s.sender.sentPacketRedundancy = []
    · rw [if_pos hempty] at hroom ⊢
      rw [hroom]
      exact List.nil_prefix
    · rw [if_neg hempty] at hroom ⊢
      rw [Sender.shift, if_neg (by omega)]
      exact h.payloads fun hnil => hempty (h.empty hnil)
  · simp only [Sender.put]
    by_cases hempty : s.sender.sentPacketRedundancy = []
    · rw [if_pos hempty, hempty]
      split <;> simp only [List.length_cons, List.length_nil] <;> omega
    · rw [if_neg hempty] at hroom ⊢
      rw [if_pos (.inr hempty), Sender.shift, if_neg (by omega)]
      simp only [List.length_cons]
      omega

/-- Frames with consecutive numbers have the number that goes with their place. -/
theorem number_of_chain {frames : List Frame} {last frame : Frame} (i : Nat)
    (h : frames.IsChain fun newer older => newer.sequenceNumber = older.sequenceNumber + 1)
    (hlast : last ∈ frames.head?) (hframe : frames[i]? = some frame) :
    frame.sequenceNumber + UInt16.ofNat i = last.sequenceNumber := by
  induction i generalizing frames last with
  | zero =>
      rw [List.head?_eq_getElem?, hframe, Option.mem_def, Option.some.injEq] at hlast
      rw [hlast]
      exact UInt16.add_zero _
  | succ i ih =>
      cases frames with
      | nil => cases hframe
      | cons newest frames =>
          rw [List.head?_cons, Option.mem_def, Option.some.injEq] at hlast
          rw [List.getElem?_cons_succ] at hframe
          cases frames with
          | nil => cases hframe
          | cons second frames =>
              rcases List.isChain_cons.mp h with ⟨hnewer, hrest⟩
              rw [UInt16.ofNat_add, ← UInt16.add_assoc, ih hrest rfl hframe, ← hlast,
                hnewer second rfl]
              rfl

theorem labelled_of_inv (h : Inv s) (hsome : s.frames ≠ []) :
    Labelled s.frames s.sender.sentPacket := by
  intro i payload hi
  rcases h.payloads hsome with ⟨rest, hrest⟩
  have hlt := (List.getElem?_eq_some_iff.mp hi).1
  have hmap : (s.frames.map Frame.payload)[i]? = some payload := by
    rw [← hrest, List.getElem?_append_left hlt, hi]
  rw [List.getElem?_map, Option.map_eq_some_iff] at hmap
  rcases hmap with ⟨frame, hframe, hpayload⟩
  rcases List.exists_cons_of_ne_nil hsome with ⟨last, older, hframes⟩
  have hlast : last ∈ s.frames.head? := by rw [hframes]; rfl
  refine ⟨frame, hframe, hpayload, ?_⟩
  rw [number_of_chain i h.consecutive hlast hframe, h.number last hlast]

/-- A step that meets its condition keeps the invariant. -/
theorem inv_step (h : Inv s) (a : Action) (hnext : Next s a) (hsound : Sound s a) :
    Inv (s.step a).1 := by
  cases a with
  | write frame =>
      have hput := inv_decrement (inv_put h hnext hsound) true
      rw [Sending.step, Sender.writeDataPdu, if_neg hsound.1]
      exact hput
  | idle => exact inv_decrement h s.sender.optimiseOnRetransmit

/-- The packet that such a step sends is right. -/
theorem labelled_step (h : Inv s) (a : Action) (hnext : Next s a) (hsound : Sound s a)
    {packet : UdptlPacket} (hsent : (s.step a).2 = some packet) :
    Labelled (s.step a).1.frames packet := by
  cases a with
  | write frame =>
      have hput := labelled_of_inv (inv_put h hnext hsound) (List.cons_ne_nil _ _)
      rw [Sending.step, Sender.writeDataPdu, if_neg hsound.1, Option.some.injEq] at hsent
      rw [← hsent]
      exact hput
  | idle =>
      rw [← Option.some.inj hsent]
      exact labelled_of_inv h hsound

theorem inv_start (redundancy : List (Int × Int)) (optimiseOnRetransmit : Bool) :
    Inv ⟨Sender.onStart redundancy optimiseOnRetransmit, []⟩ :=
  ⟨.nil, fun _ h => absurd h (Option.not_mem_none _), fun h => absurd rfl h, fun _ => rfl,
    Nat.zero_le _⟩

end Invariant

section Runs

/-- The sender before the first frame. -/
def Sending.start (redundancy : List (Int × Int)) (optimiseOnRetransmit : Bool) : Sending :=
  ⟨Sender.onStart redundancy optimiseOnRetransmit, []⟩

/-- Every packet of a run is right. -/
def AllLabelled (redundancy : List (Int × Int)) (optimiseOnRetransmit : Bool)
    (actions : List Action) : Prop :=
  ∀ x ∈ Lib.run Sending.step (.start redundancy optimiseOnRetransmit) actions,
    ∀ packet, x.output = some packet → Labelled x.after.frames packet

/-- In a run of actions that meet their conditions every packet is right. -/
theorem packets_labelled (redundancy : List (Int × Int)) (optimiseOnRetransmit : Bool)
    (actions : List Action)
    (hnext : Lib.Along Sending.step Next (.start redundancy optimiseOnRetransmit) actions)
    (hsound : Lib.Along Sending.step Sound (.start redundancy optimiseOnRetransmit) actions) :
    AllLabelled redundancy optimiseOnRetransmit actions :=
  Lib.run_invariant (P := fun s a => Next s a ∧ Sound s a) Inv
    (fun _ a h ha => inv_step h a ha.1 ha.2)
    (fun _ a h ha _ hsent => labelled_step h a ha.1 ha.2 hsent) _ actions
    (inv_start redundancy optimiseOnRetransmit) (fun x hx => ⟨hnext x hx, hsound x hx⟩)

/-- Three frames that are each repeated once are right. -/
theorem packets_labelled_three : AllLabelled [(32767, 1)] false
    [.write ⟨0xffff, [1]⟩, .write ⟨0, [2]⟩, .write ⟨1, [3]⟩, .idle] :=
  packets_labelled _ _ _ (by decide) (by decide)

/-- When two frames are repeated twice, and then nothing is new for a while, the
first of them is sent as the one before the third. -/
theorem stale_secondary :
    Lib.Along Sending.step Next (.start [(32767, 2)] false)
        [.write ⟨0, [1]⟩, .write ⟨1, [2]⟩, .idle, .idle, .write ⟨2, [3]⟩] ∧
      ¬ AllLabelled [(32767, 2)] false
        [.write ⟨0, [1]⟩, .write ⟨1, [2]⟩, .idle, .idle, .write ⟨2, [3]⟩] := by
  refine ⟨by decide, ?_⟩
  intro h
  have hlast := h _ (.tail _ (.tail _ (.tail _ (.tail _ (.head _))))) _ rfl
  rcases hlast 1 [1] (by decide) with ⟨frame, hframe, hpayload, _⟩
  cases hframe
  exact absurd hpayload (by decide)

end Runs

end T38

end CryptoOpal

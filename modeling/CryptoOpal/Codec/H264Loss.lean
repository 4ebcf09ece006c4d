import CryptoOpal.Codec.H264RoundTrip

/-!
# NAL Units under Loss

Some of the packets of a stream are lost, and the others come in order. What
the receiver remembers of a fragmented unit is a counter, and nothing but the
last fragment sets it back to zero. When that is lost, the counter stays, also
over units that come whole; the first fragment of another unit is then thrown
away, and the rest of it is put after whatever unit is the last one.

As long as no fragment comes while the counter is not zero, unless the packet
before it was a fragment of the same unit, what is held of a unit is a part of
that unit (`held_parts`).

## Main definitions

* `IsUnit`: The units that can be sent.
* `stream`: The packets of some frames, with the number of the frame.
* `Receiver`: The receiving frame, and the unit of the fragment before.
* `InTurn`: The condition on a packet.
* `Carries`: What a packet has to do with the units that are sent.
* `Open`: The invariant.

## Theorems

* `carries_packets`, `ordered_packets`: What is in the packets of a frame.
* `carried_stream`, `ordered_stream`: What is in the packets of a stream.
* `partial_step`: The step.
* `held_parts`: Each unit held is a part of one that was sent.
-/

namespace CryptoOpal

namespace Codec

namespace H264

open Lib (Octets slice bigEndian)

/-- A unit of H.264: no forbidden bit, and none of the types that are those of
packets. -/
def IsUnit (nal : Octets) : Prop :=
  nal ≠ [] ∧ nal.headD 0 &&& 0x80 = 0 ∧ nal.headD 0 &&& 0x1f < 24

instance (nal : Octets) : Decidable (IsUnit nal) := inferInstanceAs (Decidable (_ ∧ _))

/-- The units of one frame that is sent, and how many packets are asked for. -/
structure SentFrame where
  maxPayloadSize : Nat
  nals : List Octets
  calls : Nat
  deriving DecidableEq

/-- The packets of some frames, each with the number of its frame. -/
def stream (sendStapPackets : Bool) : Nat → List SentFrame → List (Nat × Labelled)
  | _, [] => []
  | k, s :: rest =>
    (((H264Frame.load s.maxPayloadSize s.nals).calls sendStapPackets s.calls).map fun call =>
      (k, labelled call)) ++ stream sendStapPackets (k + 1) rest

/-- What happens to the receiver. The decoder begins a new frame when it likes. -/
inductive Delivery where
  | packet (frame : Nat) (p : Labelled)
  | beginNewFrame
  deriving DecidableEq

def Delivery.sent : Delivery → Option (Nat × Labelled)
  | .packet k p => some (k, p)
  | .beginNewFrame => none

/-- The receiving frame, and which unit the last packet was a fragment of. -/
structure Receiver where
  frame : H264Frame
  previous : Option (Nat × Nat)
  deriving DecidableEq

/-- A new frame, before any packet. -/
def Receiver.create (maxPayloadSize : Nat) : Receiver where
  frame := H264Frame.create maxPayloadSize
  previous := none

/-- A packet of type 28. -/
def IsFragment (frame : RtpFrame) : Prop := frame.payload.headD 0 &&& 0x1f = 28

instance (frame : RtpFrame) : Decidable (IsFragment frame) := inferInstanceAs (Decidable (_ = _))

/-- `SetFromRTPFrame`, with the unit that the packet is a fragment of. -/
def Receiver.deliver (r : Receiver) : Delivery → Option Receiver
  | .packet k p => (r.frame.setFromRtpFrame p.frame).map fun done =>
      ⟨done.1, if IsFragment p.frame then some (k, p.nal) else none⟩
  | .beginNewFrame => some { r with frame := r.frame.beginNewFrame }

def Receiver.deliverAll : Receiver → List Delivery → Option Receiver
  | r, [] => some r
  | r, d :: ds => (r.deliver d).bind fun r' => r'.deliverAll ds

/-- A fragment comes where none is open, or right after one of the same unit. -/
def InTurn (r : Receiver) : Delivery → Prop
  | .packet k p => IsFragment p.frame → r.frame.currentFu = 0 ∨ r.previous = some (k, p.nal)
  | .beginNewFrame => True

instance (r : Receiver) (d : Delivery) : Decidable (InTurn r d) :=
  match d with
  | .packet _ _ => inferInstanceAs (Decidable (_ → _))
  | .beginNewFrame => inferInstanceAs (Decidable True)

/-- All the packets come in their turn. -/
def AllInTurn : Receiver → List Delivery → Prop
  | _, [] => True
  | r, d :: ds => InTurn r d ∧ ∀ r', r.deliver d = some r' → AllInTurn r' ds

instance decidableAllInTurn : ∀ (r : Receiver) (ds : List Delivery), Decidable (AllInTurn r ds)
  | _, [] => inferInstanceAs (Decidable True)
  | r, d :: ds =>
    match h : r.deliver d with
    | none => decidable_of_iff (InTurn r d)
        ⟨fun hturn => ⟨hturn, fun r' hr => absurd (h.symm.trans hr).symm (Option.some_ne_none r')⟩,
          And.left⟩
    | some r' =>
      have := decidableAllInTurn r' ds
      decidable_of_iff (InTurn r d ∧ AllInTurn r' ds)
        ⟨fun hboth => ⟨hboth.1, fun _ hr => Option.some.inj (h.symm.trans hr) ▸ hboth.2⟩,
          fun hboth => ⟨hboth.1, hboth.2 r' h⟩⟩

/-- How a packet is made of the units of a frame. -/
inductive Carries (nals : List Octets) (p : Labelled) : Prop
  | whole (hnal : p.frame.payload ∈ nals)
  | group {group : List Octets} {nri : UInt8}
      (hgroup : ∀ nal ∈ group, nal ∈ nals ∧ nal.length < 65536) (hnri : nri &&& 0x1f = 0)
      (h : p.frame.payload =
        (24 ||| nri) :: group.flatMap fun nal => bigEndian 2 nal.length ++ nal)
  | start {nal : Octets} {n : Nat} (hnal : nals[p.nal]? = some nal) (hoff : p.offset = 0)
      (hn : 1 + n ≤ nal.length)
      (h : p.frame.payload = indicatorOf nal :: (0x80 ||| fuHeaderOf nal) :: slice nal 1 n)
  | middle {nal : Octets} {n : Nat} (hnal : nals[p.nal]? = some nal)
      (hn : p.offset + n ≤ nal.length)
      (h : p.frame.payload = indicatorOf nal :: fuHeaderOf nal :: slice nal p.offset n)
  | finish {nal : Octets} (hnal : nals[p.nal]? = some nal)
      (h : p.frame.payload =
        indicatorOf nal :: (fuHeaderOf nal ||| 0x40) :: nal.drop p.offset)

/-- Where in its unit the octets of a fragment end. -/
def Labelled.reach (p : Labelled) : Nat := max p.offset 1 + (p.frame.payload.length - 2)

/-- One packet comes before another: from another unit, or the part before. -/
def Labelled.Before (p q : Labelled) : Prop :=
  p.nal < q.nal ∨ (p.nal = q.nal ∧ 0 < q.offset ∧ p.reach ≤ q.offset)

section Packets

variable {nals : List Octets} {maxPayloadSize i off : Nat} {nal : Octets} {final : Bool}
  {packets : List Labelled}

/-- A full part of a unit. -/
theorem length_part {n : Nat} (h : off + n ≤ nal.length) : (slice nal off n).length = n := by
  rw [Lib.length_slice]
  omega

theorem carries_fragments (h : Fragments maxPayloadSize i nal final off packets)
    (hnal : nals[i]? = some nal) (hmin : 3 ≤ maxPayloadSize) :
    ∀ p ∈ packets, Carries nals p ∧ p.nal = i ∧ off ≤ p.offset := by
  induction h with
  | last hoff hfit =>
      intro p hp
      rw [List.mem_singleton] at hp
      subst hp
      exact ⟨.finish hnal rfl, rfl, Nat.le_refl _⟩
  | more hoff hlong rest ih =>
      intro p hp
      rcases List.mem_cons.1 hp with rfl | hp
      · exact ⟨.middle hnal (by dsimp only; omega) rfl, rfl, Nat.le_refl _⟩
      · obtain ⟨hcarries, hsame, hle⟩ := ih p hp
        exact ⟨hcarries, hsame, by omega⟩

/-- The fragments of a unit come one after another. -/
theorem ordered_fragments (h : Fragments maxPayloadSize i nal final off packets)
    (hnal : nals[i]? = some nal) (hmin : 3 ≤ maxPayloadSize) (hpos : 0 < off) :
    packets.Pairwise Labelled.Before := by
  induction h with
  | last hoff hfit => exact List.pairwise_singleton _ _
  | @more off packets hoff hlong rest ih =>
      refine List.pairwise_cons.2 ⟨?_, ih (by omega)⟩
      intro q hq
      obtain ⟨-, hsame, hle⟩ := carries_fragments rest hnal hmin q hq
      have hreach : Labelled.reach ⟨i, off, ⟨indicatorOf nal :: fuHeaderOf nal ::
          slice nal off (maxPayloadSize - 2), false⟩⟩ = off + (maxPayloadSize - 2) := by
        simp only [Labelled.reach, List.length_cons, length_part (show
          off + (maxPayloadSize - 2) ≤ nal.length by omega)]
        omega
      exact .inr ⟨hsame.symm, by omega, by rw [hreach]; exact hle⟩

theorem carries_packets (h : Packets nals maxPayloadSize i packets) (hmin : 3 ≤ maxPayloadSize)
    (hmax : maxPayloadSize ≤ 65535) : ∀ p ∈ packets, Carries nals p ∧ i ≤ p.nal := by
  induction h with
  | done hdone => exact fun p hp => absurd hp List.not_mem_nil
  | single hnal hfit rest ih =>
      intro p hp
      rcases List.mem_cons.1 hp with rfl | hp
      · exact ⟨.whole (List.mem_of_getElem? hnal), Nat.le_refl _⟩
      · exact ⟨(ih p hp).1, Nat.le_of_succ_le (ih p hp).2⟩
  | @aggregate i group nri packets hgroup hne hfit hnri rest ih =>
      intro p hp
      rcases List.mem_cons.1 hp with rfl | hp
      · refine ⟨.group (fun nal hmem => ⟨?_, ?_⟩) hnri rfl, Nat.le_refl _⟩
        · apply List.mem_of_mem_drop
          rw [← hgroup] at hmem
          exact List.mem_of_mem_take hmem
        · have hcost : 2 + nal.length ≤ (group.map fun nal => 2 + nal.length).sum :=
            List.le_sum_of_mem (List.mem_map.2 ⟨nal, hmem, rfl⟩)
          omega
      · exact ⟨(ih p hp).1, by have hle := (ih p hp).2; omega⟩
  | @fragmented i nal fragments packets hnal hlong hfragments rest ih =>
      intro p hp
      rcases List.mem_cons.1 hp with rfl | hp
      · exact ⟨.start hnal rfl (by omega) rfl, Nat.le_refl _⟩
      · rcases List.mem_append.1 hp with hp | hp
        · obtain ⟨hcarries, hsame, -⟩ := carries_fragments hfragments hnal hmin p hp
          exact ⟨hcarries, Nat.le_of_eq hsame.symm⟩
        · exact ⟨(ih p hp).1, Nat.le_of_succ_le (ih p hp).2⟩

theorem ordered_packets (h : Packets nals maxPayloadSize i packets) (hmin : 3 ≤ maxPayloadSize)
    (hmax : maxPayloadSize ≤ 65535) : packets.Pairwise Labelled.Before := by
  induction h with
  | done hdone => exact List.Pairwise.nil
  | single hnal hfit rest ih =>
      refine List.pairwise_cons.2 ⟨?_, ih⟩
      intro q hq
      exact .inl (carries_packets rest hmin hmax q hq).2
  | @aggregate i group nri packets hgroup hne hfit hnri rest ih =>
      refine List.pairwise_cons.2 ⟨?_, ih⟩
      intro q hq
      have hle := (carries_packets rest hmin hmax q hq).2
      have hpos := List.length_pos_iff.2 hne
      exact .inl (by dsimp only; omega)
  | @fragmented i nal fragments packets hnal hlong hfragments rest ih =>
      have hreach : Labelled.reach ⟨i, 0, ⟨indicatorOf nal :: (0x80 ||| fuHeaderOf nal) ::
          slice nal 1 (maxPayloadSize - 2), false⟩⟩ = 1 + (maxPayloadSize - 2) := by
        simp only [Labelled.reach, List.length_cons, length_part (show
          1 + (maxPayloadSize - 2) ≤ nal.length by omega)]
        omega
      refine List.pairwise_cons.2 ⟨?_, List.pairwise_append.2
        ⟨ordered_fragments hfragments hnal hmin (by omega), ih, ?_⟩⟩
      · intro q hq
        rcases List.mem_append.1 hq with hq | hq
        · obtain ⟨-, hsame, hle⟩ := carries_fragments hfragments hnal hmin q hq
          exact .inr ⟨hsame.symm, by omega, by rw [hreach]; exact hle⟩
        · exact .inl (carries_packets rest hmin hmax q hq).2
      · intro p hp q hq
        obtain ⟨-, hsame, -⟩ := carries_fragments hfragments hnal hmin p hp
        have hle := (carries_packets rest hmin hmax q hq).2
        exact .inl (by omega)

end Packets

section Stream

variable {sendStapPackets : Bool}

/-- Fewer calls make the first of the packets. -/
theorem calls_first {m n : Nat} (h : m ≤ n) (f : H264Frame) :
    (f.calls sendStapPackets m) <+: (f.calls sendStapPackets n) := by
  induction m generalizing n f with
  | zero => exact List.nil_prefix
  | succ m ih =>
      obtain ⟨k, rfl⟩ : ∃ k, n = k + 1 := ⟨n - 1, by omega⟩
      rw [H264Frame.calls, H264Frame.calls]
      cases f.getRtpFrame sendStapPackets ⟨[], false⟩ with
      | none => exact List.prefix_rfl
      | some sent => exact (List.cons_prefix_cons).2 ⟨rfl, ih (by omega) sent.2⟩

/-- The sizes that a packet may have. -/
def SentFrame.Sizes (s : SentFrame) : Prop := 3 ≤ s.maxPayloadSize ∧ s.maxPayloadSize ≤ 65535

instance (s : SentFrame) : Decidable s.Sizes := inferInstanceAs (Decidable (_ ∧ _))

/-- What any number of calls sends of a frame. -/
theorem sent_packets (sendStapPackets : Bool) (s : SentFrame) (h : s.Sizes) :
    ∃ packets, Packets s.nals s.maxPayloadSize 0 packets ∧
      (((H264Frame.load s.maxPayloadSize s.nals).calls sendStapPackets s.calls).map
        labelled).Sublist packets := by
  obtain ⟨packets, ⟨n, hcalls⟩, hpackets⟩ :=
    yields_load sendStapPackets s.maxPayloadSize h.1 s.nals
  refine ⟨packets, hpackets, ?_⟩
  rw [← hcalls (max n s.calls) (Nat.le_max_left _ _)]
  exact ((calls_first (Nat.le_max_right _ _) _).map labelled).sublist

/-- Each packet of a stream is made of the units of its frame. -/
theorem carried_stream {frames : List SentFrame} (h : ∀ s ∈ frames, s.Sizes) (k₀ : Nat) :
    ∀ kp ∈ stream sendStapPackets k₀ frames, k₀ ≤ kp.1 ∧
      ∃ s, frames[kp.1 - k₀]? = some s ∧ Carries s.nals kp.2 := by
  induction frames generalizing k₀ with
  | nil => exact fun kp hkp => absurd hkp List.not_mem_nil
  | cons s frames ih =>
      intro kp hkp
      rcases List.mem_append.1 hkp with hkp | hkp
      · obtain ⟨call, hcall, rfl⟩ := List.mem_map.1 hkp
        have hsizes := h s List.mem_cons_self
        obtain ⟨packets, hpackets, hsub⟩ := sent_packets sendStapPackets s hsizes
        have hin := hsub.subset (List.mem_map_of_mem hcall)
        refine ⟨Nat.le_refl _, s, ?_, (carries_packets hpackets hsizes.1 hsizes.2 _ hin).1⟩
        rw [Nat.sub_self, List.getElem?_cons_zero]
      · obtain ⟨hle, s', hs', hcarries⟩ :=
          ih (fun s hs => h s (List.mem_cons_of_mem _ hs)) (k₀ + 1) kp hkp
        refine ⟨by omega, s', ?_, hcarries⟩
        rw [show kp.1 - k₀ = kp.1 - (k₀ + 1) + 1 by omega, List.getElem?_cons_succ]
        exact hs'

/-- One packet of a stream comes before another. -/
def BeforeIn (a b : Nat × Labelled) : Prop := a.1 < b.1 ∨ (a.1 = b.1 ∧ a.2.Before b.2)

theorem ordered_stream (sendStapPackets : Bool) {frames : List SentFrame} (h : ∀ s ∈ frames, s.Sizes) (k₀ : Nat) :
    (stream sendStapPackets k₀ frames).Pairwise BeforeIn := by
  induction frames generalizing k₀ with
  | nil => exact List.Pairwise.nil
  | cons s frames ih =>
      have hrest := fun s hs => h s (List.mem_cons_of_mem _ hs)
      have hsizes := h s List.mem_cons_self
      refine List.pairwise_append.2 ⟨?_, ih hrest (k₀ + 1), ?_⟩
      · obtain ⟨packets, hpackets, hsub⟩ := sent_packets sendStapPackets s hsizes
        have hordered := (ordered_packets hpackets hsizes.1 hsizes.2).sublist hsub
        rw [List.pairwise_map] at hordered ⊢
        exact hordered.imp fun hbefore => .inr ⟨rfl, hbefore⟩
      · intro a ha b hb
        obtain ⟨call, -, rfl⟩ := List.mem_map.1 ha
        have hle := (carried_stream hrest (k₀ + 1) b hb).1
        exact .inl hle

end Stream

section Receive

variable {frames : List SentFrame}

/-- A part of one unit that was sent. -/
def PartOfOne (frames : List SentFrame) (held : Octets) : Prop :=
  ∃ s ∈ frames, ∃ nal ∈ s.nals, held.Sublist nal

instance (frames : List SentFrame) (held : Octets) : Decidable (PartOfOne frames held) :=
  inferInstanceAs (Decidable (∃ s ∈ frames, ∃ nal ∈ s.nals, held.Sublist nal))

/-- While a unit is open, and its fragment was the last packet, what is held of it
ends before all of its fragments that are still to come. -/
def Open (frames : List SentFrame) (r : Receiver) (coming : List (Nat × Labelled)) : Prop :=
  r.frame.currentFu ≠ 0 → ∃ held last, r.frame.heldNals = held ++ [last] ∧
    ∀ k i, r.previous = some (k, i) → ∃ s nal reach, frames[k]? = some s ∧
      s.nals[i]? = some nal ∧ last.Sublist (nal.take reach) ∧
      ∀ q ∈ coming, q.1 = k → q.2.nal = i → 0 < q.2.offset ∧ reach ≤ q.2.offset

/-- What holds of the receiver, given the packets that are still to come. -/
structure Partial (frames : List SentFrame) (r : Receiver) (coming : List (Nat × Labelled)) :
    Prop where
  sound : r.frame.Sound
  parts : ∀ held ∈ r.frame.heldNals, PartOfOne frames held
  opened : Open frames r coming

variable {r : Receiver} {coming : List (Nat × Labelled)} {k : Nat} {p : Labelled}

/-- One packet less to come. -/
theorem Partial.tail (h : Partial frames r ((k, p) :: coming)) : Partial frames r coming where
  sound := h.sound
  parts := h.parts
  opened := by
    intro hopen
    obtain ⟨held, last, hlast, hcoming⟩ := h.opened hopen
    refine ⟨held, last, hlast, ?_⟩
    intro k' i hprevious
    obtain ⟨s, nal, reach, hs, hnal, hsub, hall⟩ := hcoming k' i hprevious
    exact ⟨s, nal, reach, hs, hnal, hsub, fun q hq => hall q (List.mem_cons_of_mem _ hq)⟩

/-- A frame that was begun anew. -/
theorem partial_begin (previous : Option (Nat × Nat)) (f : H264Frame) :
    Partial frames ⟨f.beginNewFrame, previous⟩ coming where
  sound := H264Frame.sound_create _
  parts := fun _ hheld => absurd hheld List.not_mem_nil
  opened := fun hno => absurd rfl hno

/-- Units that come whole are put at the end, and no fragment is the one before. -/
theorem partial_whole (h : Partial frames r coming) {g : H264Frame} {group : List Octets}
    (hsound : g.Sound) (hheld : g.heldNals = r.frame.heldNals ++ group)
    (hgroup : ∀ nal ∈ group, PartOfOne frames nal) (hfu : g.currentFu = r.frame.currentFu) :
    Partial frames ⟨g, none⟩ coming := by
  refine ⟨hsound, ?_, ?_⟩
  · intro nal hnal
    rw [hheld] at hnal
    rcases List.mem_append.1 hnal with hold | hnew
    · exact h.parts nal hold
    · exact hgroup nal hnew
  · intro hopen
    rw [hfu] at hopen
    obtain ⟨held, last, hlast, -⟩ := h.opened hopen
    have hne : g.heldNals ≠ [] := by
      rw [hheld, hlast]
      simp
    rcases List.eq_nil_or_concat g.heldNals with hnil | ⟨held', last', hconcat⟩
    · exact absurd hnil hne
    · exact ⟨held', last', by simpa using hconcat, fun k i hno => by simp at hno⟩

/-- A packet that is not a fragment. -/
theorem deliver_whole {g : H264Frame} {ok : Bool} (hp : ¬ IsFragment p.frame)
    (hset : r.frame.setFromRtpFrame p.frame = some (g, ok)) :
    r.deliver (.packet k p) = some ⟨g, none⟩ := by
  rw [Receiver.deliver, hset, Option.map_some, if_neg hp]

/-- A fragment. -/
theorem deliver_fragment {g : H264Frame} {ok : Bool} (hp : IsFragment p.frame)
    (hset : r.frame.setFromRtpFrame p.frame = some (g, ok)) :
    r.deliver (.packet k p) = some ⟨g, some (k, p.nal)⟩ := by
  rw [Receiver.deliver, hset, Option.map_some, if_pos hp]

theorem eq_rtpFrame {frame : RtpFrame} {payload : Octets} (h : frame.payload = payload) :
    frame = ⟨payload, frame.marker⟩ := by
  cases frame
  cases h
  rfl

theorem isFragment_indicator {nal rest : Octets} (h : p.frame.payload = indicatorOf nal :: rest) :
    IsFragment p.frame := by
  rw [IsFragment, h]
  exact type_indicator nal

/-- A fragment that does not begin a unit, where none is open. -/
theorem receive_stray {f : H264Frame} (hfu : f.currentFu = 0) (nal data : Octets)
    {header1 : UInt8} (hstart : header1 &&& 0x80 = 0) (marker : Bool) :
    f.setFromRtpFrame ⟨indicatorOf nal :: header1 :: data, marker⟩ =
      some (f.beginNewFrame, false) := by
  rw [setFromRtpFrame_fu, H264Frame.deencapsulateFu]
  by_cases hend : header1 &&& 0x40 = 0
  · simp [hstart, hend, hfu]
  · simp [hstart, hend, hfu]

/-- The step for a packet that is no fragment. -/
theorem partial_whole_packet (h : Partial frames r ((k, p) :: coming)) {s : SentFrame}
    (hs : s ∈ frames) (hunit : IsUnit p.frame.payload) (hnal : p.frame.payload ∈ s.nals) :
    ∃ r', r.deliver (.packet k p) = some r' ∧ Partial frames r' coming := by
  obtain ⟨hne, -, htype⟩ := hunit
  have hp : ¬ IsFragment p.frame := by
    intro hfragment
    rw [IsFragment] at hfragment
    rw [hfragment] at htype
    exact absurd htype (by decide)
  by_cases hknown : 1 ≤ p.frame.payload.headD 0 &&& 0x1f ∧ p.frame.payload.headD 0 &&& 0x1f ≤ 12
  · obtain ⟨g, hset, hsound, hheld, -, hfu⟩ :=
      @receive_single r.frame p.frame.marker h.sound _ hne hknown.1 hknown.2
    refine ⟨_, deliver_whole hp hset, partial_whole h.tail hsound hheld ?_ hfu⟩
    intro nal hmem
    rw [List.mem_singleton] at hmem
    exact ⟨s, hs, p.frame.payload, hnal, hmem ▸ List.Sublist.refl _⟩
  · -- A type that the class does not know.
    have hset : r.frame.setFromRtpFrame p.frame = some (r.frame.beginNewFrame, false) := by
      obtain ⟨header, body, hpayload⟩ := List.exists_cons_of_ne_nil hne
      rw [hpayload, List.headD_cons] at hknown htype
      rw [eq_rtpFrame hpayload]
      simp only [H264Frame.setFromRtpFrame]
      rw [if_neg hknown, if_neg, if_neg]
      · intro hno
        rw [hno] at htype
        exact absurd htype (by decide)
      · intro hno
        rw [hno] at htype
        exact absurd htype (by decide)
    exact ⟨_, deliver_whole hp hset, partial_begin none r.frame⟩

/-- What is held of the unit that a fragment goes on with. -/
theorem held_before (h : Partial frames r ((k, p) :: coming))
    (hturn : r.frame.currentFu = 0 ∨ r.previous = some (k, p.nal))
    (hopen : r.frame.currentFu ≠ 0) {s : SentFrame} {nal : Octets} (hs : frames[k]? = some s)
    (hnal : s.nals[p.nal]? = some nal) :
    ∃ held last, r.frame.heldNals = held ++ [last] ∧ 0 < p.offset ∧
      last.Sublist (nal.take p.offset) := by
  obtain ⟨held, last, hlast, hcoming⟩ := h.opened hopen
  have hprevious := hturn.resolve_left hopen
  obtain ⟨s', nal', reach, hs', hnal', hsub, hall⟩ := hcoming k p.nal hprevious
  obtain rfl : s = s' := Option.some.inj (hs.symm.trans hs')
  obtain rfl : nal = nal' := Option.some.inj (hnal.symm.trans hnal')
  obtain ⟨hpos, hreach⟩ := hall (k, p) List.mem_cons_self rfl rfl
  exact ⟨held, last, hlast, hpos, hsub.trans (List.take_sublist_take_left hreach)⟩

/-- More of a unit is held, and it is still a part of it. -/
theorem partial_longer (h : Partial frames r ((k, p) :: coming)) {g : H264Frame}
    {held : List Octets} {last nal : Octets} {s : SentFrame} (hs : frames[k]? = some s)
    (hnal : s.nals[p.nal]? = some nal) (hsound : g.Sound) (hheld : g.heldNals = held ++ [last])
    (hold : ∀ nal ∈ held, nal ∈ r.frame.heldNals) (hsub : last.Sublist (nal.take p.reach))
    (hordered : ∀ q ∈ coming, BeforeIn (k, p) q) :
    Partial frames ⟨g, some (k, p.nal)⟩ coming := by
  refine ⟨hsound, ?_, ?_⟩
  · intro nal' hmem
    rw [hheld] at hmem
    rcases List.mem_append.1 hmem with hmem | hmem
    · exact h.parts nal' (hold nal' hmem)
    · rw [List.mem_singleton] at hmem
      exact ⟨s, List.mem_of_getElem? hs, nal, List.mem_of_getElem? hnal,
        hmem ▸ hsub.trans (List.take_sublist _ _)⟩
  · intro _
    refine ⟨held, last, hheld, ?_⟩
    intro k' i hprevious
    obtain ⟨rfl, rfl⟩ : k = k' ∧ p.nal = i := by
      simpa using hprevious
    refine ⟨s, nal, p.reach, hs, hnal, hsub, ?_⟩
    intro q hq hk hi
    rcases hordered q hq with hless | ⟨-, hless | ⟨-, hpos, hreach⟩⟩
    · exact absurd hless (by rw [hk]; exact Nat.lt_irrefl _)
    · exact absurd hless (by rw [hi]; exact Nat.lt_irrefl _)
    · exact ⟨hpos, hreach⟩

/-- The step: a packet comes. -/
theorem partial_packet (hunits : ∀ s ∈ frames, ∀ nal ∈ s.nals, IsUnit nal)
    (h : Partial frames r ((k, p) :: coming)) {s : SentFrame} (hs : frames[k]? = some s)
    (hcarries : Carries s.nals p) (hordered : ∀ q ∈ coming, BeforeIn (k, p) q)
    (hturn : InTurn r (.packet k p)) :
    ∃ r', r.deliver (.packet k p) = some r' ∧ Partial frames r' coming := by
  have hsmem : s ∈ frames := List.mem_of_getElem? hs
  cases hcarries with
  | whole hnal => exact partial_whole_packet h hsmem (hunits s hsmem _ hnal) hnal
  | @group group nri hgroup hnri hpayload =>
      have hp : ¬ IsFragment p.frame := by
        rw [IsFragment, hpayload, List.headD_cons, type_aggregate hnri]
        decide
      obtain ⟨g, hset, hsound, hheld, -, hfu⟩ :=
        @receive_aggregate r.frame p.frame.marker h.sound group nri hnri fun nal hmem =>
          ⟨(hunits s hsmem nal (hgroup nal hmem).1).1, (hgroup nal hmem).2⟩
      rw [← eq_rtpFrame hpayload] at hset
      refine ⟨_, deliver_whole hp hset, partial_whole h.tail hsound hheld ?_ hfu⟩
      intro nal hmem
      exact ⟨s, hsmem, nal, (hgroup nal hmem).1, List.Sublist.refl _⟩
  | @start nal n hnal hoff hn hpayload =>
      have hp := isFragment_indicator hpayload
      -- No unit is open: its fragments would all be behind their headers.
      have hclosed : r.frame.currentFu = 0 := by
        by_cases hopen : r.frame.currentFu = 0
        · exact hopen
        · obtain ⟨-, -, -, hpos, -⟩ := held_before h (hturn hp) hopen hs hnal
          omega
      obtain ⟨hne, hbit, -⟩ := hunits s hsmem nal (List.mem_of_getElem? hnal)
      obtain ⟨header, body, rfl⟩ := List.exists_cons_of_ne_nil hne
      obtain ⟨g, hset, hsound, hheld, -, -⟩ := @receive_start r.frame p.frame.marker h.sound
        hclosed (header :: body) hbit (slice (header :: body) 1 n)
      rw [← eq_rtpFrame hpayload] at hset
      refine ⟨_, deliver_fragment hp hset,
        partial_longer h hs hnal hsound hheld (fun _ hmem => hmem) ?_ hordered⟩
      have hreach : p.reach = n + 1 := by
        rw [Labelled.reach, hoff, hpayload, List.length_cons, List.length_cons, length_part hn]
        omega
      rw [hreach, List.take_succ_cons, List.headD_cons, slice, List.drop_one, List.tail_cons]
  | @middle nal n hnal hn hpayload =>
      have hp := isFragment_indicator hpayload
      by_cases hopen : r.frame.currentFu = 0
      · have hset := receive_stray hopen nal (slice nal p.offset n) (flags_middle nal).1
          p.frame.marker
        rw [← eq_rtpFrame hpayload] at hset
        exact ⟨_, deliver_fragment hp hset, partial_begin _ _⟩
      · obtain ⟨held, last, hlast, hpos, hsub⟩ := held_before h (hturn hp) hopen hs hnal
        obtain ⟨g, hset, hsound, hheld, -, -⟩ := @receive_middle r.frame p.frame.marker h.sound
          hopen held last hlast nal (slice nal p.offset n)
        rw [← eq_rtpFrame hpayload] at hset
        refine ⟨_, deliver_fragment hp hset,
          partial_longer h hs hnal hsound hheld (fun nal hmem => ?_) ?_ hordered⟩
        · rw [hlast]
          exact List.mem_append_left _ hmem
        · have hreach : p.reach = p.offset + n := by
            rw [Labelled.reach, hpayload, List.length_cons, List.length_cons, length_part hn]
            omega
          rw [hreach, List.take_add]
          exact hsub.append (List.Sublist.refl _)
  | @finish nal hnal hpayload =>
      have hp := isFragment_indicator hpayload
      by_cases hopen : r.frame.currentFu = 0
      · have hset := receive_stray hopen nal (nal.drop p.offset) (flags_end nal).1 p.frame.marker
        rw [← eq_rtpFrame hpayload] at hset
        exact ⟨_, deliver_fragment hp hset, partial_begin _ _⟩
      · obtain ⟨held, last, hlast, hpos, hsub⟩ := held_before h (hturn hp) hopen hs hnal
        obtain ⟨g, hset, hsound, hheld, -, -⟩ := @receive_end r.frame p.frame.marker h.sound
          hopen held last hlast nal (nal.drop p.offset)
        rw [← eq_rtpFrame hpayload] at hset
        refine ⟨_, deliver_fragment hp hset,
          partial_longer h hs hnal hsound hheld (fun nal hmem => ?_) ?_ hordered⟩
        · rw [hlast]
          exact List.mem_append_left _ hmem
        · have hreach : nal.take p.reach = nal := by
            apply List.take_of_length_le
            rw [Labelled.reach, hpayload, List.length_cons, List.length_cons, List.length_drop]
            omega
          have hjoin := hsub.append (List.Sublist.refl (nal.drop p.offset))
          rw [List.take_append_drop] at hjoin
          rw [hreach]
          exact hjoin

end Receive

/-- Packets that come from a stream, and frames that are begun in between. -/
theorem partial_deliveries {frames : List SentFrame}
    (hunits : ∀ s ∈ frames, ∀ nal ∈ s.nals, IsUnit nal) (deliveries : List Delivery) :
    ∀ r : Receiver, Partial frames r (deliveries.filterMap Delivery.sent) →
      (deliveries.filterMap Delivery.sent).Pairwise BeforeIn →
      (∀ kp ∈ deliveries.filterMap Delivery.sent, ∃ s, frames[kp.1]? = some s ∧
        Carries s.nals kp.2) →
      AllInTurn r deliveries →
      ∃ r', r.deliverAll deliveries = some r' ∧ ∀ held ∈ r'.frame.heldNals,
        PartOfOne frames held := by
  induction deliveries with
  | nil => exact fun r h _ _ _ => ⟨r, rfl, h.parts⟩
  | cons d deliveries ih =>
      intro r h hordered hcarried hturns
      obtain ⟨hturn, hrest⟩ := hturns
      -- One delivery, and then the others.
      have hnext : ∃ r', r.deliver d = some r' ∧
          Partial frames r' (deliveries.filterMap Delivery.sent) ∧
          (deliveries.filterMap Delivery.sent).Pairwise BeforeIn ∧
          ∀ kp ∈ deliveries.filterMap Delivery.sent, ∃ s, frames[kp.1]? = some s ∧
            Carries s.nals kp.2 := by
        cases d with
        | beginNewFrame => exact ⟨_, rfl, partial_begin _ _, hordered, hcarried⟩
        | packet k p =>
            have hsent : (Delivery.packet k p :: deliveries).filterMap Delivery.sent =
                (k, p) :: deliveries.filterMap Delivery.sent := rfl
            rw [hsent] at h hordered hcarried
            obtain ⟨hfirst, hothers⟩ := List.pairwise_cons.1 hordered
            obtain ⟨s, hs, hcarries⟩ := hcarried (k, p) List.mem_cons_self
            obtain ⟨r', hdeliver, hpartial⟩ := partial_packet hunits h hs hcarries hfirst hturn
            exact ⟨r', hdeliver, hpartial, hothers,
              fun kp hkp => hcarried kp (List.mem_cons_of_mem _ hkp)⟩
      obtain ⟨r', hdeliver, hpartial, hothers, hcarried'⟩ := hnext
      obtain ⟨r'', hall, hheld⟩ := ih r' hpartial hothers hcarried' (hrest r' hdeliver)
      refine ⟨r'', ?_, hheld⟩
      rw [Receiver.deliverAll, hdeliver]
      exact hall

/-- Whichever packets of a stream are lost, if those that come are in their turn,
each unit that the receiver holds is a part of one unit that was sent. -/
theorem held_parts (sendStapPackets : Bool) (frames : List SentFrame)
    (hsizes : ∀ s ∈ frames, s.Sizes) (hunits : ∀ s ∈ frames, ∀ nal ∈ s.nals, IsUnit nal)
    (deliveries : List Delivery)
    (hsub : (deliveries.filterMap Delivery.sent).Sublist (stream sendStapPackets 0 frames))
    (receiverSize : Nat) (hturns : AllInTurn (Receiver.create receiverSize) deliveries) :
    ∃ r, (Receiver.create receiverSize).deliverAll deliveries = some r ∧
      ∀ held ∈ r.frame.heldNals, PartOfOne frames held := by
  have hinit : Partial frames (Receiver.create receiverSize)
      (deliveries.filterMap Delivery.sent) :=
    partial_begin none (H264Frame.create receiverSize)
  have hordered := (ordered_stream sendStapPackets hsizes 0).sublist hsub
  have hcarried := fun kp hkp => (carried_stream hsizes 0 kp (hsub.subset hkp)).2
  exact partial_deliveries hunits deliveries _ hinit hordered hcarried hturns

/-- Two units, each in two fragments. -/
def twoUnits : List SentFrame := [⟨4, [[0x65, 1, 2, 3, 4], [0x41, 5, 6, 7, 8]], 8⟩]

/-- The first fragment of the second unit is lost, and what remains of it is not
taken for anything else. -/
theorem held_parts_lost :
    ∃ r, (Receiver.create 1400).deliverAll
        (((stream false 0 twoUnits).eraseIdx 2).map fun kp => .packet kp.1 kp.2) = some r ∧
      ∀ held ∈ r.frame.heldNals, PartOfOne twoUnits held :=
  held_parts false twoUnits (by decide) (by decide) _ (by decide) 1400 (by decide)

/-- The last fragment of the first unit is lost: the first fragment of the second
one is thrown away, and its last one is put after the first unit. -/
theorem units_mixed :
    let deliveries := ((stream false 0 twoUnits).eraseIdx 1).map fun kp =>
      Delivery.packet kp.1 kp.2
    (deliveries.filterMap Delivery.sent).Sublist (stream false 0 twoUnits) ∧
      ((Receiver.create 1400).deliverAll deliveries).map (fun r => r.frame.heldNals) =
        some [[0x65, 1, 2, 7, 8]] ∧
      ¬ PartOfOne twoUnits [0x65, 1, 2, 7, 8] := by
  decide

end H264

end Codec

end CryptoOpal

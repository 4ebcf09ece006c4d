import Mathlib.Algebra.Order.BigOperators.Group.List
import Mathlib.Algebra.Order.Group.Nat
import CryptoOpal.Codec.H264Packets

/-!
# NAL Units Come Back

The packets that are made of some NAL units, received in order by a new frame,
give the units back, each after a start code.

Of each kind of packet there is one lemma that says what the receiver makes of
it. A fragment is put after what is there of its unit (`receive_middle`,
`receive_end`) as long as the counter of fragments is not zero, and the counter
has 16 bits, so a unit has to have less than 2^16 fragments
(`receive_fragments`). The rest is an induction on the packets
(`receive_packets`).

## Main definitions

* `WellFormed`: The units that the claim is about.
* `fragmentCount`: How many fragments a unit is split into.
* `Receiving`: What a frame holds that is between two units.

## Theorems

* `receive_single`, `receive_aggregate`, `receive_start`, `receive_middle`,
  `receive_end`: What comes of a packet.
* `receive_packets`: What comes of all of them.
* `packets_fit`, `packets_marker`: Sizes and markers.
* `nal_round_trip`: The units come back.
-/

namespace CryptoOpal

namespace Codec

namespace H264

open Lib (Octets slice bigEndian ofBigEndian forall_octet)

/-- A unit with a header of a type that can be sent as it is: no forbidden bit,
and a type from 1 to 12. -/
def WellFormed (nal : Octets) : Prop :=
  nal ≠ [] ∧ nal.headD 0 &&& 0x80 = 0 ∧ 1 ≤ nal.headD 0 &&& 0x1f ∧ nal.headD 0 &&& 0x1f ≤ 12

instance (nal : Octets) : Decidable (WellFormed nal) := inferInstanceAs (Decidable (_ ∧ _))

/-- How many fragments a unit is split into: what follows its header, in parts of
the payload size less two. -/
def fragmentCount (maxPayloadSize : Nat) (nal : Octets) : Nat :=
  if maxPayloadSize < nal.length then
    (nal.length - 1 + (maxPayloadSize - 3)) / (maxPayloadSize - 2)
  else
    0

section Headers

/-- The masks of the indicators and of the fragment headers, on every octet. -/
theorem header_masks (x : UInt8) :
    (((x &&& 0x60) ||| 28) &&& 0x1f = 28 ∧ (x &&& 0x1f = 0 → (24 ||| x) &&& 0x1f = 24)) ∧
      ((0x80 ||| (x &&& 0x1f)) &&& 0x80 ≠ 0 ∧ (0x80 ||| (x &&& 0x1f)) &&& 0x40 = 0) ∧
      ((x &&& 0x1f) &&& 0x80 = 0 ∧ (x &&& 0x1f) &&& 0x40 = 0) ∧
      (((x &&& 0x1f) ||| 0x40) &&& 0x80 = 0 ∧ ((x &&& 0x1f) ||| 0x40) &&& 0x40 ≠ 0) ∧
      (x &&& 0x80 = 0 →
        ((((x &&& 0x60) ||| 28) &&& 0xe0) ||| ((0x80 ||| (x &&& 0x1f)) &&& 0x1f)) = x) := by
  revert x
  exact forall_octet (by decide +kernel)

theorem type_indicator (nal : Octets) : indicatorOf nal &&& 0x1f = 28 := (header_masks _).1.1

theorem type_aggregate {nri : UInt8} (h : nri &&& 0x1f = 0) : (24 ||| nri) &&& 0x1f = 24 :=
  (header_masks nri).1.2 h

/-- The flags of the fragments: the first, those in the middle, and the last. -/
theorem flags_start (nal : Octets) : (0x80 ||| fuHeaderOf nal) &&& 0x80 ≠ 0 ∧
    (0x80 ||| fuHeaderOf nal) &&& 0x40 = 0 := (header_masks _).2.1

theorem flags_middle (nal : Octets) : fuHeaderOf nal &&& 0x80 = 0 ∧
    fuHeaderOf nal &&& 0x40 = 0 := (header_masks _).2.2.1

theorem flags_end (nal : Octets) : (fuHeaderOf nal ||| 0x40) &&& 0x80 = 0 ∧
    (fuHeaderOf nal ||| 0x40) &&& 0x40 ≠ 0 := (header_masks _).2.2.2.1

/-- The header that the first fragment gives back. -/
theorem header_restored {nal : Octets} (h : nal.headD 0 &&& 0x80 = 0) :
    (indicatorOf nal &&& 0xe0) ||| ((0x80 ||| fuHeaderOf nal) &&& 0x1f) = nal.headD 0 :=
  (header_masks _).2.2.2.2 h

end Headers

section Receive

variable {f : H264Frame} {marker : Bool}

/-- A unit by itself. -/
theorem receive_single (hf : f.Sound) {nal : Octets} (h : nal ≠ [])
    (hlow : 1 ≤ nal.headD 0 &&& 0x1f) (hhigh : nal.headD 0 &&& 0x1f ≤ 12) :
    ∃ g, f.setFromRtpFrame ⟨nal, marker⟩ = some (g, true) ∧ g.Sound ∧
      g.heldNals = f.heldNals ++ [nal] ∧
      g.encodedFrame = f.encodedFrame ++ ([0, 0, 0, 1] ++ nal) ∧ g.currentFu = f.currentFu := by
  cases nal with
  | nil => exact absurd rfl h
  | cons header body =>
      rw [List.headD_cons] at hlow hhigh
      obtain ⟨g, hadded, hg⟩ := H264Frame.addDataToEncodedFrame_header hf header body
      refine ⟨g, ?_, hg⟩
      simp only [H264Frame.setFromRtpFrame]
      rw [if_pos ⟨hlow, hhigh⟩, hadded, Option.map_some]

/-- Any packet with the indicator of a fragment. -/
theorem setFromRtpFrame_fu (nal data : Octets) (header1 : UInt8) :
    f.setFromRtpFrame ⟨indicatorOf nal :: header1 :: data, marker⟩ =
      (f.deencapsulateFu (indicatorOf nal) header1 data).map fun done =>
        if done.2 then done else (done.1.beginNewFrame, false) := by
  have h12 : ¬ ((1 : UInt8) ≤ 28 ∧ (28 : UInt8) ≤ 12) := by decide
  have h24 : ¬ (28 : UInt8) = 24 := by decide
  simp only [H264Frame.setFromRtpFrame, type_indicator]
  rw [if_neg h12, if_neg h24, if_pos trivial]

/-- The first fragment of a unit, where none is open. -/
theorem receive_start (hf : f.Sound) (hfu : f.currentFu = 0) {nal : Octets}
    (hbit : nal.headD 0 &&& 0x80 = 0) (data : Octets) :
    ∃ g, f.setFromRtpFrame ⟨indicatorOf nal :: (0x80 ||| fuHeaderOf nal) :: data, marker⟩ =
        some (g, true) ∧ g.Sound ∧ g.heldNals = f.heldNals ++ [nal.headD 0 :: data] ∧
      g.encodedFrame = f.encodedFrame ++ ([0, 0, 0, 1] ++ nal.headD 0 :: data) ∧
      g.currentFu = 1 := by
  obtain ⟨hstart, hend⟩ := flags_start nal
  have hcounted : ({ f with currentFu := f.currentFu + 1 } : H264Frame).Sound :=
    ⟨hf.inside, hf.atEnd⟩
  obtain ⟨g, hadded, hg, hheld, hframe, hcount⟩ :=
    H264Frame.addDataToEncodedFrame_header hcounted (nal.headD 0) data
  refine ⟨g, ?_, hg, hheld, hframe, ?_⟩
  · rw [setFromRtpFrame_fu, H264Frame.deencapsulateFu, header_restored hbit]
    simp only [hstart, hend, hfu, ne_eq, not_true_eq_false, not_false_eq_true, decide_true,
      decide_false, if_false]
    rw [hfu] at hadded
    rw [hadded]
    rfl
  · rw [hcount, hfu]
    rfl

/-- A fragment in the middle of the last unit. -/
theorem receive_middle (hf : f.Sound) (hfu : f.currentFu ≠ 0) {held : List Octets}
    {last : Octets} (hheld : f.heldNals = held ++ [last]) (nal data : Octets) :
    ∃ g, f.setFromRtpFrame ⟨indicatorOf nal :: fuHeaderOf nal :: data, marker⟩ =
        some (g, true) ∧ g.Sound ∧ g.heldNals = held ++ [last ++ data] ∧
      g.encodedFrame = f.encodedFrame ++ data ∧ g.currentFu = f.currentFu + 1 := by
  obtain ⟨hstart, hend⟩ := flags_middle nal
  have hcounted : ({ f with currentFu := f.currentFu + 1 } : H264Frame).Sound :=
    ⟨hf.inside, hf.atEnd⟩
  obtain ⟨g, hadded, hg, hheld', hframe, hcount⟩ :=
    H264Frame.addDataToEncodedFrame_more hcounted hheld data
  refine ⟨g, ?_, hg, hheld', hframe, hcount⟩
  rw [setFromRtpFrame_fu, H264Frame.deencapsulateFu]
  simp only [hstart, hend, hfu, ne_eq, not_true_eq_false, not_false_eq_true, decide_false, if_true]
  rw [hadded]
  rfl

/-- The last fragment of the last unit. -/
theorem receive_end (hf : f.Sound) (hfu : f.currentFu ≠ 0) {held : List Octets}
    {last : Octets} (hheld : f.heldNals = held ++ [last]) (nal data : Octets) :
    ∃ g, f.setFromRtpFrame ⟨indicatorOf nal :: (fuHeaderOf nal ||| 0x40) :: data, marker⟩ =
        some (g, true) ∧ g.Sound ∧ g.heldNals = held ++ [last ++ data] ∧
      g.encodedFrame = f.encodedFrame ++ data ∧ g.currentFu = 0 := by
  obtain ⟨hstart, hend⟩ := flags_end nal
  have hcounted : ({ f with currentFu := 0 } : H264Frame).Sound := ⟨hf.inside, hf.atEnd⟩
  obtain ⟨g, hadded, hg, hheld', hframe, hcount⟩ :=
    H264Frame.addDataToEncodedFrame_more hcounted hheld data
  refine ⟨g, ?_, hg, hheld', hframe, hcount⟩
  rw [setFromRtpFrame_fu, H264Frame.deencapsulateFu]
  simp only [hstart, hend, hfu, ne_eq, not_true_eq_false, not_false_eq_true, decide_false,
    decide_true, if_true]
  rw [hadded]
  rfl

/-- The units of an aggregate, one after another. -/
theorem deencapsulateStap_units (group : List Octets) :
    ∀ (f : H264Frame) (rounds : Nat), f.Sound → (∀ nal ∈ group, nal ≠ [] ∧ nal.length < 65536) →
      group.length ≤ rounds →
      ∃ g, H264Frame.deencapsulateStap rounds f
          (group.flatMap fun nal => bigEndian 2 nal.length ++ nal) = some g ∧ g.Sound ∧
        g.heldNals = f.heldNals ++ group ∧
        g.encodedFrame = f.encodedFrame ++ group.flatMap ([0, 0, 0, 1] ++ ·) ∧
        g.currentFu = f.currentFu := by
  induction group with
  | nil =>
      intro f rounds hf _ _
      refine ⟨f, ?_, hf, (List.append_nil _).symm, (List.append_nil _).symm, rfl⟩
      cases rounds <;> rfl
  | cons nal group ih =>
      intro f rounds hf hnals hrounds
      obtain ⟨⟨hne, hshort⟩, hrest⟩ := List.forall_mem_cons.1 hnals
      obtain ⟨header, body, rfl⟩ := List.exists_cons_of_ne_nil hne
      obtain ⟨left, rfl⟩ : ∃ left, rounds = left + 1 :=
        ⟨rounds - 1, by rw [List.length_cons] at hrounds; omega⟩
      obtain ⟨g, hadded, hg, hheld, hframe, hcount⟩ :=
        H264Frame.addDataToEncodedFrame_header hf header body
      obtain ⟨g', hunits, hg', hheld', hframe', hcount'⟩ :=
        ih g left hg hrest (by rw [List.length_cons] at hrounds; omega)
      refine ⟨g', ?_, hg', ?_, ?_, hcount'.trans hcount⟩
      · have hlen : ofBigEndian (bigEndian 2 (header :: body).length) = (header :: body).length := by
          rw [Lib.ofBigEndian_bigEndian]
          exact Nat.mod_eq_of_lt hshort
        rw [List.flatMap_cons, List.append_assoc]
        generalize (group.flatMap fun nal => bigEndian 2 nal.length ++ nal) = others at hunits ⊢
        simp only [bigEndian, List.cons_append, List.nil_append] at hlen ⊢
        rw [H264Frame.deencapsulateStap]
        simp only [hlen]
        -- The unit is all there, and what follows it are the other units.
        have hthere : ¬ (header :: (body ++ others)).length < (header :: body).length := by
          simp only [List.length_cons, List.length_append]
          omega
        rw [← List.cons_append] at hthere ⊢
        rw [if_neg hthere, List.take_left, List.drop_left]
        simp only [hadded, Option.bind_some]
        exact hunits
      · rw [hheld', hheld, List.append_assoc]
        rfl
      · rw [hframe', hframe, List.append_assoc]
        rfl

/-- An aggregate. -/
theorem receive_aggregate (hf : f.Sound) {group : List Octets} {nri : UInt8}
    (hnri : nri &&& 0x1f = 0) (hnals : ∀ nal ∈ group, nal ≠ [] ∧ nal.length < 65536) :
    ∃ g, f.setFromRtpFrame
        ⟨(24 ||| nri) :: group.flatMap fun nal => bigEndian 2 nal.length ++ nal, marker⟩ =
        some (g, true) ∧ g.Sound ∧ g.heldNals = f.heldNals ++ group ∧
      g.encodedFrame = f.encodedFrame ++ group.flatMap ([0, 0, 0, 1] ++ ·) ∧
      g.currentFu = f.currentFu := by
  -- Each unit takes up some octets, so there are rounds enough.
  have hrounds : ∀ group : List Octets, group.length ≤
      (group.flatMap fun nal => bigEndian 2 nal.length ++ nal).length := by
    intro group
    induction group with
    | nil => exact Nat.le_refl 0
    | cons nal group ih =>
        rw [List.flatMap_cons, List.length_append, List.length_append, Lib.length_bigEndian,
          List.length_cons]
        omega
  obtain ⟨g, hunits, hg⟩ := deencapsulateStap_units group f _ hf hnals (hrounds group)
  refine ⟨g, ?_, hg⟩
  have h12 : ¬ ((1 : UInt8) ≤ 24 ∧ (24 : UInt8) ≤ 12) := by decide
  simp only [H264Frame.setFromRtpFrame, type_aggregate hnri]
  rw [if_neg h12, if_pos trivial, hunits, Option.map_some]

end Receive

section Sequences

variable {nals : List Octets} {maxPayloadSize i : Nat} {nal : Octets} {final : Bool} {off : Nat}
  {packets : List Labelled}

theorem receive_append (f : H264Frame) (before after : List RtpFrame) :
    f.receive (before ++ after) = (f.receive before).bind fun g => g.receive after := by
  induction before generalizing f with
  | nil => rfl
  | cons frame before ih =>
      rw [List.cons_append, H264Frame.receive, H264Frame.receive]
      cases f.setFromRtpFrame frame with
      | none => rfl
      | some done => exact ih done.1

/-- A packet, and what is received after it. -/
theorem receive_cons {f g h : H264Frame} {frame : RtpFrame} {ok : Bool} {frames : List RtpFrame}
    (hfirst : f.setFromRtpFrame frame = some (g, ok)) (hrest : g.receive frames = some h) :
    f.receive (frame :: frames) = some h := by
  rw [H264Frame.receive, hfirst]
  exact hrest

/-- All fragments but the last are full. -/
theorem fragments_length (h : Fragments maxPayloadSize i nal final off packets) :
    ∃ full, packets.length = full + 1 ∧ full * (maxPayloadSize - 2) < nal.length - off := by
  induction h with
  | last hoff hfit => exact ⟨0, rfl, by omega⟩
  | more hoff hlong rest ih =>
      obtain ⟨full, hlength, hfull⟩ := ih
      refine ⟨full + 1, by rw [List.length_cons, hlength], ?_⟩
      rw [Nat.add_mul, Nat.one_mul]
      omega

/-- The rest of a unit is put after what is there of it. -/
theorem receive_fragments (h : Fragments maxPayloadSize i nal final off packets)
    {held : List Octets} :
    ∀ f : H264Frame, f.Sound → f.heldNals = held ++ [nal.take off] → f.currentFu ≠ 0 →
      f.currentFu.toNat + packets.length ≤ 65536 →
      ∃ g, f.receive (packets.map Labelled.frame) = some g ∧ g.Sound ∧
        g.heldNals = held ++ [nal] ∧ g.encodedFrame = f.encodedFrame ++ nal.drop off ∧
        g.currentFu = 0 := by
  induction h with
  | @last off hoff hfit =>
      intro f hf hheld hfu _
      obtain ⟨g, hreceived, hg, hheld', hframe, hcount⟩ :=
        @receive_end f final hf hfu held _ hheld nal (nal.drop off)
      refine ⟨g, receive_cons hreceived rfl, hg, ?_, hframe, hcount⟩
      rw [hheld', List.take_append_drop]
  | @more off packets hoff hlong rest ih =>
      intro f hf hheld hfu hroom
      obtain ⟨g, hreceived, hg, hheld', hframe, hcount⟩ :=
        @receive_middle f false hf hfu held _ hheld nal (slice nal off (maxPayloadSize - 2))
      -- The counter does not come around before the last fragment.
      have hpos : 0 < packets.length := by
        obtain ⟨full, hlength, -⟩ := fragments_length rest
        omega
      rw [List.length_cons] at hroom
      have htoNat : g.currentFu.toNat = f.currentFu.toNat + 1 := by
        rw [hcount, UInt16.toNat_add]
        exact Nat.mod_eq_of_lt (by
          change f.currentFu.toNat + 1 < 65536
          omega)
      have hgfu : g.currentFu ≠ 0 := by
        intro hzero
        rw [hzero] at htoNat
        exact absurd htoNat.symm (Nat.succ_ne_zero _)
      have hjoined : nal.take off ++ slice nal off (maxPayloadSize - 2) =
          nal.take (off + (maxPayloadSize - 2)) := by
        rw [slice, List.take_add]
      rw [hjoined] at hheld'
      obtain ⟨g', hrest, hg', hheld'', hframe', hcount'⟩ := ih g hg hheld' hgfu (by omega)
      refine ⟨g', receive_cons hreceived hrest, hg', hheld'', ?_, hcount'⟩
      rw [hframe', hframe, List.append_assoc, slice, ← List.drop_drop, List.take_append_drop]

/-- There are not too many fragments. -/
theorem fragments_few (h : Fragments maxPayloadSize i nal final (1 + (maxPayloadSize - 2)) packets)
    (hmax : 3 ≤ maxPayloadSize) (hlong : maxPayloadSize < nal.length)
    (hcount : fragmentCount maxPayloadSize nal < 65536) : packets.length < 65535 := by
  obtain ⟨full, hlength, hfull⟩ := fragments_length h
  rw [fragmentCount, if_pos hlong] at hcount
  have hpos : 0 < maxPayloadSize - 2 := by omega
  have hdiv := (Nat.div_lt_iff_lt_mul hpos).1 hcount
  -- With so many fragments the unit would be longer.
  have hless : (full + 1) * (maxPayloadSize - 2) < 65535 * (maxPayloadSize - 2) := by
    rw [Nat.add_mul, Nat.one_mul]
    have hsplit : 65536 * (maxPayloadSize - 2) =
        65535 * (maxPayloadSize - 2) + (maxPayloadSize - 2) := by
      omega
    omega
  have hfew := Nat.lt_of_mul_lt_mul_right hless
  omega

/-- All the packets of a frame. -/
theorem receive_packets (h : Packets nals maxPayloadSize i packets) (hmin : 3 ≤ maxPayloadSize)
    (hmax : maxPayloadSize ≤ 65535) (hnals : ∀ nal ∈ nals, WellFormed nal)
    (hcount : ∀ nal ∈ nals, fragmentCount maxPayloadSize nal < 65536) :
    ∀ f : H264Frame, f.Sound → f.currentFu = 0 →
      ∃ g, f.receive (packets.map Labelled.frame) = some g ∧
        g.heldNals = f.heldNals ++ nals.drop i ∧
        g.encodedFrame = f.encodedFrame ++ (nals.drop i).flatMap ([0, 0, 0, 1] ++ ·) := by
  induction h with
  | done hdone =>
      intro f _ _
      refine ⟨f, rfl, ?_, ?_⟩
      · rw [List.drop_eq_nil_of_le hdone, List.append_nil]
      · rw [List.drop_eq_nil_of_le hdone]
        exact (List.append_nil _).symm
  | @single i nal packets hnal hfit rest ih =>
      intro f hf hfu
      obtain ⟨hlt, hget⟩ := List.getElem?_eq_some_iff.1 hnal
      have hdrop : nals.drop i = nal :: nals.drop (i + 1) := by
        rw [List.drop_eq_getElem_cons hlt, hget]
      obtain ⟨hne, -, hlow, hhigh⟩ := hnals nal (List.mem_of_getElem? hnal)
      obtain ⟨g, hreceived, hg, hheld, hframe, hgfu⟩ :=
        @receive_single f (decide (nals.length ≤ i + 1)) hf nal hne hlow hhigh
      obtain ⟨g', hrest, hheld', hframe'⟩ := ih g hg (hgfu.trans hfu)
      refine ⟨g', receive_cons hreceived hrest, ?_, ?_⟩
      · rw [hheld', hheld, hdrop, List.append_assoc, List.singleton_append]
      · rw [hframe', hframe, hdrop, List.append_assoc, List.flatMap_cons]
  | @aggregate i group nri packets hgroup hne hfit hnri rest ih =>
      intro f hf hfu
      have hdrop : nals.drop i = group ++ nals.drop (i + group.length) := by
        have hsplit := List.take_append_drop group.length (nals.drop i)
        rw [hgroup, List.drop_drop] at hsplit
        exact hsplit.symm
      -- The two octets of a length are enough for each unit.
      have hunits : ∀ nal ∈ group, nal ≠ [] ∧ nal.length < 65536 := by
        intro nal hmem
        have hin : nal ∈ nals := by
          apply List.mem_of_mem_drop
          rw [hdrop]
          exact List.mem_append_left _ hmem
        have hcost : 2 + nal.length ≤ (group.map fun nal => 2 + nal.length).sum :=
          List.le_sum_of_mem (List.mem_map.2 ⟨nal, hmem, rfl⟩)
        exact ⟨(hnals nal hin).1, by omega⟩
      obtain ⟨g, hreceived, hg, hheld, hframe, hgfu⟩ :=
        @receive_aggregate f (decide (nals.length ≤ i + group.length)) hf group nri hnri hunits
      obtain ⟨g', hrest, hheld', hframe'⟩ := ih g hg (hgfu.trans hfu)
      refine ⟨g', receive_cons hreceived hrest, ?_, ?_⟩
      · rw [hheld', hheld, hdrop, List.append_assoc]
      · rw [hframe', hframe, hdrop, List.append_assoc, List.flatMap_append]
  | @fragmented i nal fragments packets hnal hlong hfragments rest ih =>
      intro f hf hfu
      obtain ⟨hlt, hget⟩ := List.getElem?_eq_some_iff.1 hnal
      have hdrop : nals.drop i = nal :: nals.drop (i + 1) := by
        rw [List.drop_eq_getElem_cons hlt, hget]
      have hmem := List.mem_of_getElem? hnal
      obtain ⟨hne, hbit, -, -⟩ := hnals nal hmem
      obtain ⟨header, body, rfl⟩ := List.exists_cons_of_ne_nil hne
      obtain ⟨g, hreceived, hg, hheld, hframe, hgfu⟩ :=
        @receive_start f false hf hfu (header :: body) hbit
          (slice (header :: body) 1 (maxPayloadSize - 2))
      have htake : (header :: body).headD 0 :: slice (header :: body) 1 (maxPayloadSize - 2) =
          (header :: body).take (1 + (maxPayloadSize - 2)) := by
        rw [List.headD_cons, slice, List.drop_one, List.tail_cons, Nat.add_comm,
          List.take_succ_cons]
      rw [htake] at hheld hframe
      have hfew := fragments_few hfragments hmin hlong (hcount _ hmem)
      obtain ⟨g', hreceived', hg', hheld', hframe', hgfu'⟩ :=
        receive_fragments hfragments g hg hheld (by
          rw [hgfu]
          decide) (by
          have hone : g.currentFu.toNat = 1 := by
            rw [hgfu]
            rfl
          omega)
      obtain ⟨g'', hrest, hheld'', hframe''⟩ := ih g' hg' hgfu'
      refine ⟨g'', ?_, ?_, ?_⟩
      · rw [List.map_cons, List.map_append]
        apply receive_cons hreceived
        rw [receive_append, hreceived']
        exact hrest
      · rw [hheld'', hheld', hdrop, List.append_assoc, List.singleton_append]
      · rw [hframe'', hframe', hframe, hdrop, List.flatMap_cons]
        have hjoin := List.take_append_drop (1 + (maxPayloadSize - 2)) (header :: body)
        simp only [List.append_assoc]
        rw [← List.append_assoc (List.take _ _), hjoin]

/-- All packets fit. -/
theorem packets_fit (h : Packets nals maxPayloadSize i packets) (hmin : 3 ≤ maxPayloadSize) :
    ∀ p ∈ packets, p.frame.payload.length ≤ maxPayloadSize := by
  -- Two header octets, and at most what is left for them.
  have hslice : ∀ (nal : Octets) (off : Nat) (a b : UInt8),
      (a :: b :: slice nal off (maxPayloadSize - 2)).length ≤ maxPayloadSize := by
    intro nal off a b
    rw [List.length_cons, List.length_cons, Lib.length_slice]
    omega
  have hfragments : ∀ {nal : Octets} {i off : Nat} {final : Bool} {fragments : List Labelled},
      Fragments maxPayloadSize i nal final off fragments →
      ∀ p ∈ fragments, p.frame.payload.length ≤ maxPayloadSize := by
    intro nal i off final fragments hf
    induction hf with
    | last hoff hfit =>
        intro p hp
        rw [List.mem_singleton] at hp
        subst hp
        simp only [List.length_cons, List.length_drop]
        omega
    | more hoff hlong rest ih =>
        intro p hp
        rcases List.mem_cons.1 hp with rfl | hp
        · exact hslice _ _ _ _
        · exact ih p hp
  induction h with
  | done hdone => exact fun p hp => absurd hp List.not_mem_nil
  | single hnal hfit rest ih =>
      intro p hp
      rcases List.mem_cons.1 hp with rfl | hp
      · exact hfit
      · exact ih p hp
  | aggregate hgroup hne hfit hnri rest ih =>
      intro p hp
      rcases List.mem_cons.1 hp with rfl | hp
      · simp only [List.length_cons, List.length_flatMap, List.length_append,
          Lib.length_bigEndian]
        rw [Nat.add_comm]
        exact hfit
      · exact ih p hp
  | fragmented hnal hlong hfragmented rest ih =>
      intro p hp
      rcases List.mem_cons.1 hp with rfl | hp
      · exact hslice _ _ _ _
      · rcases List.mem_append.1 hp with hp | hp
        · exact hfragments hfragmented p hp
        · exact ih p hp

/-- The last packet carries the marker, and no other one. -/
def OnlyLastMarked : List RtpFrame → Prop
  | [] => True
  | frame :: frames => (frame.marker = true ↔ frames = []) ∧ OnlyLastMarked frames

/-- There are packets as long as there are units. -/
theorem packets_eq_nil (h : Packets nals maxPayloadSize i packets) :
    packets = [] ↔ nals.length ≤ i := by
  have hlt : ∀ {nal : Octets}, nals[i]? = some nal → ¬ nals.length ≤ i := fun hnal =>
    Nat.not_le_of_lt (List.getElem?_eq_some_iff.1 hnal).1
  cases h with
  | done hdone => exact ⟨fun _ => hdone, fun _ => rfl⟩
  | single hnal hfit rest => exact ⟨fun hno => absurd hno (List.cons_ne_nil _ _),
      fun hle => absurd hle (hlt hnal)⟩
  | aggregate hgroup hne hfit hnri rest =>
      refine ⟨fun hno => absurd hno (List.cons_ne_nil _ _), fun hle => ?_⟩
      rw [List.drop_eq_nil_of_le hle, List.take_nil] at hgroup
      exact absurd hgroup.symm hne
  | fragmented hnal hlong hfragments rest => exact ⟨fun hno => absurd hno (List.cons_ne_nil _ _),
      fun hle => absurd hle (hlt hnal)⟩

theorem fragments_ne_nil (h : Fragments maxPayloadSize i nal final off packets) :
    packets ≠ [] := by
  obtain ⟨full, hlength, -⟩ := fragments_length h
  intro hnil
  rw [hnil] at hlength
  exact absurd hlength (Nat.succ_ne_zero _).symm

/-- The fragments of a unit are marked as far as it is the last one. -/
theorem fragments_marker (h : Fragments maxPayloadSize i nal final off packets)
    {after : List RtpFrame} (hafter : OnlyLastMarked after) (hfinal : final = true ↔ after = []) :
    OnlyLastMarked (packets.map Labelled.frame ++ after) := by
  induction h with
  | last hoff hfit => exact ⟨hfinal, hafter⟩
  | more hoff hlong rest ih =>
      refine ⟨⟨fun hno => absurd hno Bool.false_ne_true, fun hno => ?_⟩, ih⟩
      have hnil := (List.append_eq_nil_iff.1 hno).1
      exact absurd (List.map_eq_nil_iff.1 hnil) (fragments_ne_nil rest)

theorem packets_marker (h : Packets nals maxPayloadSize i packets) :
    OnlyLastMarked (packets.map Labelled.frame) := by
  induction h with
  | done hdone => exact trivial
  | single hnal hfit rest ih =>
      refine ⟨?_, ih⟩
      rw [List.map_eq_nil_iff, packets_eq_nil rest, decide_eq_true_iff]
  | aggregate hgroup hne hfit hnri rest ih =>
      refine ⟨?_, ih⟩
      rw [List.map_eq_nil_iff, packets_eq_nil rest, decide_eq_true_iff]
  | fragmented hnal hlong hfragments rest ih =>
      rw [List.map_cons, List.map_append]
      refine ⟨⟨fun hno => absurd hno Bool.false_ne_true, fun hno => ?_⟩, ?_⟩
      · have hnil := (List.append_eq_nil_iff.1 hno).1
        exact absurd (List.map_eq_nil_iff.1 hnil) (fragments_ne_nil hfragments)
      · apply fragments_marker hfragments ih
        rw [List.map_eq_nil_iff, packets_eq_nil rest, decide_eq_true_iff]

end Sequences

/-- Enough calls of `GetRTPFrame` give packets that all fit, of which the last
one alone carries the marker, and from which a new frame gets the units back,
each after a start code. -/
theorem nal_round_trip (sendStapPackets : Bool) (maxPayloadSize : Nat)
    (hmin : 3 ≤ maxPayloadSize) (hmax : maxPayloadSize ≤ 65535) (nals : List Octets)
    (hnals : ∀ nal ∈ nals, WellFormed nal)
    (hcount : ∀ nal ∈ nals, fragmentCount maxPayloadSize nal < 65536) (receiverSize : Nat) :
    ∃ n, ∀ m, n ≤ m →
      let frames := ((H264Frame.load maxPayloadSize nals).calls sendStapPackets m).map Prod.snd
      (∀ frame ∈ frames, frame.payload.length ≤ maxPayloadSize) ∧ OnlyLastMarked frames ∧
        ∃ g, (H264Frame.create receiverSize).receive frames = some g ∧ g.heldNals = nals ∧
          g.encodedFrame = nals.flatMap ([0, 0, 0, 1] ++ ·) := by
  obtain ⟨packets, ⟨n, hcalls⟩, hpackets⟩ := yields_load sendStapPackets maxPayloadSize hmin nals
  refine ⟨n, ?_⟩
  intro m hm
  have hframes : ((H264Frame.load maxPayloadSize nals).calls sendStapPackets m).map Prod.snd =
      packets.map Labelled.frame := by
    rw [← hcalls m hm, List.map_map]
    rfl
  rw [hframes]
  refine ⟨?_, packets_marker hpackets, ?_⟩
  · intro frame hframe
    obtain ⟨p, hp, rfl⟩ := List.mem_map.1 hframe
    exact packets_fit hpackets hmin p hp
  · exact receive_packets hpackets hmin hmax hnals hcount (H264Frame.create receiverSize)
      (H264Frame.sound_create receiverSize) rfl

/-- A short unit, and a unit in three fragments. -/
theorem nal_round_trip_two :
    ∃ n, ∀ m, n ≤ m →
      let frames := ((H264Frame.load 5 [[0x67, 1], [0x65, 1, 2, 3, 4, 5, 6, 7]]).calls false m).map
        Prod.snd
      (∀ frame ∈ frames, frame.payload.length ≤ 5) ∧ OnlyLastMarked frames ∧
        ∃ g, (H264Frame.create 1400).receive frames = some g ∧
          g.heldNals = [[0x67, 1], [0x65, 1, 2, 3, 4, 5, 6, 7]] ∧
          g.encodedFrame = [[0x67, 1], [0x65, 1, 2, 3, 4, 5, 6, 7]].flatMap ([0, 0, 0, 1] ++ ·) :=
  nal_round_trip false 5 (by decide) (by decide) [[0x67, 1], [0x65, 1, 2, 3, 4, 5, 6, 7]]
    (by decide) (by decide) 1400

end H264

end Codec

end CryptoOpal

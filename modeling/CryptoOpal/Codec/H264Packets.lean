import CryptoOpal.Codec.H264Frame

/-!
# The Packets of a Frame

`Packets` says what a sequence of packets for some NAL units looks like, without
a word on how it is made: single units, aggregates, and the fragments of one
unit after another. Each packet carries the number of its first unit and the
place in it where its octets begin.

`yields_packets` says that repeated calls of `getRtpFrame` make such a sequence
and come to an end.

## Main definitions

* `Labelled`: A packet and where its octets come from.
* `Fragments`: The fragments of a unit from some place on.
* `Packets`: The packets from some unit on.
* `H264Frame.Yields`: The packets of repeated calls, until there is no more.

## Theorems

* `stapCount_fits`: An aggregate has units in it, and fits.
* `yields_fragments`: The calls for the rest of a unit.
* `yields_packets`: The calls for a frame.
-/

namespace CryptoOpal

namespace Codec

namespace H264

open Lib (Octets slice bigEndian forall_octet)

/-- A packet, the number of its first unit, and where in that unit it begins. -/
structure Labelled where
  nal : Nat
  offset : Nat
  frame : RtpFrame
  deriving DecidableEq

/-- The header octets of the fragments of a unit. -/
def indicatorOf (nal : Octets) : UInt8 := (nal.headD 0 &&& 0x60) ||| 28

def fuHeaderOf (nal : Octets) : UInt8 := nal.headD 0 &&& 0x1f

/-- The fragments of the unit `nal` with the number `i`, from some place on.
`final` is said of the last unit. -/
inductive Fragments (maxPayloadSize i : Nat) (nal : Octets) (final : Bool) :
    Nat → List Labelled → Prop
  | last {off : Nat} (hoff : off < nal.length) (hfit : nal.length - off + 2 ≤ maxPayloadSize) :
      Fragments maxPayloadSize i nal final off
        [⟨i, off, ⟨indicatorOf nal :: (fuHeaderOf nal ||| 0x40) :: nal.drop off, final⟩⟩]
  | more {off : Nat} {packets : List Labelled} (hoff : off < nal.length)
      (hlong : maxPayloadSize < nal.length - off + 2)
      (rest : Fragments maxPayloadSize i nal final (off + (maxPayloadSize - 2)) packets) :
      Fragments maxPayloadSize i nal final off
        (⟨i, off, ⟨indicatorOf nal :: fuHeaderOf nal :: slice nal off (maxPayloadSize - 2),
          false⟩⟩ :: packets)

/-- The packets of the units `nals`, from the number `i` on. -/
inductive Packets (nals : List Octets) (maxPayloadSize : Nat) : Nat → List Labelled → Prop
  | done {i : Nat} (h : nals.length ≤ i) : Packets nals maxPayloadSize i []
  | single {i : Nat} {nal : Octets} {packets : List Labelled} (hnal : nals[i]? = some nal)
      (hfit : nal.length ≤ maxPayloadSize) (rest : Packets nals maxPayloadSize (i + 1) packets) :
      Packets nals maxPayloadSize i (⟨i, 0, ⟨nal, decide (nals.length ≤ i + 1)⟩⟩ :: packets)
  | aggregate {i : Nat} {group : List Octets} {nri : UInt8} {packets : List Labelled}
      (hgroup : (nals.drop i).take group.length = group) (hne : group ≠ [])
      (hfit : 1 + (group.map fun nal => 2 + nal.length).sum ≤ maxPayloadSize)
      (hnri : nri &&& 0x1f = 0)
      (rest : Packets nals maxPayloadSize (i + group.length) packets) :
      Packets nals maxPayloadSize i
        (⟨i, 0, ⟨(24 ||| nri) :: group.flatMap fun nal => bigEndian 2 nal.length ++ nal,
          decide (nals.length ≤ i + group.length)⟩⟩ :: packets)
  | fragmented {i : Nat} {nal : Octets} {fragments packets : List Labelled}
      (hnal : nals[i]? = some nal) (hlong : maxPayloadSize < nal.length)
      (hfragments : Fragments maxPayloadSize i nal (decide (nals.length ≤ i + 1))
        (1 + (maxPayloadSize - 2)) fragments)
      (rest : Packets nals maxPayloadSize (i + 1) packets) :
      Packets nals maxPayloadSize i
        (⟨i, 0, ⟨indicatorOf nal :: (0x80 ||| fuHeaderOf nal) :: slice nal 1 (maxPayloadSize - 2),
          false⟩⟩ :: (fragments ++ packets))

section Scan

variable {maxPayloadSize : Nat} {nal : Nalu} {rest : List Nalu}

/-- What a unit takes up in an aggregate. -/
def cost (nal : Nalu) : Nat := 2 + nal.length

/-- The loop stops at the first unit with which the packet is full. -/
theorem stapScan_spec (nals : List Nalu) (hne : nals ≠ []) (stapLen count : Nat)
    (h : stapLen < maxPayloadSize) :
    ∃ c, 1 ≤ c ∧ c ≤ nals.length ∧
      H264Frame.stapScan maxPayloadSize nals stapLen count =
        (stapLen + ((nals.take c).map cost).sum, count + c) ∧
      stapLen + ((nals.take (c - 1)).map cost).sum < maxPayloadSize := by
  induction nals generalizing stapLen count with
  | nil => exact absurd rfl hne
  | cons nal rest ih =>
      rw [H264Frame.stapScan]
      by_cases hgo : rest ≠ [] ∧ stapLen + 2 + nal.length < maxPayloadSize
      · obtain ⟨c, hc, hlength, hscan, hless⟩ :=
          ih hgo.1 (stapLen + 2 + nal.length) (count + 1) hgo.2
        refine ⟨c + 1, by omega, ?_, ?_, ?_⟩
        · rw [List.length_cons]
          omega
        · rw [if_pos hgo, hscan, List.take_succ_cons, List.map_cons, List.sum_cons]
          have hcost : cost nal = 2 + nal.length := rfl
          rw [Prod.mk.injEq]
          omega
        · obtain ⟨k, rfl⟩ : ∃ k, c = k + 1 := ⟨c - 1, by omega⟩
          rw [Nat.add_sub_cancel, List.take_succ_cons, List.map_cons, List.sum_cons]
          rw [Nat.add_sub_cancel] at hless
          have hcost : cost nal = 2 + nal.length := rfl
          omega
      · refine ⟨1, Nat.le_refl 1, ?_, ?_, ?_⟩
        · rw [List.length_cons]
          omega
        · rw [if_neg hgo]
          simp only [cost, List.take_succ_cons, List.take_zero, List.map_cons, List.map_nil,
            List.sum_cons, List.sum_nil, Nat.add_zero, Nat.add_assoc]
        · simpa using h

/-- An aggregate has units in it, and fits. -/
theorem stapCount_fits (hfit : nal.length + 5 ≤ maxPayloadSize) :
    1 ≤ H264Frame.stapCount maxPayloadSize (nal :: rest) ∧
      H264Frame.stapCount maxPayloadSize (nal :: rest) ≤ (nal :: rest).length ∧
      1 + (((nal :: rest).take (H264Frame.stapCount maxPayloadSize (nal :: rest))).map
        cost).sum ≤ maxPayloadSize := by
  obtain ⟨c, hc, hlength, hscan, hless⟩ :=
    stapScan_spec (nal :: rest) (List.cons_ne_nil _ _) 1 0 (show 1 < maxPayloadSize by omega)
  rw [H264Frame.stapCount, hscan]
  dsimp only
  by_cases htoo : maxPayloadSize < 1 + (((nal :: rest).take c).map cost).sum
  · rw [if_pos htoo]
    -- The first unit alone is not too much, so it is not the one left out.
    have hsecond : c ≠ 1 := by
      intro hone
      subst hone
      simp only [List.take_succ_cons, List.take_zero, List.map_cons, List.map_nil, List.sum_cons,
        List.sum_nil, cost] at htoo
      omega
    rw [Nat.zero_add]
    exact ⟨by omega, by omega, Nat.le_of_lt hless⟩
  · rw [if_neg htoo, Nat.zero_add]
    exact ⟨hc, hlength, Nat.le_of_not_lt htoo⟩

theorem nri_and_type (x : UInt8) : (x &&& 0x60) &&& 0x1f = 0 := by
  rw [UInt8.and_assoc]
  exact UInt8.and_zero

theorem maxNri_and (headers : List UInt8) : H264Frame.maxNri headers &&& 0x1f = 0 := by
  have hloop : ∀ highest : UInt8, highest &&& 0x1f = 0 →
      (headers.foldl (fun highest header =>
        if highest < header &&& 0x60 then header &&& 0x60 else highest) highest) &&& 0x1f = 0 := by
    induction headers with
    | nil => exact fun _ h => h
    | cons header headers ih =>
        intro highest h
        rw [List.foldl_cons]
        apply ih
        split
        · exact nri_and_type header
        · exact h
  exact hloop 0 (by decide)

end Scan

/-- Where the octets of the next packet come from. -/
def H264Frame.place (f : H264Frame) : Nat :=
  match f.fuRemainingDataPtr with
  | none => 0
  | some ptr => ptr - ((f.nals[f.currentNal]?).map Nalu.offset).getD 0

/-- A call of `GetRTPFrame` with its packet. -/
def labelled (call : H264Frame × RtpFrame) : Labelled :=
  ⟨call.1.currentNal, call.1.place, call.2⟩

/-- The packets that calls of `GetRTPFrame` make until there is no more. -/
def H264Frame.Yields (sendStapPackets : Bool) (f : H264Frame) (packets : List Labelled) : Prop :=
  ∃ n, ∀ m, n ≤ m → (f.calls sendStapPackets m).map labelled = packets

section Encoder

variable {sendStapPackets : Bool} {f : H264Frame}

theorem yields_done (h : f.getRtpFrame sendStapPackets ⟨[], false⟩ = none) :
    f.Yields sendStapPackets [] := by
  refine ⟨0, ?_⟩
  intro m _
  cases m with
  | zero => rfl
  | succ m => rw [H264Frame.calls, h, List.map_nil]

theorem yields_step {frame : RtpFrame} {g : H264Frame} {packets : List Labelled}
    (h : f.getRtpFrame sendStapPackets ⟨[], false⟩ = some (frame, g))
    (hrest : g.Yields sendStapPackets packets) :
    f.Yields sendStapPackets (labelled (f, frame) :: packets) := by
  obtain ⟨n, hn⟩ := hrest
  refine ⟨n + 1, ?_⟩
  intro m hm
  obtain ⟨k, rfl⟩ : ∃ k, m = k + 1 := ⟨m - 1, by omega⟩
  rw [H264Frame.calls, h]
  dsimp only
  rw [List.map_cons, hn k (by omega)]

/-- The same units, however far they are sent. -/
structure SameUnits (f g : H264Frame) : Prop where
  encodedFrame : g.encodedFrame = f.encodedFrame
  nals : g.nals = f.nals
  maxPayloadSize : g.maxPayloadSize = f.maxPayloadSize

theorem SameUnits.heldNals {g : H264Frame} (h : SameUnits f g) : g.heldNals = f.heldNals := by
  rw [H264Frame.heldNals, H264Frame.heldNals, h.nals]
  apply List.map_congr_left
  intro nal _
  rw [H264Frame.octetsOf, H264Frame.octetsOf, h.encodedFrame]

theorem SameUnits.sound {g : H264Frame} (h : SameUnits f g) (hf : f.Sound) : g.Sound where
  inside := by
    rw [h.nals, h.encodedFrame]
    exact hf.inside
  atEnd := by
    rw [h.nals, h.encodedFrame]
    exact hf.atEnd

/-- In the middle of a unit: what remains of it, and its headers. -/
structure Midway (f : H264Frame) (entry : Nalu) (off : Nat) : Prop where
  current : f.nals[f.currentNal]? = some entry
  inside : off < entry.length
  ptr : f.fuRemainingDataPtr = some (entry.offset + off)
  remaining : f.fuRemainingLen = entry.length - off
  header0 : f.fuHeader0 = indicatorOf (f.octetsOf entry)
  header1 : f.fuHeader1 = fuHeaderOf (f.octetsOf entry)

/-- A part of a unit. -/
theorem slice_octetsOf {entry : Nalu} {off len : Nat} (h : off + len ≤ entry.length) :
    slice f.encodedFrame (entry.offset + off) len = slice (f.octetsOf entry) off len := by
  rw [H264Frame.octetsOf, slice, slice, slice, List.drop_take, List.take_take, List.drop_drop]
  congr 1
  omega

/-- The header octet of a unit, where it lies in the buffer. -/
theorem headD_octetsOf {entry : Nalu} (h : 0 < entry.length) :
    (f.octetsOf entry).headD 0 = f.encodedFrame.getD entry.offset 0 := by
  rw [H264Frame.octetsOf, slice, List.headD_eq_head?_getD, List.head?_take,
    if_neg (by omega), List.head?_drop, List.getD_eq_getElem?_getD]

/-- The last fragment of a unit. -/
theorem nextFu_last {ptr : Nat} (hptr : f.fuRemainingDataPtr = some ptr)
    (hpos : 0 < f.fuRemainingLen) (hfit : f.fuRemainingLen + 2 ≤ f.maxPayloadSize)
    (header1 : UInt8) (frame : RtpFrame) :
    f.nextFu header1 frame =
      (⟨f.fuHeader0 :: (header1 ||| 0x40) :: slice f.encodedFrame ptr f.fuRemainingLen,
          decide (f.nals.length ≤ f.currentNal + 1)⟩,
        { f with
          fuRemainingLen := 0
          fuRemainingDataPtr := none
          currentNal := f.currentNal + 1 }) := by
  rw [H264Frame.nextFu]
  simp only [hfit, decide_true, if_true, hpos, Nat.sub_self, Bool.true_and, hptr,
    Option.getD_some]

/-- A fragment that something follows. -/
theorem nextFu_more {ptr : Nat} (hptr : f.fuRemainingDataPtr = some ptr)
    (hmax : 2 ≤ f.maxPayloadSize) (hfit : f.maxPayloadSize < f.fuRemainingLen + 2)
    (header1 : UInt8) (frame : RtpFrame) :
    f.nextFu header1 frame =
      (⟨f.fuHeader0 :: header1 :: slice f.encodedFrame ptr (f.maxPayloadSize - 2), false⟩,
        { f with
          fuRemainingLen := f.fuRemainingLen - (f.maxPayloadSize - 2)
          fuRemainingDataPtr := some (ptr + (f.maxPayloadSize - 2)) }) := by
  have hpos : 0 < f.fuRemainingLen := by omega
  have hrest : f.fuRemainingLen - (f.maxPayloadSize - 2) ≠ 0 := by omega
  rw [H264Frame.nextFu]
  simp only [Nat.not_le_of_lt hfit, decide_false, Bool.false_eq_true, if_false, hpos, if_true,
    Bool.false_and, hptr, Option.getD_some, hrest]

/-- The call for one more fragment. -/
theorem getRtpFrame_midway (sendStapPackets : Bool) {entry : Nalu} {off : Nat} (h : Midway f entry off)
    (hlong : f.maxPayloadSize < entry.length) :
    f.getRtpFrame sendStapPackets ⟨[], false⟩ = some (f.nextFu f.fuHeader1 ⟨[], false⟩) := by
  have hremaining : f.fuRemainingLen ≠ 0 := by
    have hinside := h.inside
    rw [h.remaining]
    omega
  have hptr : f.fuRemainingDataPtr ≠ none := by
    rw [h.ptr]
    exact Option.some_ne_none _
  rw [H264Frame.getRtpFrame, h.current]
  dsimp only
  rw [if_pos hlong, H264Frame.encapsulateFu, if_neg (not_or.2 ⟨hremaining, hptr⟩)]

/-- The calls for the rest of a unit, and the state after them. -/
theorem yields_fragments (sendStapPackets : Bool) {entry : Nalu} (hsound : f.Sound) (hmax : 3 ≤ f.maxPayloadSize)
    (hlong : f.maxPayloadSize < entry.length) (remaining : Nat) :
    ∀ (g : H264Frame) (off : Nat), SameUnits f g → entry.length - off = remaining →
      Midway g entry off →
      ∃ fragments g', Fragments f.maxPayloadSize g.currentNal (f.octetsOf entry)
          (decide (f.nals.length ≤ g.currentNal + 1)) off fragments ∧
        SameUnits f g' ∧ g'.currentNal = g.currentNal + 1 ∧ g'.fuRemainingDataPtr = none ∧
        ∀ packets, g'.Yields sendStapPackets packets →
          g.Yields sendStapPackets (fragments ++ packets) := by
  induction remaining using Nat.strong_induction_on with
  | _ remaining ih =>
    intro g off hsame hleft hmid
    have hinside := hmid.inside
    have hgmax := hsame.maxPayloadSize
    have hmem : entry ∈ f.nals := by
      rw [← hsame.nals]
      exact List.mem_of_getElem? hmid.current
    have hlength : (f.octetsOf entry).length = entry.length :=
      H264Frame.length_octetsOf hsound hmem
    have hoctets : g.octetsOf entry = f.octetsOf entry := by
      rw [H264Frame.octetsOf, H264Frame.octetsOf, hsame.encodedFrame]
    have hcall := getRtpFrame_midway sendStapPackets hmid (by
      rw [hgmax]
      exact hlong)
    have hplace : g.place = off := by
      rw [H264Frame.place, hmid.ptr, hmid.current]
      exact Nat.add_sub_cancel_left _ _
    have hremaining : 0 < g.fuRemainingLen := by
      rw [hmid.remaining]
      omega
    by_cases hlast : entry.length - off + 2 ≤ f.maxPayloadSize
    · -- What remains fits into one packet, and the unit is done.
      have hdata : slice g.encodedFrame (entry.offset + off) (entry.length - off) =
          (f.octetsOf entry).drop off := by
        rw [slice_octetsOf (by omega), hoctets]
        apply List.take_of_length_le
        rw [List.length_drop, hlength]
      rw [nextFu_last hmid.ptr hremaining (by
        rw [hmid.remaining, hgmax]
        exact hlast), hmid.remaining, hdata, hmid.header0, hmid.header1, hoctets,
        hsame.nals] at hcall
      refine ⟨_, { g with
          nals := f.nals
          fuHeader0 := indicatorOf (f.octetsOf entry)
          fuHeader1 := fuHeaderOf (f.octetsOf entry)
          fuRemainingLen := 0
          fuRemainingDataPtr := none
          currentNal := g.currentNal + 1 },
        .last (by rw [hlength]; exact hinside) (by rw [hlength]; exact hlast),
        ⟨hsame.encodedFrame, rfl, hsame.maxPayloadSize⟩, rfl, rfl, ?_⟩
      intro packets hpackets
      have hstep := yields_step hcall hpackets
      rwa [labelled, hplace] at hstep
    · -- A full packet, and something remains.
      have hdata : slice g.encodedFrame (entry.offset + off) (f.maxPayloadSize - 2) =
          slice (f.octetsOf entry) off (f.maxPayloadSize - 2) := by
        rw [slice_octetsOf (by omega), hoctets]
      rw [nextFu_more hmid.ptr (by omega) (by
        rw [hmid.remaining, hgmax]
        omega), hgmax, hmid.remaining, hdata, hmid.header0, hmid.header1, hoctets] at hcall
      obtain ⟨fragments, g', hfragments, hsame', hcurrent, hptr, hyields⟩ :=
        ih (entry.length - (off + (f.maxPayloadSize - 2))) (by omega)
          { g with
            maxPayloadSize := f.maxPayloadSize
            fuHeader0 := indicatorOf (f.octetsOf entry)
            fuHeader1 := fuHeaderOf (f.octetsOf entry)
            fuRemainingLen := entry.length - off - (f.maxPayloadSize - 2)
            fuRemainingDataPtr := some (entry.offset + off + (f.maxPayloadSize - 2)) }
          (off + (f.maxPayloadSize - 2)) ⟨hsame.encodedFrame, hsame.nals, rfl⟩ rfl
          ⟨hmid.current, by omega, congrArg some (Nat.add_assoc _ _ _),
            Nat.sub_sub _ _ _, congrArg indicatorOf hoctets.symm,
            congrArg fuHeaderOf hoctets.symm⟩
      refine ⟨_, g', .more (by rw [hlength]; exact hinside)
        (by rw [hlength]; exact Nat.lt_of_not_le hlast) hfragments, hsame', hcurrent, hptr, ?_⟩
      intro packets hpackets
      have hstep := yields_step hcall (hyields packets hpackets)
      rwa [labelled, hplace] at hstep

/-- The calls for a unit that is too long for one packet. -/
theorem yields_fragmented (sendStapPackets : Bool) {entry : Nalu} (hsound : f.Sound) (hmax : 3 ≤ f.maxPayloadSize)
    (hptr : f.fuRemainingDataPtr = none) (hcurrent : f.nals[f.currentNal]? = some entry)
    (hlong : f.maxPayloadSize < entry.length) :
    ∃ fragments g, Fragments f.maxPayloadSize f.currentNal (f.octetsOf entry)
        (decide (f.nals.length ≤ f.currentNal + 1)) (1 + (f.maxPayloadSize - 2)) fragments ∧
      SameUnits f g ∧ g.currentNal = f.currentNal + 1 ∧ g.fuRemainingDataPtr = none ∧
      ∀ packets, g.Yields sendStapPackets packets →
        f.Yields sendStapPackets
          (⟨f.currentNal, 0, ⟨indicatorOf (f.octetsOf entry) ::
            (0x80 ||| fuHeaderOf (f.octetsOf entry)) ::
              slice (f.octetsOf entry) 1 (f.maxPayloadSize - 2), false⟩⟩ ::
            (fragments ++ packets)) := by
  have hfirst : f.encodedFrame.getD entry.offset 0 = (f.octetsOf entry).headD 0 :=
    (headD_octetsOf (by omega)).symm
  -- The first call sets out from the unit behind its header.
  have hcall : f.getRtpFrame sendStapPackets ⟨[], false⟩ =
      some ((f.startFu entry).nextFu (0x80 ||| (f.startFu entry).fuHeader1) ⟨[], false⟩) := by
    rw [H264Frame.getRtpFrame, hcurrent]
    dsimp only
    rw [if_pos hlong, H264Frame.encapsulateFu, if_pos (.inr hptr)]
  have hremaining : (f.startFu entry).fuRemainingLen = entry.length - 1 := rfl
  have hmaxStart : (f.startFu entry).maxPayloadSize = f.maxPayloadSize := rfl
  have hheader0 : (f.startFu entry).fuHeader0 = indicatorOf (f.octetsOf entry) := by
    rw [indicatorOf, ← hfirst]
    rfl
  have hheader1 : (f.startFu entry).fuHeader1 = fuHeaderOf (f.octetsOf entry) := by
    rw [fuHeaderOf, ← hfirst]
    rfl
  have hdata : slice (f.startFu entry).encodedFrame (entry.offset + 1) (f.maxPayloadSize - 2) =
      slice (f.octetsOf entry) 1 (f.maxPayloadSize - 2) := slice_octetsOf (by omega)
  rw [nextFu_more rfl (by omega) (by omega), hremaining, hmaxStart, hdata, hheader0,
    hheader1] at hcall
  obtain ⟨fragments, g, hfragments, hsame, hnext, hptr', hyields⟩ :=
    yields_fragments sendStapPackets hsound hmax hlong
      (entry.length - (1 + (f.maxPayloadSize - 2)))
      { f.startFu entry with
        fuHeader0 := indicatorOf (f.octetsOf entry)
        fuHeader1 := fuHeaderOf (f.octetsOf entry)
        fuRemainingLen := entry.length - 1 - (f.maxPayloadSize - 2)
        fuRemainingDataPtr := some (entry.offset + 1 + (f.maxPayloadSize - 2)) }
      (1 + (f.maxPayloadSize - 2)) ⟨rfl, rfl, rfl⟩ rfl
      ⟨hcurrent, by omega, congrArg some (Nat.add_assoc _ _ _), Nat.sub_sub _ _ _, rfl, rfl⟩
  refine ⟨fragments, g, hfragments, hsame, hnext, hptr', ?_⟩
  intro packets hpackets
  have hplace : f.place = 0 := by
    rw [H264Frame.place, hptr]
  have hstep := yields_step hcall (hyields packets hpackets)
  rwa [labelled, hplace] at hstep

/-- The call for an aggregate. -/
theorem encapsulateStap_spec {entry : Nalu} (hsound : f.Sound)
    (hcurrent : f.nals[f.currentNal]? = some entry)
    (hfit : entry.length + 5 ≤ f.maxPayloadSize) :
    ∃ group nri, (f.heldNals.drop f.currentNal).take group.length = group ∧ group ≠ [] ∧
      1 + (group.map fun nal => 2 + nal.length).sum ≤ f.maxPayloadSize ∧ nri &&& 0x1f = 0 ∧
      f.encapsulateStap =
        (⟨(24 ||| nri) :: group.flatMap fun nal => bigEndian 2 nal.length ++ nal,
            decide (f.nals.length ≤ f.currentNal + group.length)⟩,
          { f with currentNal := f.currentNal + group.length }) := by
  obtain ⟨rest, hdrop⟩ : ∃ rest, f.nals.drop f.currentNal = entry :: rest := by
    obtain ⟨hlt, hentry⟩ := List.getElem?_eq_some_iff.1 hcurrent
    exact ⟨f.nals.drop (f.currentNal + 1), by rw [List.drop_eq_getElem_cons hlt, hentry]⟩
  obtain ⟨hone, hcount, hsum⟩ := @stapCount_fits f.maxPayloadSize entry rest hfit
  rw [← hdrop] at hone hcount hsum
  obtain ⟨count, hcounted⟩ : ∃ count,
      count = H264Frame.stapCount f.maxPayloadSize (f.nals.drop f.currentNal) := ⟨_, rfl⟩
  rw [← hcounted] at hone hcount hsum
  have hlength : (((f.nals.drop f.currentNal).take count).map f.octetsOf).length = count := by
    rw [List.length_map, List.length_take]
    omega
  refine ⟨((f.nals.drop f.currentNal).take count).map f.octetsOf, _, ?_, ?_, ?_,
    maxNri_and ((((f.nals.drop f.currentNal).take count).map f.octetsOf).map fun nal =>
      nal.headD 0), ?_⟩
  · rw [hlength, H264Frame.heldNals, List.map_take, List.map_drop]
  · intro hnil
    rw [hnil] at hlength
    exact absurd hlength.symm (by
      rw [List.length_nil]
      omega)
  · have hcost : ((((f.nals.drop f.currentNal).take count).map f.octetsOf).map
        fun nal => 2 + nal.length) = ((f.nals.drop f.currentNal).take count).map cost := by
      rw [List.map_map]
      apply List.map_congr_left
      intro nal hnal
      have hmem : nal ∈ f.nals := List.mem_of_mem_drop (List.mem_of_mem_take hnal)
      rw [Function.comp_apply, H264Frame.length_octetsOf hsound hmem, cost]
    rw [hcost]
    exact hsum
  · rw [H264Frame.encapsulateStap, ← hcounted, hlength]

/-- The calls for a frame. -/
theorem yields_packets (sendStapPackets : Bool) (hmax : 3 ≤ f.maxPayloadSize) (left : Nat) :
    ∀ g : H264Frame, f.Sound → SameUnits f g → g.fuRemainingDataPtr = none →
      f.nals.length - g.currentNal = left →
      ∃ packets, g.Yields sendStapPackets packets ∧
        Packets f.heldNals f.maxPayloadSize g.currentNal packets := by
  induction left using Nat.strong_induction_on with
  | _ left ih =>
    intro g hf hsame hptr hleft
    have hg : g.Sound := hsame.sound hf
    have hplace : g.place = 0 := by
      rw [H264Frame.place, hptr]
    have hunits : f.heldNals.length = f.nals.length := List.length_map _
    cases hcurrent : g.nals[g.currentNal]? with
    | none =>
        -- All the units are sent.
        refine ⟨[], yields_done ?_, .done ?_⟩
        · rw [H264Frame.getRtpFrame, hcurrent]
        · rw [hunits, ← hsame.nals]
          exact List.getElem?_eq_none_iff.1 hcurrent
    | some entry =>
        have hlt : g.currentNal < f.nals.length := by
          rw [← hsame.nals]
          exact (List.getElem?_eq_some_iff.1 hcurrent).1
        have hnal : f.heldNals[g.currentNal]? = some (g.octetsOf entry) := by
          rw [← hsame.heldNals, H264Frame.heldNals, List.getElem?_map, hcurrent, Option.map_some]
        have hlength : (g.octetsOf entry).length = entry.length :=
          H264Frame.length_octetsOf hg (List.mem_of_getElem? hcurrent)
        by_cases hlong : g.maxPayloadSize < entry.length
        · obtain ⟨fragments, g', hfragments, hsame', hnext, hptr', hyields⟩ :=
            yields_fragmented sendStapPackets hg (by
              rw [hsame.maxPayloadSize]
              exact hmax) hptr hcurrent hlong
          obtain ⟨packets, hpackets, hrest⟩ := ih (f.nals.length - g'.currentNal) (by omega) g' hf
            ⟨hsame'.encodedFrame.trans hsame.encodedFrame, hsame'.nals.trans hsame.nals,
              hsame'.maxPayloadSize.trans hsame.maxPayloadSize⟩ hptr' rfl
          rw [hnext] at hrest
          rw [hsame.maxPayloadSize, hsame.nals] at hfragments
          refine ⟨_, hyields packets hpackets, ?_⟩
          rw [hsame.maxPayloadSize]
          exact .fragmented hnal (by rw [hlength, ← hsame.maxPayloadSize]; exact hlong)
            (by rw [hunits]; exact hfragments) hrest
        · by_cases hstap : sendStapPackets && (g.nals[g.currentNal + 1]?).any fun next =>
              decide (entry.length + next.length + 5 ≤ g.maxPayloadSize)
          · have hfit : entry.length + 5 ≤ g.maxPayloadSize := by
              rw [Bool.and_eq_true, Option.any_eq_true] at hstap
              obtain ⟨-, next, -, hnext⟩ := hstap
              have hboth := of_decide_eq_true hnext
              omega
            obtain ⟨group, nri, hgroup, hne, hsum, hnri, hsent⟩ :=
              encapsulateStap_spec hg hcurrent hfit
            have hcall : g.getRtpFrame sendStapPackets ⟨[], false⟩ = some g.encapsulateStap := by
              rw [H264Frame.getRtpFrame, hcurrent]
              dsimp only
              rw [if_neg hlong, if_pos hstap]
            rw [hsent] at hcall
            have hpos := List.length_pos_iff.2 hne
            obtain ⟨packets, hpackets, hrest⟩ :=
              ih (f.nals.length - (g.currentNal + group.length)) (by omega)
                { g with currentNal := g.currentNal + group.length } hf
                ⟨hsame.encodedFrame, hsame.nals, hsame.maxPayloadSize⟩ hptr rfl
            rw [hsame.heldNals] at hgroup
            rw [hsame.maxPayloadSize] at hsum
            refine ⟨_, yields_step hcall hpackets, ?_⟩
            rw [labelled, hplace, hsame.nals, ← hunits]
            exact .aggregate hgroup hne hsum hnri hrest
          · have hcall : g.getRtpFrame sendStapPackets ⟨[], false⟩ =
                some (⟨g.octetsOf entry, decide (g.nals.length ≤ g.currentNal + 1)⟩,
                  { g with currentNal := g.currentNal + 1 }) := by
              rw [H264Frame.getRtpFrame, hcurrent]
              dsimp only
              rw [if_neg hlong, if_neg hstap]
            obtain ⟨packets, hpackets, hrest⟩ :=
              ih (f.nals.length - (g.currentNal + 1)) (by omega)
                { g with currentNal := g.currentNal + 1 } hf
                ⟨hsame.encodedFrame, hsame.nals, hsame.maxPayloadSize⟩ hptr rfl
            refine ⟨_, yields_step hcall hpackets, ?_⟩
            rw [labelled, hplace, hsame.nals, ← hunits]
            exact .single hnal (by
              rw [hlength, ← hsame.maxPayloadSize]
              exact Nat.le_of_not_lt hlong) hrest

/-- What is sent of some units, from the first call to the last. -/
theorem yields_load (sendStapPackets : Bool) (maxPayloadSize : Nat) (hmax : 3 ≤ maxPayloadSize) (nals : List Octets) :
    ∃ packets, (H264Frame.load maxPayloadSize nals).Yields sendStapPackets packets ∧
      Packets nals maxPayloadSize 0 packets := by
  obtain ⟨hsound, hheld, hmaxLoad, hcurrent, hptr⟩ := H264Frame.sound_load maxPayloadSize nals
  obtain ⟨packets, hyields, hpackets⟩ := yields_packets sendStapPackets
    (by rw [hmaxLoad]; exact hmax) _ (H264Frame.load maxPayloadSize nals) hsound ⟨rfl, rfl, rfl⟩
    hptr rfl
  rw [hheld, hmaxLoad, hcurrent] at hpackets
  exact ⟨packets, hyields, hpackets⟩

end Encoder

end H264

end Codec

end CryptoOpal

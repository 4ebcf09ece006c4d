import CryptoOpal.Codec.H264Frame

/-!
# Received H.264 Packets, in Bounds

The depacketiser is given a buffer with an RTP packet. The size of its header is
worked out anew for each access: a header extension is as long as it says, in
octets, and one that has no room at all makes the header empty. The header is not
compared with the length of the buffer.

An aggregate says how long each of its units is, and a unit is copied before its
length is looked at. A fragment has two octets before its body, and they are read
when there is one.

What was received before does not matter. A fragment that goes on with a unit is
taken only when there is one (`Begun`).

## Main definitions

* `getHeaderSize`: The size of an RTP header.
* `H264Frame.setFromBuffer`: A packet received.
* `DepacketiserCall`, `H264Frame.receiveCalls`: Calls in any order.
* `Units`: Whole units, one behind the other.
* `BufferFits`: The condition on a buffer.

## Theorems

* `deencapsulateStap_iff`: An aggregate.
* `setFromRtpFrame_iff`: A payload.
* `depacketiser_iff`: All calls.
-/

namespace CryptoOpal

namespace Codec

namespace H264

open Lib (Octets slice bigEndian ofBigEndian)

/-- `RTPFrame::GetHeaderSize`. -/
def getHeaderSize (buffer : Octets) : Nat :=
  if buffer.length < 12 then 0
  else
    let first := (buffer.getD 0 0).toNat
    let size := 12 + (first &&& 0x0f) * 4
    if first &&& 0x10 = 0 then size
    else if size + 4 < buffer.length then
      size + 4 + ((buffer.getD (size + 2) 0).toNat <<< 8) + (buffer.getD (size + 3) 0).toNat
    else 0

/-- `SetFromRTPFrame`, on a buffer. A header that is longer than the buffer makes the size of the
payload negative, and then it is taken for a very large one. -/
def H264Frame.setFromBuffer (f : H264Frame) (buffer : Octets) : Option (H264Frame × Bool) :=
  if getHeaderSize buffer ≤ buffer.length then
    f.setFromRtpFrame ⟨buffer.drop (getHeaderSize buffer), false⟩
  else none

/-- A call of the decoder. -/
inductive DepacketiserCall where
  | packet (buffer : Octets)
  | beginNewFrame
  deriving DecidableEq

/-- A call, `none` when a packet is read outside of its buffer. -/
def H264Frame.receiveCall (f : H264Frame) : DepacketiserCall → Option H264Frame
  | .packet buffer => (f.setFromBuffer buffer).map (·.1)
  | .beginNewFrame => some f.beginNewFrame

/-- Calls in a row. -/
def H264Frame.receiveCalls : H264Frame → List DepacketiserCall → Option H264Frame
  | f, [] => some f
  | f, call :: calls => (f.receiveCall call).bind fun f => f.receiveCalls calls

/-- Whole units with their lengths, none of which is empty. -/
inductive Units : Octets → Prop where
  | none : Units []
  | unit (header : UInt8) (body rest : Octets) (hlength : body.length + 1 < 65536)
      (hrest : Units rest) :
      Units (bigEndian 2 (body.length + 1) ++ (header :: body) ++ rest)

/-- An aggregate is made of whole units, and a fragment has both octets of its header. -/
def PayloadFits (payload : Octets) : Prop :=
  match payload with
  | [] => True
  | header :: body =>
    (header &&& 0x1f = 24 → Units body) ∧ (header &&& 0x1f = 28 → body ≠ [])

/-- The header ends in the buffer, and what is behind it fits. -/
def BufferFits (buffer : Octets) : Prop :=
  getHeaderSize buffer ≤ buffer.length ∧ PayloadFits (buffer.drop (getHeaderSize buffer))

/-- The condition on a call. -/
def DepacketiserCall.Fits : DepacketiserCall → Prop
  | packet buffer => BufferFits buffer
  | beginNewFrame => True

/-- A unit that is fragmented has been begun. -/
def H264Frame.Begun (f : H264Frame) : Prop := f.currentFu ≠ 0 → f.nals ≠ []

section UnitLaws

theorem two_bigEndian (n : Nat) : bigEndian 2 n = [UInt8.ofNat (n / 256), UInt8.ofNat n] := by
  simp only [bigEndian, Nat.pow_one, Nat.pow_zero, Nat.div_one]

theorem ofBigEndian_two (high low : UInt8) :
    ofBigEndian [high, low] = high.toNat * 256 + low.toNat := by
  simp [ofBigEndian]

theorem bigEndian_two (high low : UInt8) : bigEndian 2 (ofBigEndian [high, low]) = [high, low] := by
  have hlow := low.toNat_lt
  have hdiv : (high.toNat * 256 + low.toNat) / 256 = high.toNat := by omega
  rw [two_bigEndian, ofBigEndian_two, hdiv, UInt8.ofNat_toNat]
  congr 2
  apply UInt8.toNat_inj.1
  rw [UInt8.toNat_ofNat']
  omega

theorem not_units_single (x : UInt8) : ¬Units [x] := by
  intro h
  generalize hl : [x] = l at h
  cases h with
  | none => exact absurd hl (List.cons_ne_nil _ _)
  | unit header body rest hlength hrest =>
      have hlen := congrArg List.length hl
      simp [two_bigEndian] at hlen

/-- The first unit, and the others. -/
theorem units_cons (high low : UInt8) (rest : Octets) :
    Units (high :: low :: rest) ↔ 1 ≤ ofBigEndian [high, low] ∧
      ofBigEndian [high, low] ≤ rest.length ∧ Units (rest.drop (ofBigEndian [high, low])) := by
  constructor
  · intro h
    generalize hl : high :: low :: rest = l at h
    cases h with
    | none => exact absurd hl (List.cons_ne_nil _ _)
    | unit header body behind hlength hrest =>
        rw [two_bigEndian] at hl
        simp only [List.cons_append, List.nil_append, List.cons.injEq] at hl
        rcases hl with ⟨hhigh, hlow, hl⟩
        have hlen : ofBigEndian [high, low] = body.length + 1 := by
          have hall := Lib.ofBigEndian_bigEndian 2 (body.length + 1)
          rw [two_bigEndian, ← hhigh, ← hlow, Nat.mod_eq_of_lt (by omega)] at hall
          exact hall
        rw [hlen, hl]
        refine ⟨Nat.le_add_left _ _, ?_, ?_⟩
        · simp
        · simpa using hrest
  · rintro ⟨hpos, hle, hrest⟩
    -- The unit is as long as the two octets say, so they are its length.
    have hlt : ofBigEndian [high, low] < 65536 := by
      have hhigh := high.toNat_lt
      have hlow := low.toNat_lt
      rw [ofBigEndian_two]
      omega
    have htaken : (rest.take (ofBigEndian [high, low])).length = ofBigEndian [high, low] := by
      rw [List.length_take, Nat.min_eq_left hle]
    cases htake : rest.take (ofBigEndian [high, low]) with
    | nil =>
        rw [htake, List.length_nil] at htaken
        omega
    | cons header body =>
        rw [htake, List.length_cons] at htaken
        have hwhole := Units.unit header body _ (by omega) hrest
        rw [htaken, bigEndian_two, ← htake, List.append_assoc, List.take_append_drop] at hwhole
        exact hwhole

end UnitLaws

namespace H264Frame

section Steps

variable {f : H264Frame}

theorem begun_create (maxPayloadSize : Nat) : (create maxPayloadSize).Begun :=
  fun hfu => absurd rfl hfu

/-- With a header, octets are always taken. -/
theorem addData_begins (f : H264Frame) (data : Octets) (header : UInt8) :
    ∃ g, f.addDataToEncodedFrame data (some header) = some g ∧ g.nals ≠ [] ∧
      g.currentFu = f.currentFu :=
  ⟨_, rfl, List.append_ne_nil_of_right_ne_nil _ (List.cons_ne_nil _ _), rfl⟩

/-- Without one, when there is a unit. -/
theorem addData_goesOn (hnals : f.nals ≠ []) (data : Octets) :
    ∃ g, f.addDataToEncodedFrame data none = some g ∧ g.nals ≠ [] := by
  have hlast := List.getLast?_eq_getLast_of_ne_nil hnals
  rw [addDataToEncodedFrame, hlast]
  exact ⟨_, rfl, List.append_ne_nil_of_right_ne_nil _ (List.cons_ne_nil _ _)⟩

/-- An aggregate. There is a round for each unit, as each takes more than two octets. -/
theorem deencapsulateStap_iff (rounds : Nat) (f : H264Frame) (body : Octets)
    (hrounds : body.length ≤ rounds) (hbegun : f.Begun) :
    ((deencapsulateStap rounds f body).isSome ↔ Units body) ∧
      ∀ g, deencapsulateStap rounds f body = some g → g.Begun := by
  induction rounds generalizing f body with
  | zero =>
      rw [List.eq_nil_of_length_eq_zero (Nat.le_zero.1 hrounds), deencapsulateStap]
      refine ⟨⟨fun _ => Units.none, fun _ => rfl⟩, ?_⟩
      intro g hg
      rw [Option.some.injEq] at hg
      rwa [← hg]
  | succ rounds ih =>
      match body, hrounds with
      | [], _ =>
          refine ⟨⟨fun _ => Units.none, fun _ => rfl⟩, ?_⟩
          intro g hg
          rw [deencapsulateStap, Option.some.injEq] at hg
          rwa [← hg]
      | [x], _ =>
          refine ⟨⟨fun h => (nomatch h), fun h => absurd h (not_units_single x)⟩, ?_⟩
          intro g hg
          cases hg
      | high :: low :: rest, hrounds =>
          rw [units_cons]
          simp only [deencapsulateStap]
          by_cases hshort : rest.length < ofBigEndian [high, low]
          · rw [if_pos hshort]
            refine ⟨⟨fun h => (nomatch h), ?_⟩, fun g hg => (nomatch hg)⟩
            rintro ⟨_, hle, _⟩
            omega
          rw [if_neg hshort]
          have htaken : (rest.take (ofBigEndian [high, low])).length = ofBigEndian [high, low] := by
            rw [List.length_take, Nat.min_eq_left (Nat.le_of_not_lt hshort)]
          cases htake : rest.take (ofBigEndian [high, low]) with
          | nil =>
              rw [htake, List.length_nil] at htaken
              refine ⟨⟨fun h => (nomatch h), ?_⟩, fun g hg => (nomatch hg)⟩
              rintro ⟨hpos, _, _⟩
              omega
          | cons header unit =>
              rw [htake, List.length_cons] at htaken
              obtain ⟨g, hadd, hnals, _⟩ := addData_begins f unit header
              simp only [hadd, Option.bind_some]
              have hrest := ih g (rest.drop (ofBigEndian [high, low])) (by
                rw [List.length_drop]
                simp only [List.length_cons] at hrounds
                omega) fun _ => hnals
              refine ⟨hrest.1.trans ⟨fun h => ⟨by omega, Nat.le_of_not_lt hshort, h⟩,
                fun h => h.2.2⟩, hrest.2⟩

/-- A fragment with both octets is taken in any state. -/
theorem deencapsulateFu_some (hbegun : f.Begun) (header0 header1 : UInt8) (data : Octets) :
    ∃ done, f.deencapsulateFu header0 header1 data = some done ∧ done.1.Begun := by
  rw [deencapsulateFu]
  cases decide (header1 &&& 0x80 ≠ 0) with
  | true =>
      cases decide (header1 &&& 0x40 ≠ 0) with
      | true => exact ⟨_, rfl, fun hfu => absurd rfl hfu⟩
      | false =>
          by_cases hfu : f.currentFu ≠ 0
          · exact ⟨_, if_pos hfu, fun _ => hbegun hfu⟩
          · obtain ⟨g, hadd, hnals, _⟩ := addData_begins { f with currentFu := f.currentFu + 1 }
              data ((header0 &&& 0xe0) ||| (header1 &&& 0x1f))
            refine ⟨(g, true), ?_, fun _ => hnals⟩
            change (if f.currentFu ≠ 0 then _ else _) = _
            rw [if_neg hfu, hadd, Option.map_some]
  | false =>
      -- The counter says that there is a unit to go on with.
      by_cases hfu : f.currentFu ≠ 0
      · cases decide (header1 &&& 0x40 ≠ 0) with
        | true =>
            obtain ⟨g, hadd, hnals⟩ :=
              @addData_goesOn { f with currentFu := 0 } (hbegun hfu) data
            refine ⟨(g, true), ?_, fun _ => hnals⟩
            change (if f.currentFu ≠ 0 then _ else _) = _
            rw [if_pos hfu, hadd, Option.map_some]
        | false =>
            obtain ⟨g, hadd, hnals⟩ :=
              @addData_goesOn { f with currentFu := f.currentFu + 1 } (hbegun hfu) data
            refine ⟨(g, true), ?_, fun _ => hnals⟩
            change (if f.currentFu ≠ 0 then _ else _) = _
            rw [if_pos hfu, hadd, Option.map_some]
      · cases decide (header1 &&& 0x40 ≠ 0) with
        | true => exact ⟨_, if_neg hfu, hbegun⟩
        | false => exact ⟨_, if_neg hfu, hbegun⟩

/-- A payload. -/
theorem setFromRtpFrame_iff (hbegun : f.Begun) (payload : Octets) (marker : Bool) :
    ((f.setFromRtpFrame ⟨payload, marker⟩).isSome ↔ PayloadFits payload) ∧
      ∀ done, f.setFromRtpFrame ⟨payload, marker⟩ = some done → done.1.Begun := by
  match payload with
  | [] =>
      refine ⟨⟨fun _ => trivial, fun _ => rfl⟩, ?_⟩
      intro done hdone
      rw [setFromRtpFrame, Option.some.injEq] at hdone
      rwa [← hdone]
  | header :: body =>
      simp only [setFromRtpFrame, PayloadFits]
      by_cases hregular : 1 ≤ header &&& 0x1f ∧ header &&& 0x1f ≤ 12
      · obtain ⟨g, hadd, hnals, _⟩ := addData_begins f body header
        rw [if_pos hregular, hadd, Option.map_some]
        refine ⟨⟨fun _ => ⟨?_, ?_⟩, fun _ => rfl⟩, ?_⟩
        · intro h
          rw [h] at hregular
          exact absurd hregular.2 (by decide)
        · intro h
          rw [h] at hregular
          exact absurd hregular.2 (by decide)
        · intro done hdone
          rw [Option.some.injEq] at hdone
          rw [← hdone]
          exact fun _ => hnals
      rw [if_neg hregular]
      by_cases hstap : header &&& 0x1f = 24
      · have hunits := deencapsulateStap_iff body.length f body (Nat.le_refl _) hbegun
        rw [if_pos hstap, Option.isSome_map, hunits.1]
        refine ⟨⟨fun h => ⟨fun _ => h, ?_⟩, fun h => h.1 hstap⟩, ?_⟩
        · intro h
          rw [hstap] at h
          exact absurd h (by decide)
        · intro done hdone
          rcases Option.map_eq_some_iff.1 hdone with ⟨g, hg, hdone⟩
          rw [← hdone]
          exact hunits.2 g hg
      rw [if_neg hstap]
      by_cases hfu : header &&& 0x1f = 28
      · rw [if_pos hfu]
        match body with
        | [] =>
            refine ⟨⟨fun h => (nomatch h), fun h => absurd rfl (h.2 hfu)⟩, fun g hg => (nomatch hg)⟩
        | header1 :: data =>
            obtain ⟨done, hdone, hdoneBegun⟩ := deencapsulateFu_some hbegun header header1 data
            simp only [hdone, Option.map_some]
            refine ⟨⟨fun _ => ⟨fun h => absurd h hstap, fun _ => List.cons_ne_nil _ _⟩,
              fun _ => rfl⟩, ?_⟩
            intro after hafter
            rw [Option.some.injEq] at hafter
            rw [← hafter]
            split
            · exact hdoneBegun
            · exact begun_create _
      · rw [if_neg hfu]
        refine ⟨⟨fun _ => ⟨fun h => absurd h hstap, fun h => absurd h hfu⟩, fun _ => rfl⟩, ?_⟩
        intro done hdone
        rw [Option.some.injEq] at hdone
        rw [← hdone]
        exact begun_create _

/-- A call. -/
theorem receiveCall_iff (hbegun : f.Begun) (call : DepacketiserCall) :
    ((f.receiveCall call).isSome ↔ call.Fits) ∧
      ∀ g, f.receiveCall call = some g → g.Begun := by
  cases call with
  | packet buffer =>
      simp only [receiveCall, setFromBuffer, DepacketiserCall.Fits, BufferFits, Option.isSome_map]
      by_cases hheader : getHeaderSize buffer ≤ buffer.length
      · have hpayload := setFromRtpFrame_iff hbegun (buffer.drop (getHeaderSize buffer)) false
        rw [if_pos hheader, hpayload.1]
        refine ⟨⟨fun h => ⟨hheader, h⟩, fun h => h.2⟩, ?_⟩
        intro g hg
        rcases Option.map_eq_some_iff.1 hg with ⟨done, hdone, hg⟩
        rw [← hg]
        exact hpayload.2 done hdone
      · rw [if_neg hheader]
        exact ⟨⟨fun h => (nomatch h), fun h => absurd h.1 hheader⟩, fun g hg => (nomatch hg)⟩
  | beginNewFrame =>
      refine ⟨⟨fun _ => trivial, fun _ => rfl⟩, ?_⟩
      intro g hg
      rw [receiveCall, Option.some.injEq] at hg
      rw [← hg]
      exact begun_create _

theorem receiveCalls_iff (hbegun : f.Begun) (calls : List DepacketiserCall) :
    (f.receiveCalls calls).isSome ↔ ∀ call ∈ calls, call.Fits := by
  induction calls generalizing f with
  | nil => exact ⟨fun _ call hcall => absurd hcall List.not_mem_nil, fun _ => rfl⟩
  | cons call calls ih =>
      have hcall := receiveCall_iff hbegun call
      rw [receiveCalls, List.forall_mem_cons, ← hcall.1]
      cases hreceive : f.receiveCall call with
      | none => exact ⟨fun h => (nomatch h), fun h => (nomatch h.1)⟩
      | some g =>
          rw [Option.bind_some, ih (hcall.2 g hreceive)]
          exact ⟨fun h => ⟨rfl, h⟩, fun h => h.2⟩

end Steps

/-- All calls, from the start, stay inside of their packets exactly when each packet fits. -/
theorem depacketiser_iff (maxPayloadSize : Nat) (calls : List DepacketiserCall) :
    ((create maxPayloadSize).receiveCalls calls).isSome ↔ ∀ call ∈ calls, call.Fits :=
  receiveCalls_iff (begun_create maxPayloadSize) calls

/-- A fragment with one octet. -/
theorem shortFragment_outside :
    (create 1400).receiveCalls [.packet ([0x80, 96, 0, 1, 0, 0, 0, 0, 0, 0, 0, 0] ++ [0x7c])] =
      none := by
  decide

end H264Frame

end H264

end Codec

end CryptoOpal

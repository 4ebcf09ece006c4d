import CryptoOpal.Lib.Octets
import Mathlib.Data.List.Basic
import Mathlib.Tactic.Common

/-!
# Replies of a STUN Server

The check of a reply, the search for an attribute in it, and the reading of an address, with each
octet of the datagram that is read. There is no result for a function that reads behind the
datagram or does not come to an end.

The check walks over the attributes as long as the message length of the header lasts. It looks
at the end of the datagram in front of each attribute only, never compares the length of the
datagram with the message length, and takes a message length below 20 for a message without
attributes.

## Main definitions

* `getFirstAttribute`, `validate`, `findAttribute`, `readAddress`: The functions.
* `visits`: The places of the walk, with the length that is left.
* `Exact`: What the check is meant to accept.
* `InBounds`, `Decides`: What is meant of a datagram.
* `Readable`, `Fitting`: When it is so.

## Theorems

* `walk_spec`, `skim_spec`, `findLoop_spec`: The loops.
* `validate_isSome`, `validate_true`: The check.
* `inBounds_iff`, `decides_iff`: When both are so.
-/

namespace CryptoOpal

namespace Stun

open Lib (Octets)

/-- A 16-bit number of the datagram. -/
def read16 (d : Octets) (i : Nat) : Option Nat :=
  (d[i]?).bind fun hi => (d[i + 1]?).map fun lo => hi.toNat * 256 + lo.toNat

/-- The loop of `GetFirstAttribute`, from an attribute on: the length that is left. -/
def walk (d : Octets) : Nat → Nat → Nat → Option Nat
  | 0, _, _ => none
  | fuel + 1, ptr, length =>
    if ptr < d.length then
      (read16 d (ptr + 2)).bind fun attr =>
        if attr + 4 ≤ length then walk d fuel (ptr + (attr + 4)) (length - (attr + 4))
        else some length
    else some length

/-- `GetFirstAttribute`, where `some none` is a null pointer. -/
def getFirstAttribute (d : Octets) : Option (Option Nat) :=
  (read16 d 2).bind fun length =>
    if length < 20 then some none
    else
      (read16 d 22).bind fun attr =>
        if d.length < attr then some none
        else
          (read16 d 20).bind fun type =>
            if 12 ≤ type then some none
            else (walk d (length + 1) 20 length).map fun left => if left ≠ 0 then none else some 20

/-- The loop of `Validate`, which takes the lengths off. -/
def skim (d : Octets) : Nat → Nat → Int → Option Int
  | 0, _, _ => none
  | fuel + 1, attrib, length =>
    if 0 < length then
      (read16 d (attrib + 2)).bind fun attr => skim d fuel (attrib + (attr + 4)) (length - (attr + 4))
    else some length

/-- `Validate`, with the transaction id of the request. -/
def validate (d id : Octets) : Option Bool :=
  (read16 d 2).bind fun length =>
    (getFirstAttribute d).bind fun attrib =>
      (match attrib with
        | none => some (length : Int)
        | some attrib => skim d (length + 1) attrib length).bind fun left =>
        if left ≠ 0 then some false
        else if 20 ≤ d.length then some (decide ((d.drop 4).take 16 = id)) -- `memcmp`
        else none

/-- The loop of `FindAttribute`. -/
def findLoop (d : Octets) (type : Nat) : Nat → Nat → Int → Option (Option Nat)
  | 0, _, _ => none
  | fuel + 1, attrib, length =>
    if 0 < length then
      (read16 d attrib).bind fun t =>
        if t = type then some (some attrib)
        else
          (read16 d (attrib + 2)).bind fun attr =>
            findLoop d type fuel (attrib + (attr + 4)) (length - (attr + 4))
    else some none

/-- `FindAttribute`. A null pointer is read from when there is no first attribute. -/
def findAttribute (d : Octets) (type : Nat) : Option (Option Nat) :=
  (read16 d 2).bind fun length =>
    (getFirstAttribute d).bind fun attrib =>
      match attrib with
      | some attrib => findLoop d type (length + 1) attrib length
      | none => if length = 0 then some none else none

/-- The port and the address of an attribute. -/
def readAddress (d : Octets) (attrib : Nat) : Option (Nat × Octets) :=
  (read16 d (attrib + 6)).bind fun port =>
    if attrib + 12 ≤ d.length then some (port, (d.drop (attrib + 8)).take 4) else none

/-- A 16-bit number, with zeros behind the datagram. -/
def at16 (d : Octets) (i : Nat) : Nat := (d.getD i 0).toNat * 256 + (d.getD (i + 1) 0).toNat

/-- The places that the message length leads to, with the length that is left there. -/
def visits (d : Octets) (ptr length : Nat) : List (Nat × Nat) :=
  (ptr, length) ::
    if _h : ptr < d.length ∧ at16 d (ptr + 2) + 4 ≤ length then
      visits d (ptr + (at16 d (ptr + 2) + 4)) (length - (at16 d (ptr + 2) + 4))
    else []
termination_by length
decreasing_by omega

/-- The message length. -/
def msgLength (d : Octets) : Nat := at16 d 2

/-- The places of the attributes. -/
def attributes (d : Octets) : List (Nat × Nat) := visits d 20 (msgLength d)

/-- The attributes use up the message length. -/
def Tiled (d : Octets) : Prop := ∃ v ∈ attributes d, v.2 = 0

/-- The transaction id is that of the request. -/
def Answered (d id : Octets) : Prop := (d.drop 4).take 16 = id

/-- The types of the attributes are known. -/
def Known (d : Octets) : Prop :=
  ∀ v ∈ attributes d, v.1 < d.length → at16 d (v.1 + 2) + 4 ≤ v.2 → at16 d v.1 < 12

/-- What the check is meant to accept. -/
def Exact (d id : Octets) : Prop := d.length = 20 + msgLength d ∧ Tiled d ∧ Answered d id

/-- The functions end, and read nothing but the datagram. -/
def InBounds (d id : Octets) : Prop :=
  ∃ valid, validate d id = some valid ∧ (valid = true → ∀ type < 12,
    ∃ found, findAttribute d type = some found ∧
      ∀ attrib, found = some attrib → (readAddress d attrib).isSome)

/-- The check accepts what it is meant to. -/
def Decides (d id : Octets) : Prop := Known d → (validate d id = some true ↔ Exact d id)

/-- The first attribute has a length and a type that the check goes on with. -/
def Begun (d : Octets) : Prop := at16 d 22 ≤ d.length ∧ at16 d 20 < 12

/-- An attribute of the type is at the place. -/
def opens (d : Octets) (type : Nat) (v : Nat × Nat) : Bool :=
  decide (0 < v.2 ∧ at16 d v.1 = type)

/-- The first attribute of a type. -/
def firstOf (d : Octets) (type : Nat) : Option (Nat × Nat) := (attributes d).find? (opens d type)

/-- The headers that are read are in the datagram, and so are the addresses in what is accepted. -/
structure Readable (d id : Octets) : Prop where
  lengthIn : 4 ≤ d.length
  emptyIn : msgLength d = 0 → 20 ≤ d.length
  firstIn : 20 ≤ msgLength d → 24 ≤ d.length
  headersIn : 20 ≤ msgLength d → Begun d → ∀ v ∈ attributes d, v.1 < d.length → v.1 + 4 ≤ d.length
  addressIn : 20 ≤ msgLength d → Begun d → Tiled d → Answered d id →
    ∀ type < 12, ∀ v, firstOf d type = some v → v.1 + 12 ≤ d.length

/-- The message length is that of the datagram where it would be accepted, and there are 20 octets
    of attributes or none. -/
structure Fitting (d id : Octets) : Prop where
  emptyFits : msgLength d = 0 → Answered d id → d.length = 20
  shortFits : 0 < msgLength d → msgLength d < 20 → Known d → ¬ Exact d id
  longFits : 20 ≤ msgLength d → Begun d → Tiled d → Answered d id → Known d →
    d.length = 20 + msgLength d

section Loops

variable {d : Octets} {i ptr length fuel : Nat}

theorem read16_eq (h : i + 1 < d.length) : read16 d i = some (at16 d i) := by
  rw [read16, List.getElem?_eq_getElem (Nat.lt_of_succ_lt h), Option.bind_some,
    List.getElem?_eq_getElem h, Option.map_some, at16, List.getD_eq_getElem?_getD,
    List.getD_eq_getElem?_getD, List.getElem?_eq_getElem (Nat.lt_of_succ_lt h),
    List.getElem?_eq_getElem h]
  rfl

theorem read16_none (h : d.length ≤ i + 1) : read16 d i = none := by
  rw [read16, List.getElem?_eq_none h]
  cases d[i]? <;> rfl

/-- The headers that are read from a place on are in the datagram. -/
def HeadersIn (d : Octets) (ptr length : Nat) : Prop :=
  ∀ v ∈ visits d ptr length, v.1 < d.length → v.1 + 4 ≤ d.length

def TiledFrom (d : Octets) (ptr length : Nat) : Prop := ∃ v ∈ visits d ptr length, v.2 = 0

theorem visits_next (h : ptr < d.length ∧ at16 d (ptr + 2) + 4 ≤ length) :
    visits d ptr length = (ptr, length) ::
      visits d (ptr + (at16 d (ptr + 2) + 4)) (length - (at16 d (ptr + 2) + 4)) := by
  rw [visits, dif_pos h]

theorem visits_last (h : ¬ (ptr < d.length ∧ at16 d (ptr + 2) + 4 ≤ length)) :
    visits d ptr length = [(ptr, length)] := by
  rw [visits, dif_neg h]

theorem headersIn_next (h : ptr < d.length ∧ at16 d (ptr + 2) + 4 ≤ length) :
    HeadersIn d ptr length ↔ ptr + 4 ≤ d.length ∧
      HeadersIn d (ptr + (at16 d (ptr + 2) + 4)) (length - (at16 d (ptr + 2) + 4)) := by
  rw [HeadersIn, visits_next h, List.forall_mem_cons]
  exact and_congr_left fun _ => ⟨fun hin => hin h.1, fun hin _ => hin⟩

theorem headersIn_last (h : ¬ (ptr < d.length ∧ at16 d (ptr + 2) + 4 ≤ length)) :
    HeadersIn d ptr length ↔ (ptr < d.length → ptr + 4 ≤ d.length) := by
  rw [HeadersIn, visits_last h, List.forall_mem_singleton]

theorem tiledFrom_next (h : ptr < d.length ∧ at16 d (ptr + 2) + 4 ≤ length) :
    TiledFrom d ptr length ↔
      TiledFrom d (ptr + (at16 d (ptr + 2) + 4)) (length - (at16 d (ptr + 2) + 4)) := by
  rw [TiledFrom, visits_next h, List.exists_mem_cons_iff]
  exact or_iff_right fun hzero => by
    have := h.2
    omega

theorem tiledFrom_last (h : ¬ (ptr < d.length ∧ at16 d (ptr + 2) + 4 ≤ length)) :
    TiledFrom d ptr length ↔ length = 0 := by
  rw [TiledFrom, visits_last h]
  exact ⟨fun ⟨v, hv, hzero⟩ => by rwa [List.mem_singleton.mp hv] at hzero,
    fun hzero => ⟨_, List.mem_singleton_self _, hzero⟩⟩

/-- The walk reads the headers of its places. -/
theorem walk_spec (fuel : Nat) : ∀ ptr length, length < fuel →
    (HeadersIn d ptr length → ∃ left, walk d fuel ptr length = some left ∧
      (left = 0 ↔ TiledFrom d ptr length)) ∧
    (¬ HeadersIn d ptr length → walk d fuel ptr length = none) := by
  induction fuel with
  | zero => exact fun ptr length h => absurd h (Nat.not_lt_zero _)
  | succ fuel ih =>
      intro ptr length hfuel
      rw [walk]
      by_cases hin : ptr < d.length
      · rw [if_pos hin]
        by_cases hheader : ptr + 4 ≤ d.length
        · rw [read16_eq (by omega), Option.bind_some]
          by_cases hfits : at16 d (ptr + 2) + 4 ≤ length
          · rw [if_pos hfits, headersIn_next ⟨hin, hfits⟩, and_iff_right hheader,
              tiledFrom_next ⟨hin, hfits⟩]
            exact ih _ _ (by omega)
          · have hlast : ¬ (ptr < d.length ∧ at16 d (ptr + 2) + 4 ≤ length) := fun h => hfits h.2
            rw [if_neg hfits, headersIn_last hlast, tiledFrom_last hlast]
            exact ⟨fun _ => ⟨length, rfl, Iff.rfl⟩, fun h => absurd (fun _ => hheader) h⟩
        · -- The header lies across the end of the datagram.
          rw [read16_none (by omega)]
          refine ⟨fun h => absurd (h _ (by rw [visits]; exact List.mem_cons_self) hin) hheader,
            fun _ => rfl⟩
      · have hlast : ¬ (ptr < d.length ∧ at16 d (ptr + 2) + 4 ≤ length) := fun h => hin h.1
        rw [if_neg hin, headersIn_last hlast, tiledFrom_last hlast]
        exact ⟨fun _ => ⟨length, rfl, Iff.rfl⟩, fun h => absurd (fun h' => absurd h' hin) h⟩

/-- Where something is left of what is tiled, there is an attribute. -/
theorem tiledFrom_pos (h : TiledFrom d ptr length) (hpos : 0 < length) :
    ptr < d.length ∧ at16 d (ptr + 2) + 4 ≤ length := by
  -- Else this place is the last one, with something left.
  refine Decidable.byContradiction fun hlast => ?_
  rw [tiledFrom_last hlast] at h
  omega

theorem skim_spec (fuel : Nat) : ∀ ptr length, length < fuel → HeadersIn d ptr length →
    TiledFrom d ptr length → skim d fuel ptr length = some 0 := by
  induction fuel with
  | zero => exact fun ptr length h => absurd h (Nat.not_lt_zero _)
  | succ fuel ih =>
      intro ptr length hfuel hheaders htiled
      rw [skim]
      by_cases hpos : 0 < length
      · have hnext := tiledFrom_pos htiled hpos
        rw [headersIn_next hnext] at hheaders
        rw [tiledFrom_next hnext] at htiled
        -- The walk has gone this way, and what it read is there.
        have hrun := ih _ _ (by omega) hheaders.2 htiled
        rw [if_pos (by omega), read16_eq (by omega), Option.bind_some]
        rwa [Int.ofNat_sub hnext.2] at hrun
      · rw [if_neg (by omega), Nat.eq_zero_of_not_pos hpos]
        rfl

/-- The search finds the first attribute of its type. -/
theorem findLoop_spec (type fuel : Nat) : ∀ ptr length, length < fuel → HeadersIn d ptr length →
    TiledFrom d ptr length → findLoop d type fuel ptr length =
      some (((visits d ptr length).find? (opens d type)).map Prod.fst) := by
  induction fuel with
  | zero => exact fun ptr length h => absurd h (Nat.not_lt_zero _)
  | succ fuel ih =>
      intro ptr length hfuel hheaders htiled
      rw [findLoop]
      by_cases hpos : 0 < length
      · have hnext := tiledFrom_pos htiled hpos
        rw [headersIn_next hnext] at hheaders
        rw [tiledFrom_next hnext] at htiled
        have hrun := ih _ _ (by omega) hheaders.2 htiled
        rw [if_pos (by omega), read16_eq (by omega), Option.bind_some, visits_next hnext]
        -- The type is read at this place, and found here or behind it.
        by_cases htype : at16 d ptr = type
        · have hfound : opens d type (ptr, length) = true :=
            decide_eq_true ⟨hpos, htype⟩
          rw [if_pos htype, List.find?_cons_of_pos hfound]
          rfl
        · have hother : ¬ opens d type (ptr, length) = true :=
            fun h => htype (of_decide_eq_true h).2
          rw [if_neg htype, List.find?_cons_of_neg hother, read16_eq (by omega),
            Option.bind_some]
          rwa [Int.ofNat_sub hnext.2] at hrun
      · have hlast : ¬ (ptr < d.length ∧ at16 d (ptr + 2) + 4 ≤ length) := by omega
        have hother : ¬ opens d type (ptr, length) = true :=
          fun h => hpos (of_decide_eq_true h).1
        rw [if_neg (by omega), visits_last hlast, List.find?_cons_of_neg hother]
        rfl

end Loops

section Cases

variable {d id : Octets}

theorem readAddress_isSome (attrib : Nat) :
    (readAddress d attrib).isSome ↔ attrib + 12 ≤ d.length := by
  rw [readAddress]
  by_cases h : attrib + 12 ≤ d.length
  · rw [read16_eq (by omega), Option.bind_some, if_pos h]
    exact iff_of_true rfl h
  · refine iff_of_false (fun hsome => ?_) h
    cases hport : read16 d (attrib + 6) with
    | none => simp [hport] at hsome
    | some port => simp [hport, h] at hsome

theorem mem_attributes (d : Octets) : (20, msgLength d) ∈ attributes d := by
  rw [attributes, visits]
  exact List.mem_cons_self

/-- Nothing is said of a reply that is read behind its end. -/
theorem settled_unread (hvalid : validate d id = none) (hread : ¬ Readable d id) :
    InBounds d id ∧ Decides d id ↔ Readable d id ∧ Fitting d id := by
  refine ⟨fun h => ?_, fun h => absurd h.1 hread⟩
  obtain ⟨valid, hsome, -⟩ := h.1
  rw [hvalid] at hsome
  cases hsome

/-- A reply that is rejected is in bounds, and must not be what is meant. -/
theorem settled_rejected (hvalid : validate d id = some false) (hread : Readable d id)
    (hfit : Fitting d id ↔ (Known d → ¬ Exact d id)) :
    InBounds d id ∧ Decides d id ↔ Readable d id ∧ Fitting d id := by
  have hin : InBounds d id := ⟨false, hvalid, fun h => by cases h⟩
  rw [and_iff_right hin, and_iff_right hread, hfit, Decides, hvalid]
  refine forall_congr' fun _ => ⟨fun h hexact => ?_, fun h => iff_of_false (fun h' => ?_) h⟩
  · cases h.mpr hexact
  · cases h'

/-- A reply whose attributes use up the message length has only its own length and the
    transaction id left to be looked at. -/
theorem settled_tiled (hvalid : validate d id = some (decide ((d.drop 4).take 16 = id)))
    (hread : InBounds d id ↔ Readable d id) (htiled : Tiled d)
    (hfit : Fitting d id ↔ (Answered d id → Known d → d.length = 20 + msgLength d)) :
    InBounds d id ∧ Decides d id ↔ Readable d id ∧ Fitting d id := by
  rw [hread, hfit, Decides, hvalid]
  refine and_congr_right fun _ => ⟨fun h hanswered hknown => ?_, fun h hknown => ⟨fun heq => ?_,
    fun hexact => ?_⟩⟩
  · exact ((h hknown).mp (congrArg some (decide_eq_true (p := (d.drop 4).take 16 = id)
      hanswered))).1
  · have hanswered : Answered d id := of_decide_eq_true (p := (d.drop 4).take 16 = id)
      (Option.some.inj heq)
    exact ⟨h hanswered hknown, htiled, hanswered⟩
  · exact congrArg some (decide_eq_true (p := (d.drop 4).take 16 = id) hexact.2.2)

/-- Without a first attribute the message length has to be zero. -/
theorem validate_null (hlength : 4 ≤ d.length) (hnull : getFirstAttribute d = some none) :
    validate d id = if msgLength d ≠ 0 then some false
      else if 20 ≤ d.length then some (decide ((d.drop 4).take 16 = id)) else none := by
  rw [validate, read16_eq (by omega), Option.bind_some, hnull, Option.bind_some, Option.bind_some]
  simp only [ne_eq, Int.natCast_eq_zero]
  rfl

theorem getFirstAttribute_short (hlength : 4 ≤ d.length) (hshort : msgLength d < 20) :
    getFirstAttribute d = some none := by
  rw [getFirstAttribute, read16_eq (by omega), Option.bind_some]
  exact if_pos hshort

theorem reply_short (hlength : 4 ≤ d.length) (hshort : msgLength d < 20) :
    InBounds d id ∧ Decides d id ↔ Readable d id ∧ Fitting d id := by
  have hnull := getFirstAttribute_short hlength hshort
  have hvalid : validate d id = _ := validate_null hlength hnull
  have hnot : ¬ 20 ≤ msgLength d := by omega
  by_cases hzero : msgLength d = 0
  · rw [if_neg (not_not.mpr hzero)] at hvalid
    by_cases hheader : 20 ≤ d.length
    · rw [if_pos hheader] at hvalid
      refine settled_tiled hvalid (iff_of_true ⟨_, hvalid, fun _ type _ => ⟨none, ?_, ?_⟩⟩
        ⟨hlength, fun _ => hheader, fun h => absurd h hnot, fun h => absurd h hnot,
          fun h => absurd h hnot⟩) ⟨_, mem_attributes d, hzero⟩
        ⟨fun h hanswered _ => by rw [h.emptyFits hzero hanswered, hzero], fun h => ?_⟩
      · rw [findAttribute, read16_eq (by omega), Option.bind_some, hnull, Option.bind_some]
        exact if_pos hzero
      · exact fun _ h => by cases h
      · -- Without attributes all types are known.
        have hknown : Known d := fun v hv hend hfits => by
          rw [attributes, visits_last (by omega), List.mem_singleton] at hv
          rw [hv] at hfits
          exact absurd hfits (by dsimp only; omega)
        exact ⟨fun _ hanswered => by rw [h hanswered hknown, hzero],
          fun h => absurd hzero (by omega), fun h => absurd h hnot⟩
    · rw [if_neg hheader] at hvalid
      exact settled_unread hvalid fun h => hheader (h.emptyIn hzero)
  · rw [if_pos hzero] at hvalid
    exact settled_rejected hvalid ⟨hlength, fun h => absurd h hzero, fun h => absurd h hnot,
      fun h => absurd h hnot, fun h => absurd h hnot⟩
      ⟨fun h => h.shortFits (Nat.pos_of_ne_zero hzero) hshort,
        fun h => ⟨fun h' => absurd h' hzero, fun _ _ => h, fun h' => absurd h' hnot⟩⟩

/-- A reply that is meant to be accepted has a first attribute to go on with. -/
theorem begun_of_exact (hlong : 20 ≤ msgLength d) (hknown : Known d) (hexact : Exact d id) :
    Begun d := by
  have hlength : d.length = 20 + msgLength d := hexact.1
  have htiled : TiledFrom d 20 (msgLength d) := hexact.2.1
  -- The message length is not zero, so that there is a first attribute.
  have hfits : 20 < d.length ∧ at16 d 22 + 4 ≤ msgLength d := tiledFrom_pos htiled (by omega)
  have htype := hknown (20, msgLength d) (mem_attributes d) hfits.1 hfits.2
  exact ⟨by omega, htype⟩

theorem getFirstAttribute_unbegun (hlong : 20 ≤ msgLength d) (hfirst : 24 ≤ d.length)
    (hbegun : ¬ Begun d) : getFirstAttribute d = some none := by
  have hshort : ¬ at16 d 2 < 20 := Nat.not_lt.mpr hlong
  rw [getFirstAttribute, read16_eq (by omega), Option.bind_some, if_neg hshort,
    read16_eq (by omega), Option.bind_some]
  by_cases hattr : d.length < at16 d 22
  · exact if_pos hattr
  · rw [if_neg hattr, read16_eq (by omega), Option.bind_some]
    exact if_pos (Nat.not_lt.mp fun h => hbegun ⟨Nat.not_lt.mp hattr, h⟩)

theorem getFirstAttribute_begun (hlong : 20 ≤ msgLength d) (hfirst : 24 ≤ d.length)
    (hbegun : Begun d) : getFirstAttribute d =
      (walk d (msgLength d + 1) 20 (msgLength d)).map fun left =>
        if left ≠ 0 then none else some 20 := by
  have hshort : ¬ at16 d 2 < 20 := Nat.not_lt.mpr hlong
  rw [getFirstAttribute, read16_eq (by omega), Option.bind_some, if_neg hshort,
    read16_eq (by omega), Option.bind_some, if_neg (Nat.not_lt.mpr hbegun.1),
    read16_eq (by omega), Option.bind_some, if_neg (Nat.not_le.mpr hbegun.2)]
  rfl

/-- What is read of a reply whose first attribute is returned. -/
theorem readable_tiled (hlong : 20 ≤ msgLength d) (hfirst : 24 ≤ d.length) (hbegun : Begun d)
    (hheaders : HeadersIn d 20 (msgLength d)) (htiled : Tiled d)
    (hattrib : getFirstAttribute d = some (some 20))
    (hvalid : validate d id = some (decide ((d.drop 4).take 16 = id))) :
    InBounds d id ↔ Readable d id := by
  have hfind : ∀ type, findAttribute d type = some ((firstOf d type).map Prod.fst) := by
    intro type
    rw [findAttribute, read16_eq (by omega), Option.bind_some, hattrib, Option.bind_some]
    exact findLoop_spec type _ 20 (msgLength d) (Nat.lt_succ_self _) hheaders htiled
  constructor
  · intro ⟨valid, hsome, hall⟩
    -- What is found and accepted is read, address and all.
    refine ⟨by omega, fun h => by omega, fun _ => hfirst, fun _ _ => hheaders,
      fun _ _ _ hanswered type htype v hv => ?_⟩
    have htrue : valid = true := by
      rw [hvalid] at hsome
      exact (Option.some.inj hsome).symm.trans
        (decide_eq_true (p := (d.drop 4).take 16 = id) hanswered)
    obtain ⟨found, hfound, hreads⟩ := hall htrue type htype
    rw [hfind, hv] at hfound
    exact (readAddress_isSome _).mp (hreads v.1 (Option.some.inj hfound).symm)
  · intro h
    refine ⟨_, hvalid, fun htrue type htype => ⟨_, hfind type, fun attrib hfound => ?_⟩⟩
    obtain ⟨v, hv, rfl⟩ := Option.map_eq_some_iff.mp hfound
    exact (readAddress_isSome _).mpr
      (h.addressIn hlong hbegun htiled (of_decide_eq_true (p := (d.drop 4).take 16 = id) htrue)
        type htype v hv)

theorem reply_long (hlength : 4 ≤ d.length) (hlong : 20 ≤ msgLength d) :
    InBounds d id ∧ Decides d id ↔ Readable d id ∧ Fitting d id := by
  have hpos : msgLength d ≠ 0 := by omega
  have hshort : ¬ at16 d 2 < 20 := Nat.not_lt.mpr hlong
  -- The fits of a reply that is rejected are those that go on to the end.
  have hrest : (20 ≤ msgLength d → Begun d → Tiled d → Answered d id → Known d →
      d.length = 20 + msgLength d) → Fitting d id :=
    fun h => ⟨fun h' => absurd h' hpos, fun _ h' => absurd h' hshort, h⟩
  by_cases hfirst : 24 ≤ d.length
  · by_cases hbegun : Begun d
    · have hattrib := getFirstAttribute_begun hlong hfirst hbegun
      have hwalk := walk_spec (d := d) (msgLength d + 1) 20 (msgLength d) (Nat.lt_succ_self _)
      by_cases hheaders : HeadersIn d 20 (msgLength d)
      · obtain ⟨left, hleft, hzero⟩ := hwalk.1 hheaders
        rw [hleft, Option.map_some] at hattrib
        by_cases htiled : Tiled d
        · rw [if_neg (not_not.mpr (hzero.mpr htiled))] at hattrib
          have hvalid : validate d id = some (decide ((d.drop 4).take 16 = id)) := by
            rw [validate, read16_eq (by omega), Option.bind_some, hattrib, Option.bind_some]
            dsimp only
            rw [show at16 d 2 = msgLength d from rfl,
              skim_spec _ 20 (msgLength d) (Nat.lt_succ_self _) hheaders htiled, Option.bind_some,
              if_neg (not_not.mpr rfl), if_pos (by omega)]
          exact settled_tiled hvalid
            (readable_tiled hlong hfirst hbegun hheaders htiled hattrib hvalid) htiled
            ⟨fun h => h.longFits hlong hbegun htiled, fun h => hrest fun _ _ _ => h⟩
        -- Something is left, and the reply is as one without attributes.
        · rw [if_pos fun h => htiled (hzero.mp h)] at hattrib
          exact settled_rejected ((validate_null hlength hattrib).trans (if_pos hpos))
            ⟨hlength, fun h => absurd h hpos, fun _ => hfirst, fun _ _ => hheaders,
              fun _ _ h => absurd h htiled⟩
            (iff_of_true (hrest fun _ _ h => absurd h htiled) fun _ h => htiled h.2.1)
      · rw [hwalk.2 hheaders, Option.map_none] at hattrib
        refine settled_unread ?_ fun h => hheaders (h.headersIn hlong hbegun)
        rw [validate, read16_eq (by omega), Option.bind_some, hattrib, Option.bind_none]
    · have hnull := getFirstAttribute_unbegun hlong hfirst hbegun
      exact settled_rejected ((validate_null hlength hnull).trans (if_pos hpos))
        ⟨hlength, fun h => absurd h hpos, fun _ => hfirst, fun _ h => absurd h hbegun,
          fun _ h => absurd h hbegun⟩
        (iff_of_true (hrest fun _ h => absurd h hbegun)
          fun hknown hexact => hbegun (begun_of_exact hlong hknown hexact))
  · -- The first attribute is read before the end is looked at.
    refine settled_unread ?_ fun h => hfirst (h.firstIn hlong)
    have hnone : getFirstAttribute d = none := by
      rw [getFirstAttribute, read16_eq (by omega), Option.bind_some, if_neg hshort,
        read16_none (by omega)]
      rfl
    rw [validate, read16_eq (by omega), Option.bind_some, hnone]
    rfl

end Cases

/-- A reply is read in bounds and checked as meant if and only if the headers and the addresses
    that are read are in it, and its length is what the message length says. -/
theorem reply_iff (d id : Octets) :
    InBounds d id ∧ Decides d id ↔ Readable d id ∧ Fitting d id := by
  by_cases hlength : 4 ≤ d.length
  · by_cases hshort : msgLength d < 20
    · exact reply_short hlength hshort
    · exact reply_long hlength (Nat.not_lt.mp hshort)
  · refine settled_unread ?_ fun h => hlength h.lengthIn
    rw [validate, read16_none (by omega)]
    rfl

/-- The transaction id of a request. -/
def requestId : Octets := List.replicate 16 7

/-- A reply with a mapped address, which is 12 octets long. -/
def mappedReply : Octets :=
  [1, 1, 0, 12] ++ requestId ++ [0, 1, 0, 8, 0, 1, 19, 136, 10, 0, 0, 1]

/-- A reply that ends with the header of the mapped address. -/
def cutReply : Octets := [1, 1, 0, 20] ++ requestId ++ [0, 1, 0, 16]

theorem attributes_mappedReply : attributes mappedReply = [(20, 12), (32, 0)] :=
  (visits_next (show 20 < mappedReply.length ∧ at16 mappedReply 22 + 4 ≤ 12 by decide)).trans
    (congrArg _ (visits_last
      (show ¬ (32 < mappedReply.length ∧ at16 mappedReply 34 + 4 ≤ 0) by decide)))

/-- The reply with a mapped address alone is rejected. What is left of the other one is accepted,
    and the address is read behind its end. -/
theorem not_mapped : ¬ Decides mappedReply requestId ∧ ¬ InBounds cutReply requestId := by
  constructor
  · intro h
    have hexact : Exact mappedReply requestId :=
      ⟨by decide, ⟨(32, 0), by rw [attributes_mappedReply]; decide, rfl⟩, rfl⟩
    have hknown : Known mappedReply := by
      rw [Known, attributes_mappedReply]
      decide
    exact absurd ((h hknown).mpr hexact) (by decide)
  · intro ⟨valid, hvalid, hall⟩
    have htrue : validate cutReply requestId = some true := by decide
    rw [htrue] at hvalid
    obtain ⟨found, hfound, hread⟩ := hall (Option.some.inj hvalid).symm 1 (by decide)
    rw [show findAttribute cutReply 1 = some (some 20) by decide] at hfound
    exact absurd (hread 20 (Option.some.inj hfound).symm) (by decide)

end Stun

end CryptoOpal

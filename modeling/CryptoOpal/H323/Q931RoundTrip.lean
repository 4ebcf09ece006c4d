import CryptoOpal.H323.Q931
import Mathlib.Data.List.GetD

/-!
# Messages that Come Back

The setters take contents of any length, but an element has one octet for its
length, and the user-user element has two. A longer one is written with the rest
of its length cut off, and what is read is something else. The same holds for a
call reference of more than fifteen bits, and for contents of an element that has
none on the line.

These are all the messages that are lost: what is read always fits
(`decode_fits`), and what fits is read back (`decode_encode`).

## Main definitions

* `FitsElement`, `Fits`: What there is room for on the line.
* `Built`: Messages that are built from what there is room for.

## Theorems

* `decodeElements_append`, `decodeElements_entries`: One element is read, and all of them.
* `length_encode`: The octets of a message are as many as were counted.
* `decode_encode`: A message that fits comes back.
* `decode_fits`: What is read fits.
* `decode_encode_iff`: Which messages come back.
* `Built.comes_back`: Messages that are built from short texts come back.
-/

namespace CryptoOpal

namespace H323

open Lib (Octets)

namespace Q931

/-- An element that there is room for on the line. -/
def FitsElement (discriminator : Nat) (element : Octets) : Prop :=
  discriminator < 256 ∧
    if discriminator < 128 then
      element.length + (if discriminator ≠ userUserIE then 0 else 1) <
        if discriminator ≠ userUserIE then 2 ^ 8 else 2 ^ 16
    else
      element = []

/-- A message that there is room for on the line. -/
structure Fits (m : Q931) : Prop where
  reference : m.callReference < 2 ^ 15
  elements : ∀ discriminator, ∀ element ∈ m.informationElements discriminator,
    FitsElement discriminator element

section Elements

variable {data before rest element : Octets} {discriminator : Nat}
  {informationElements : Nat → List Octets}

theorem top_bit (x : UInt8) : x.toNat &&& 0x80 ≠ 0 ↔ 128 ≤ x.toNat := by
  have h : ∀ x : UInt8, x.toNat &&& 0x80 ≠ 0 ↔ 128 ≤ x.toNat :=
    Lib.forall_octet (by decide +kernel)
  exact h x

theorem setElement_append (informationElements : Nat → List Octets) (ie : Nat)
    (userData : Octets) :
    setElement informationElements ie userData true =
      Function.update informationElements ie (informationElements ie ++ [userData]) := by
  rw [setElement]
  by_cases hnone : informationElements ie = []
  · rw [if_neg (fun h => h.2 hnone), hnone, List.nil_append]
  · rw [if_pos ⟨rfl, hnone⟩]

theorem mem_setElement {ie k : Nat} {userData e : Octets} {append : Bool}
    (h : e ∈ setElement informationElements ie userData append k) :
    e ∈ informationElements k ∨ k = ie ∧ e = userData := by
  by_cases hk : k = ie
  · subst hk
    rw [setElement] at h
    split at h
    · rw [Function.update_self, List.mem_append, List.mem_singleton] at h
      exact h.imp_right fun he => ⟨rfl, he⟩
    · rw [Function.update_self, List.mem_singleton] at h
      exact .inr ⟨rfl, h⟩
  · rw [setElement] at h
    split at h <;> rw [Function.update_of_ne hk] at h <;> exact .inl h

theorem setElement_fits {ie : Nat} {userData : Octets} {append : Bool}
    (hfits : ∀ k, ∀ e ∈ informationElements k, FitsElement k e)
    (hnew : FitsElement ie userData) :
    ∀ k, ∀ e ∈ setElement informationElements ie userData append k, FitsElement k e := by
  intro k e he
  rcases mem_setElement he with hold | ⟨rfl, rfl⟩
  · exact hfits k e hold
  · exact hnew

/-- A number of two octets. -/
theorem two_octets (hi lo : UInt8) :
    (hi.toNat <<< 8) ||| lo.toNat = hi.toNat * 256 + lo.toNat := by
  rw [← Nat.shiftLeft_add_eq_or_of_lt lo.toNat_lt, Nat.shiftLeft_eq]

/-- What is read of an element fits. -/
theorem decodeElements_fits (fuel : Nat) {offset : Nat} {after : Nat → List Octets}
    (h : decodeElements data fuel offset informationElements = some after)
    (hfits : ∀ k, ∀ e ∈ informationElements k, FitsElement k e) :
    ∀ k, ∀ e ∈ after k, FitsElement k e := by
  induction fuel generalizing offset informationElements with
  | zero =>
      rw [decodeElements, Option.some.injEq] at h
      rwa [← h]
  | succ fuel ih =>
      rw [decodeElements] at h
      have hoctet := (data.getD offset 0).toNat_lt
      by_cases hmore : offset < data.length
      · rw [if_pos hmore] at h
        simp only at h
        by_cases htop : (data.getD offset 0).toNat &&& 0x80 ≠ 0
        · rw [if_pos htop] at h
          refine ih h (setElement_fits hfits ⟨hoctet, ?_⟩)
          have hle := (top_bit _).mp htop
          rw [if_neg (by omega)]
        · rw [if_neg htop] at h
          have hlow : (data.getD offset 0).toNat < 128 := by
            have hnot := mt (top_bit _).mpr htop
            omega
          by_cases huser : (data.getD offset 0).toNat = userUserIE
          · rw [if_pos huser] at h
            split at h
            · cases h
            · split at h
              · cases h
              · refine ih h (setElement_fits hfits ⟨hoctet, ?_⟩)
                have hhi := (data.getD (offset + 1) 0).toNat_lt
                have hlo := (data.getD (offset + 2) 0).toNat_lt
                rename_i hsome _
                rw [two_octets] at hsome ⊢
                rw [if_pos hlow, if_neg (not_not_intro huser), if_neg (not_not_intro huser),
                  Lib.length_slice]
                omega
          · rw [if_neg huser] at h
            split at h
            · cases h
            · refine ih h (setElement_fits hfits ⟨hoctet, ?_⟩)
              have hlen := (data.getD (offset + 1) 0).toNat_lt
              rw [if_pos hlow, if_pos huser, if_pos huser, Lib.length_slice]
              omega
      · rw [if_neg hmore, Option.some.injEq] at h
        rwa [← h]

/-- What is behind other octets is read there. -/
theorem getD_behind (before after : Octets) (i : Nat) :
    (before ++ after).getD (before.length + i) 0 = after.getD i 0 := by
  rw [List.getD_append_right _ _ _ _ (Nat.le_add_right _ _), Nat.add_sub_cancel_left]

/-- Contents are read behind what precedes them. -/
theorem slice_behind (before front element rest : Octets) :
    Lib.slice (before ++ (front ++ element ++ rest)) (before.length + front.length)
      element.length = element := by
  rw [← List.append_assoc, ← List.append_assoc, ← List.length_append, Lib.slice_middle]

/-- One element is read. -/
theorem decodeElements_append (fuel : Nat) (hfits : FitsElement discriminator element)
    (hdata : data = before ++ (encodeElement discriminator element ++ rest)) :
    decodeElements data (fuel + 1) before.length informationElements =
      decodeElements data fuel (before ++ encodeElement discriminator element).length
        (setElement informationElements discriminator element true) := by
  rcases hfits with ⟨hoctet, hfits⟩
  have hnat : (UInt8.ofNat discriminator).toNat = discriminator := by
    rw [UInt8.toNat_ofNat']
    exact Nat.mod_eq_of_lt hoctet
  have htotal := congrArg List.length hdata
  rw [List.length_append, List.length_append] at htotal
  have htop := top_bit (UInt8.ofNat discriminator)
  rw [hnat] at htop
  by_cases hlow : discriminator < 128
  · rw [if_pos hlow] at hfits
    by_cases huser : discriminator = userUserIE
    · rw [if_neg (not_not_intro huser), if_neg (not_not_intro huser)] at hfits
      rw [encodeElement, if_pos hlow, if_neg (not_not_intro huser)] at hdata htotal ⊢
      have hlen : ((UInt8.ofNat ((element.length + 1) >>> 8)).toNat <<< 8) |||
          (UInt8.ofNat (element.length + 1)).toNat = element.length + 1 := by
        rw [two_octets, UInt8.toNat_ofNat', UInt8.toNat_ofNat', Nat.shiftRight_eq_div_pow]
        omega
      have hread := getD_behind before (([UInt8.ofNat discriminator,
        UInt8.ofNat ((element.length + 1) >>> 8), UInt8.ofNat (element.length + 1), 5] ++ element)
          ++ rest)
      have hslice := slice_behind before [UInt8.ofNat discriminator,
        UInt8.ofNat ((element.length + 1) >>> 8), UInt8.ofNat (element.length + 1), 5] element rest
      rw [← hdata] at hread hslice
      have hfirst : data.getD before.length 0 = UInt8.ofNat discriminator := hread 0
      have hhi : data.getD (before.length + 1) 0 = UInt8.ofNat ((element.length + 1) >>> 8) :=
        hread 1
      have hlo : data.getD (before.length + 2) 0 = UInt8.ofNat (element.length + 1) := hread 2
      simp only [List.length_append, List.length_cons, List.length_nil] at htotal hslice
      rw [decodeElements, if_pos (by omega)]
      simp only [hfirst, hnat, hhi, hlo, hlen]
      rw [if_neg (by rw [htop]; omega), if_pos huser, if_neg (Nat.succ_ne_zero _),
        Nat.add_sub_cancel, if_neg (by omega), hslice]
      rw [List.length_append, List.length_append, ← Nat.add_assoc]
      rfl
    · rw [if_pos huser, if_pos huser] at hfits
      rw [encodeElement, if_pos hlow, if_pos huser] at hdata htotal ⊢
      have hlen : (UInt8.ofNat element.length).toNat = element.length := by
        rw [UInt8.toNat_ofNat']
        exact Nat.mod_eq_of_lt hfits
      have hread := getD_behind before (([UInt8.ofNat discriminator, UInt8.ofNat element.length] ++
        element) ++ rest)
      have hslice := slice_behind before [UInt8.ofNat discriminator, UInt8.ofNat element.length]
        element rest
      rw [← hdata] at hread hslice
      have hfirst : data.getD before.length 0 = UInt8.ofNat discriminator := hread 0
      have hsecond : data.getD (before.length + 1) 0 = UInt8.ofNat element.length := hread 1
      simp only [List.length_append, List.length_cons, List.length_nil] at htotal hslice
      rw [decodeElements, if_pos (by omega)]
      simp only [hfirst, hnat, hsecond, hlen]
      rw [if_neg (by rw [htop]; omega), if_neg huser, if_neg (by omega), hslice]
      rw [List.length_append, List.length_append, ← Nat.add_assoc]
      rfl
  · rw [if_neg hlow] at hfits
    subst hfits
    rw [encodeElement, if_neg hlow] at hdata htotal ⊢
    have hread := getD_behind before ([UInt8.ofNat discriminator] ++ rest)
    rw [← hdata] at hread
    have hfirst : data.getD before.length 0 = UInt8.ofNat discriminator := hread 0
    rw [List.length_singleton] at htotal
    rw [decodeElements, if_pos (by omega)]
    simp only [hfirst, hnat]
    rw [if_pos (htop.mpr (by omega)), List.length_append, List.length_singleton]

/-- Elements are read one after another. -/
theorem decodeElements_entries (entries : List (Nat × Octets)) {fuel : Nat}
    (hfits : ∀ p ∈ entries, FitsElement p.1 p.2) (hfuel : entries.length ≤ fuel)
    (hdata : data = before ++ entries.flatMap fun p => encodeElement p.1 p.2) :
    decodeElements data fuel before.length informationElements =
      some (entries.foldl (fun held p => setElement held p.1 p.2 true) informationElements) := by
  induction entries generalizing before fuel informationElements with
  | nil =>
      rw [List.flatMap_nil, List.append_nil] at hdata
      subst hdata
      cases fuel with
      | zero => rfl
      | succ fuel => rw [decodeElements, if_neg (Nat.lt_irrefl _), List.foldl_nil]
  | cons p entries ih =>
      cases fuel with
      | zero => exact absurd hfuel (Nat.not_succ_le_zero _)
      | succ fuel =>
          rw [List.flatMap_cons] at hdata
          rw [decodeElements_append fuel (hfits p (List.mem_cons_self ..)) hdata, List.foldl_cons]
          refine ih (fun q hq => hfits q (List.mem_cons_of_mem _ hq))
            (Nat.le_of_succ_le_succ hfuel) ?_
          rw [hdata, List.append_assoc]

/-- The elements of a message, in the order they are sent. -/
def entries (informationElements : Nat → List Octets) : List (Nat × Octets) :=
  (List.range 256).flatMap fun discriminator =>
    (informationElements discriminator).map fun element => (discriminator, element)

theorem mem_entries {p : Nat × Octets} :
    p ∈ entries informationElements ↔ p.1 < 256 ∧ p.2 ∈ informationElements p.1 := by
  rw [entries, List.mem_flatMap]
  constructor
  · rintro ⟨d, hd, hp⟩
    rcases List.mem_map.mp hp with ⟨e, he, rfl⟩
    exact ⟨List.mem_range.mp hd, he⟩
  · rintro ⟨hd, he⟩
    exact ⟨p.1, List.mem_range.mpr hd, List.mem_map.mpr ⟨p.2, he, rfl⟩⟩

theorem flatMap_entries (informationElements : Nat → List Octets) :
    ((List.range 256).flatMap fun discriminator =>
      (informationElements discriminator).flatMap (encodeElement discriminator)) =
      (entries informationElements).flatMap fun p => encodeElement p.1 p.2 := by
  rw [entries, List.flatMap_assoc]
  congr 1
  funext discriminator
  rw [List.flatMap_map]

/-- Elements that are put in one after another are kept in their order. -/
theorem foldl_setElement (ie : Nat) (contents : List Octets) (held : Nat → List Octets) :
    contents.foldl (fun held userData => setElement held ie userData true) held =
      Function.update held ie (held ie ++ contents) := by
  induction contents generalizing held with
  | nil => rw [List.foldl_nil, List.append_nil, Function.update_eq_self]
  | cons userData contents ih =>
      rw [List.foldl_cons, ih, setElement_append, Function.update_self, Function.update_idem,
        List.append_assoc, List.singleton_append]

theorem foldl_entries (informationElements : Nat → List Octets) (n : Nat) (k : Nat) :
    ((List.range n).flatMap fun d => (informationElements d).map fun e => (d, e)).foldl
        (fun held p => setElement held p.1 p.2 true) (fun _ => []) k =
      if k < n then informationElements k else [] := by
  induction n with
  | zero => rfl
  | succ n ih =>
      rw [List.range_succ, List.flatMap_append, List.foldl_append, List.flatMap_singleton,
        List.foldl_map, foldl_setElement]
      by_cases hk : k = n
      · subst hk
        rw [Function.update_self, ih, if_neg (Nat.lt_irrefl k), List.nil_append,
          if_pos (Nat.lt_succ_self k)]
      · rw [Function.update_of_ne hk, ih]
        by_cases hlt : k < n
        · rw [if_pos hlt, if_pos (Nat.lt_succ_of_lt hlt)]
        · rw [if_neg hlt, if_neg (by omega)]

theorem length_entries_le (list : List (Nat × Octets)) :
    list.length ≤ (list.flatMap fun p => encodeElement p.1 p.2).length := by
  induction list with
  | nil => exact Nat.le_refl _
  | cons p list ih =>
      have hone : 1 ≤ (encodeElement p.1 p.2).length := by
        rw [encodeElement]
        split
        · split <;> exact Nat.succ_pos _
        · exact Nat.succ_pos _
      rw [List.flatMap_cons, List.length_cons, List.length_append]
      omega

end Elements

section Messages

variable (m : Q931)

/-- The top bit of the call reference is the direction. -/
theorem direction_bit (x : UInt8) (h : x.toNat < 128) :
    (x ||| 0x80) &&& 0x7f = x ∧ x &&& 0x7f = x ∧ (x ||| 0x80) &&& 0x80 ≠ 0 ∧ x &&& 0x80 = 0 := by
  have hall : ∀ x : UInt8, x.toNat < 128 →
      (x ||| 0x80) &&& 0x7f = x ∧ x &&& 0x7f = x ∧ (x ||| 0x80) &&& 0x80 ≠ 0 ∧ x &&& 0x80 = 0 :=
    Lib.forall_octet (by decide +kernel)
  exact hall x h

/-- The first loop of `Encode` counts what the second one writes. -/
theorem length_encode : m.encode.length = m.totalBytes := by
  have hsize : ∀ discriminator element,
      (encodeElement discriminator element).length = elementSize discriminator element := by
    intro discriminator element
    rw [encodeElement, elementSize]
    split
    · split
      · rw [List.length_append, Nat.add_comm]
        rfl
      · rw [List.length_append, Nat.add_comm]
        rfl
    · rfl
  have hcontents : ∀ discriminator (contents : List Octets) total,
      contents.foldl (fun total element => total + elementSize discriminator element) total =
        total + (contents.flatMap (encodeElement discriminator)).length := by
    intro discriminator contents
    induction contents with
    | nil => exact fun _ => rfl
    | cons element contents ih =>
        intro total
        rw [List.foldl_cons, ih, List.flatMap_cons, List.length_append, hsize, Nat.add_assoc]
  have hall : ∀ (range : List Nat) total,
      range.foldl (fun total discriminator => (m.informationElements discriminator).foldl
        (fun total element => total + elementSize discriminator element) total) total =
        total + (range.flatMap fun discriminator =>
          (m.informationElements discriminator).flatMap (encodeElement discriminator)).length := by
    intro range
    induction range with
    | nil => exact fun _ => rfl
    | cons discriminator range ih =>
        intro total
        rw [List.foldl_cons, ih, hcontents, List.flatMap_cons, List.length_append, Nat.add_assoc]
  rw [encode, List.length_append, totalBytes, hall]
  rfl

/-- A message that fits comes back. -/
theorem decode_encode (h : m.Fits) : decode m.encode = some m := by
  have hbody := flatMap_entries m.informationElements
  have hlength := length_entries_le (entries m.informationElements)
  have hencode : m.encode = m.encodeHeader ++
      (entries m.informationElements).flatMap fun p => encodeElement p.1 p.2 := by
    rw [encode, hbody]
  have hheader : m.encodeHeader.length = 5 := rfl
  have htotal := congrArg List.length hencode
  rw [List.length_append, hheader] at htotal
  have hread : ∀ i < 5, m.encode.getD i 0 = m.encodeHeader.getD i 0 := by
    intro i hi
    rw [hencode, List.getD_append _ _ _ _ (by rwa [hheader])]
  have helements : decodeElements m.encode m.encode.length 5 (fun _ => []) =
      some m.informationElements := by
    rw [← hheader, decodeElements_entries _ (fun p hp => ?_) (by omega) hencode]
    · congr 1
      funext k
      rw [entries, foldl_entries]
      split
      · rfl
      · rename_i hk
        -- Nothing is kept where there is no room on the line.
        cases hnone : m.informationElements k with
        | nil => rfl
        | cons e contents =>
            have hin := (h.elements k e (by rw [hnone]; exact List.mem_cons_self ..)).1
            exact absurd hin hk
    · exact h.elements p.1 p.2 (mem_entries.mp hp).2
  have href := h.reference
  have hhi : (UInt8.ofNat (m.callReference >>> 8)).toNat = m.callReference / 256 := by
    rw [UInt8.toNat_ofNat', Nat.shiftRight_eq_div_pow]
    omega
  have hlo : (UInt8.ofNat m.callReference).toNat = m.callReference % 256 := UInt8.toNat_ofNat'
  rcases direction_bit (UInt8.ofNat (m.callReference >>> 8)) (by omega) with
    ⟨hset, hclear, hone, hzero⟩
  rw [decode, if_neg (by omega), if_neg (by rw [hread 1 (by decide)]; exact not_not_intro rfl),
    helements, hread 0 (by decide), hread 2 (by decide), hread 3 (by decide), hread 4 (by decide)]
  rw [Option.map_some, Option.some.injEq]
  have hoctet : m.encodeHeader.getD 2 0 = if m.fromDestination
      then UInt8.ofNat (m.callReference >>> 8) ||| 0x80
      else UInt8.ofNat (m.callReference >>> 8) := rfl
  have hthird : m.encodeHeader.getD 3 0 = UInt8.ofNat m.callReference := rfl
  ext1
  · simp only [hoctet, hthird]
    rw [two_octets, hlo]
    split
    · rw [hset, hhi]
      omega
    · rw [hclear, hhi]
      omega
  · simp only [hoctet]
    split
    · rename_i hfrom
      rw [hfrom, decide_eq_true hone]
    · rename_i hfrom
      rw [decide_eq_false (not_not_intro hzero)]
      exact (Bool.not_eq_true _ ▸ hfrom).symm
  · rfl
  · rfl
  · rfl

/-- What is read fits. -/
theorem decode_fits {data : Octets} {m : Q931} (h : decode data = some m) : m.Fits := by
  rw [decode] at h
  split at h
  · cases h
  · split at h
    · cases h
    · rcases Option.map_eq_some_iff.mp h with ⟨informationElements, helements, rfl⟩
      refine ⟨?_, decodeElements_fits _ helements (fun _ _ he => absurd he List.not_mem_nil)⟩
      have hseven : ∀ x : UInt8, (x &&& 0x7f).toNat < 128 := Lib.forall_octet (by decide +kernel)
      have hhi := hseven (data.getD 2 0)
      have hlo := (data.getD 3 0).toNat_lt
      simp only
      rw [two_octets]
      omega

/-- Just the messages come back that there is room for on the line. -/
theorem decode_encode_iff : decode m.encode = some m ↔ m.Fits :=
  ⟨decode_fits, decode_encode m⟩

/-- An element that is not appended is the only one of its kind. -/
theorem setIE_elements (ie : Nat) (userData : Octets) :
    (m.setIE ie userData false).informationElements =
      Function.update m.informationElements ie [userData] := by
  rw [setIE]
  simp only
  rw [setElement, if_neg (fun hb => Bool.false_ne_true hb.1)]

/-- A display name is put in with the zero that ends it. -/
theorem displayName_elements {name : Octets} (h : name ≠ []) :
    (m.setDisplayName name).informationElements displayIE = [name ++ [0]] := by
  rw [setDisplayName, if_neg h, setIE_elements, Function.update_self]

/-- A display name of 300 octets is cut off. -/
theorem decode_displayName_lost :
    decode ((new.buildSetup 1 0).setDisplayName (List.replicate 300 0x41)).encode ≠
      some ((new.buildSetup 1 0).setDisplayName (List.replicate 300 0x41)) := by
  intro h
  have hname : List.replicate 300 (0x41 : UInt8) ≠ [] := by
    rw [List.replicate_succ]
    exact List.cons_ne_nil _ _
  have hfits := ((decode_fits h).elements displayIE (List.replicate 300 0x41 ++ [0])
    (by rw [displayName_elements _ hname]; exact List.mem_singleton.mpr rfl)).2
  rw [if_pos (by decide), if_pos (by decide), if_pos (by decide), List.length_append,
    List.length_replicate] at hfits
  exact absurd hfits (by decide)

end Messages

section Building

/-- Messages that are built from what there is room for. -/
inductive Built : Q931 → Prop
  | new : Built new
  | build {m : Q931} {callRef : Int} (messageType : UInt8) (fromDest : Bool) : Built m →
      0 ≤ callRef → callRef < 2 ^ 15 → Built (m.build messageType callRef fromDest)
  | setIE {m : Q931} {ie : Nat} {userData : Octets} (append : Bool) : Built m →
      FitsElement ie userData → Built (m.setIE ie userData append)
  | removeIE {m : Q931} (ie : Nat) : Built m → Built (m.removeIE ie)

variable {m : Q931}

theorem Built.fits (h : m.Built) : m.Fits := by
  induction h with
  | new => exact ⟨by decide, fun _ _ he => absurd he List.not_mem_nil⟩
  | build messageType fromDest _ hpos hlt _ =>
      refine ⟨?_, fun _ _ he => absurd he List.not_mem_nil⟩
      simp only [Q931.build]
      omega
  | setIE append _ hnew ih => exact ⟨ih.reference, setElement_fits ih.elements hnew⟩
  | removeIE ie _ ih =>
      refine ⟨ih.reference, ?_⟩
      intro k e he
      by_cases hk : k = ie
      · rw [Q931.removeIE, hk] at he
        simp only [Function.update_self] at he
        exact absurd he List.not_mem_nil
      · rw [Q931.removeIE] at he
        simp only [Function.update_of_ne hk] at he
        exact ih.elements k e he

/-- Whatever is built so comes back. -/
theorem Built.comes_back (h : m.Built) : decode m.encode = some m :=
  Q931.decode_encode m h.fits

/-- Contents of an element with a length of one octet. -/
theorem fitsElement_short {ie : Nat} {userData : Octets} (hie : ie < 126)
    (h : userData.length < 256) : FitsElement ie userData := by
  have hne : ie ≠ userUserIE := by
    rw [userUserIE]
    omega
  refine ⟨by omega, ?_⟩
  rw [if_pos (by omega), if_pos hne, if_pos hne]
  exact h

theorem Built.setDisplayName (h : m.Built) {name : Octets} (hname : name.length < 255) :
    (m.setDisplayName name).Built := by
  rw [Q931.setDisplayName]
  split
  · exact h
  · refine h.setIE false (fitsElement_short (by decide) ?_)
    rw [List.length_append, List.length_singleton]
    omega

theorem Built.setKeypad (h : m.Built) {digits : Octets} (hdigits : digits.length < 255) :
    (m.setKeypad digits).Built := by
  refine h.setIE false (fitsElement_short (by decide) ?_)
  rw [List.length_append, List.length_singleton]
  omega

/-- A number has three octets before it at most. -/
theorem length_setNumberIE (number : Octets) (plan type : Nat)
    (presentation screening reason : Int) :
    (setNumberIE number plan type presentation screening reason).length ≤ number.length + 3 := by
  rw [setNumberIE]
  split
  · rw [List.length_cons]
    omega
  · split <;> simp only [List.length_cons] <;> omega

theorem Built.setCallingPartyNumber (h : m.Built) {number : Octets} (plan type : Nat)
    (presentation screening : Int) (hnumber : number.length < 253) :
    (m.setCallingPartyNumber number plan type presentation screening).Built := by
  have hlen := length_setNumberIE number plan type presentation screening (-1)
  exact h.setIE false (fitsElement_short (by decide) (by omega))

theorem Built.setCalledPartyNumber (h : m.Built) {number : Octets} (plan type : Nat)
    (hnumber : number.length < 253) : (m.setCalledPartyNumber number plan type).Built := by
  have hlen := length_setNumberIE number plan type (-1) (-1) (-1)
  exact h.setIE false (fitsElement_short (by decide) (by omega))

theorem Built.setBearerCapabilities (h : m.Built)
    (capability transferRate codingStandard userInfoLayer1 : Nat) :
    (m.setBearerCapabilities capability transferRate codingStandard userInfoLayer1).Built := by
  refine h.setIE false (fitsElement_short (by decide) ?_)
  split
  · split <;> simp only [List.length_cons, List.length_nil] <;> decide
  · simp only [List.length_cons, List.length_nil]
    decide
  · simp only [List.length_cons, List.length_nil]
    decide

/-- A setup message comes back whatever call reference it was given. -/
theorem Built.buildSetup (h : m.Built) {callRef : Int} (generated : Fin 0x8000)
    (hlt : callRef < 2 ^ 15) : (m.buildSetup callRef generated).Built := by
  refine Built.setBearerCapabilities (h.build _ _ ?_ ?_) 0 1 0 5
  · split <;> omega
  · have hgen := generated.isLt
    split <;> omega

/-- A setup message with a name, a number and digits. -/
theorem comes_back_setup :
    decode ((((new.buildSetup 1 0).setDisplayName [0x41]).setCallingPartyNumber [0x31] 1 0 (-1)
      (-1)).setKeypad [0x32]).encode =
    some ((((new.buildSetup 1 0).setDisplayName [0x41]).setCallingPartyNumber [0x31] 1 0 (-1)
      (-1)).setKeypad [0x32]) := by
  have hsetup : (new.buildSetup 1 0).Built := Built.new.buildSetup 0 (by decide)
  have hname : ((new.buildSetup 1 0).setDisplayName [0x41]).Built :=
    hsetup.setDisplayName (by decide)
  have hnumber := @Built.setCallingPartyNumber _ hname [0x31] 1 0 (-1) (-1) (by decide)
  exact Built.comes_back (hnumber.setKeypad (by decide))

end Building

end Q931

end H323

end CryptoOpal

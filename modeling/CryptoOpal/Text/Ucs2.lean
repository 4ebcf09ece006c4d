import CryptoOpal.Lib.Octets
import Mathlib.Data.List.Basic
import Mathlib.Tactic.Common

/-!
# Sixteen-Bit Characters

The conversions of a string from and to 16-bit characters, where neither a library nor the
system does them. A character is written in one, two or three octets, and the reader knows from
the first octet how many there are.

The writer puts 0xd0 in front of its long form, where the reader expects 0xe0. What the reader
sees there is the first octet of a short form, and so no long form is read back.

There is no result for a conversion that reads or writes outside its arrays, or that does not
come to an end.

## Main definitions

* `form`, `internalFromUcs2`, `ofWide`: A string from characters.
* `decodeStep`, `decodeLoop`, `asUcs2`: The characters of a string.
* `Inverse`: They come back, and a zero behind them.

## Theorems

* `decodeStep_spec`, `asUcs2_isSome`: Every array is read to its end and not further.
* `decodeStep_short`, `decodeStep_long`: What is read of a form.
* `inverse_iff`: What comes back.
-/

namespace CryptoOpal

namespace Text

open Lib (Octets)

/-- The octets of a character. -/
def form (v : Nat) : Octets :=
  if v < 0x80 then [UInt8.ofNat v]
  else if v < 0x800 then [UInt8.ofNat (0xc0 + (v >>> 6)), UInt8.ofNat (0x80 + (v &&& 0x3f))]
  else
    [UInt8.ofNat (0xd0 + (v >>> 12)), UInt8.ofNat (0x80 + ((v >>> 6) &&& 0x3f)),
      UInt8.ofNat (0x80 + (v &&& 0x3f))]

/-- How many octets the first loop counts for a character. -/
def formSize (v : Nat) : Nat := if v < 0x80 then 1 else if v < 0x800 then 2 else 3

/-- `InternalFromUCS2`: the array is cleared, and then written from the front. -/
def internalFromUcs2 (ptr : List Nat) : Option Octets :=
  if ptr = [] then some [0]
  else
    let count := ptr.foldl (fun count v => count + formSize v) 1
    let written := ptr.flatMap form
    if written.length ≤ count then some (written ++ List.replicate (count - written.length) 0)
    else none

/-- `PString(const PWCharArray &)`. -/
def ofWide (ustr : List Nat) : Option Octets :=
  internalFromUcs2 (if ustr.getLast? = some 0 then ustr.dropLast else ustr)

/-- A character at the end of those already there. -/
def store (size : Nat) (ucs2 : List UInt16) (v : Nat) : Option (List UInt16) :=
  if ucs2.length < size then some (ucs2 ++ [UInt16.ofNat v]) else none

/-- How many octets of a longer form are left out. -/
def skipSize (c : UInt8) : Nat :=
  if c.toNat &&& 0xf8 = 0xf0 then 4 else if c.toNat &&& 0xfc = 0xf8 then 5 else 6

/-- One round of the loop of `AsUCS2`. -/
def decodeStep (a : Octets) (i : Nat) (ucs2 : List UInt16) : Option (Nat × List UInt16) :=
  (a[i]?).bind fun c =>
    if c.toNat &&& 0x80 = 0 then (store a.length ucs2 c.toNat).map fun u => (i + 1, u)
    else if c.toNat &&& 0xe0 = 0xc0 then
      if i + 1 < a.length then
        (a[i + 1]?).bind fun d =>
          (store a.length ucs2 (((c.toNat &&& 0x1f) <<< 6) ||| (d.toNat &&& 0x3f))).map
            fun u => (i + 2, u)
      else some (i + 2, ucs2)
    else if c.toNat &&& 0xf0 = 0xe0 then
      if i + 2 < a.length then
        (a[i + 1]?).bind fun d => (a[i + 2]?).bind fun e =>
          (store a.length ucs2 (((c.toNat &&& 0x0f) <<< 12) ||| ((d.toNat &&& 0x3f) <<< 6) |||
            (e.toNat &&& 0x3f))).map fun u => (i + 3, u)
      else some (i + 3, ucs2)
    else if i + skipSize c ≤ a.length then
      (store a.length ucs2 0xffff).map fun u => (i + skipSize c, u)
    else some (i + skipSize c, ucs2)

/-- The loop, with the rounds that are left. -/
def decodeLoop (a : Octets) : Nat → Nat → List UInt16 → Option (List UInt16)
  | 0, i, ucs2 => if i < a.length then none else some ucs2
  | rounds + 1, i, ucs2 =>
    if i < a.length then (decodeStep a i ucs2).bind fun n => decodeLoop a rounds n.1 n.2
    else some ucs2

/-- `AsUCS2` of a string with this array. -/
def asUcs2 (a : Octets) : Option (List UInt16) :=
  if a = [] ∨ a.head? = some 0 then some [0] else decodeLoop a a.length 0 []

/-- The characters come back, and a zero behind them. -/
def Inverse (s : List UInt16) : Prop :=
  (ofWide (s.map UInt16.toNat)).bind asUcs2 = some (s ++ [0])

section Bounds

variable {a : Octets} {i : Nat} {ucs2 : List UInt16}

theorem skipSize_pos (c : UInt8) : 0 < skipSize c := by
  rw [skipSize]
  split
  · decide
  · split <;> decide

/-- A round goes forward, and stores at most one character. -/
theorem decodeStep_spec (hi : i < a.length) (hu : ucs2.length ≤ i) :
    ∃ n, decodeStep a i ucs2 = some n ∧ i < n.1 ∧ ucs2 <+: n.2 ∧ n.2.length ≤ ucs2.length + 1 := by
  have hstore : ∀ v j, i < j → ∃ n, (store a.length ucs2 v).map (fun u => (j, u)) = some n ∧
      i < n.1 ∧ ucs2 <+: n.2 ∧ n.2.length ≤ ucs2.length + 1 := by
    intro v j hj
    rw [store, if_pos (Nat.lt_of_le_of_lt hu hi), Option.map_some]
    exact ⟨_, rfl, hj, List.prefix_append _ _, by rw [List.length_append, List.length_singleton]⟩
  have hskip : ∀ j, i < j → ∃ n, some (j, ucs2) = some n ∧
      i < n.1 ∧ ucs2 <+: n.2 ∧ n.2.length ≤ ucs2.length + 1 :=
    fun j hj => ⟨_, rfl, hj, List.prefix_rfl, Nat.le_succ _⟩
  rw [decodeStep, List.getElem?_eq_getElem hi, Option.bind_some]
  split
  next => exact hstore _ _ (by omega)
  next =>
    split
    next =>
      split
      next h1 =>
        rw [List.getElem?_eq_getElem h1, Option.bind_some]
        exact hstore _ _ (by omega)
      next => exact hskip _ (by omega)
    next =>
      split
      next =>
        split
        next h2 =>
          rw [List.getElem?_eq_getElem (Nat.lt_of_succ_lt h2), Option.bind_some,
            List.getElem?_eq_getElem h2, Option.bind_some]
          exact hstore _ _ (by omega)
        next => exact hskip _ (by omega)
      next =>
        -- Longer marks are passed over, and give a character once only.
        have hnext : i < i + skipSize a[i] := Nat.lt_add_of_pos_right (skipSize_pos _)
        split
        next => exact hstore _ _ hnext
        next => exact hskip _ hnext

/-- The loop ends with no more characters than there are octets. -/
theorem decodeLoop_spec (rounds : Nat) :
    ∀ i ucs2, a.length ≤ i + rounds → ucs2.length ≤ i → ucs2.length ≤ a.length →
      ∃ u, decodeLoop a rounds i ucs2 = some u ∧ ucs2 <+: u ∧ u.length ≤ a.length := by
  induction rounds with
  | zero =>
      intro i ucs2 hr _ hle
      rw [decodeLoop, if_neg (by omega)]
      exact ⟨_, rfl, List.prefix_rfl, hle⟩
  | succ rounds ih =>
      intro i ucs2 hr hu hle
      rw [decodeLoop]
      split
      next hi =>
        rcases decodeStep_spec hi hu with ⟨n, hn, hfar, hpre, hlen⟩
        rcases ih n.1 n.2 (by omega) (by omega) (by omega) with ⟨u, hrun, hpost, hend⟩
        rw [hn, Option.bind_some]
        exact ⟨u, hrun, hpre.trans hpost, hend⟩
      next => exact ⟨_, rfl, List.prefix_rfl, hle⟩

/-- Every array is read to its end. -/
theorem asUcs2_isSome (a : Octets) : ∃ u, asUcs2 a = some u ∧ u.length ≤ a.length + 1 := by
  rw [asUcs2]
  split
  next => exact ⟨_, rfl, Nat.le_add_left _ _⟩
  next =>
    rcases @decodeLoop_spec a a.length 0 [] (Nat.le_add_left _ _) (Nat.le_refl _) (Nat.zero_le _)
      with ⟨u, hu, -, hlen⟩
    exact ⟨u, hu, Nat.le_succ_of_le hlen⟩

end Bounds

section Octet

/-- The marks of a first octet. -/
theorem mark_ascii : ∀ n < 256, n &&& 0x80 = 0 ↔ n < 128 := by
  decide +kernel

theorem mark_two : ∀ n < 256, n &&& 0xe0 = 0xc0 ↔ 192 ≤ n ∧ n < 224 := by
  decide +kernel

theorem and_low (n : Nat) : n &&& 0x3f = n % 64 := Nat.and_two_pow_sub_one_eq_mod n 6

theorem and_lead (n : Nat) : n &&& 0x1f = n % 32 := Nat.and_two_pow_sub_one_eq_mod n 5

theorem shift_low (n : Nat) : n >>> 6 = n / 64 := Nat.shiftRight_eq_div_pow n 6

theorem shift_high (n : Nat) : n >>> 12 = n / 4096 := Nat.shiftRight_eq_div_pow n 12

theorem join_low (m n : Nat) (hn : n < 64) : (m <<< 6) ||| n = m * 64 + n := by
  rw [← Nat.shiftLeft_add_eq_or_of_lt hn, Nat.shiftLeft_eq]

end Octet

section Forms

variable {a rest : Octets} {i : Nat} {ucs2 : List UInt16}

theorem getElem?_of_drop {c : UInt8} (k : Nat) (h : a.drop i = rest) (hk : rest[k]? = some c) :
    a[i + k]? = some c := by
  rw [← h, List.getElem?_drop] at hk
  exact hk

/-- An octet with the mark of a short form is read with the one behind it. -/
theorem decodeStep_two (m n : Nat) (hm : m < 32) (hn : n < 64) (hu : ucs2.length < a.length)
    (h : a.drop i = UInt8.ofNat (0xc0 + m) :: UInt8.ofNat (0x80 + n) :: rest) :
    decodeStep a i ucs2 = some (i + 2, ucs2 ++ [UInt16.ofNat (m * 64 + n)]) := by
  have hc : (UInt8.ofNat (0xc0 + m)).toNat = 0xc0 + m :=
    UInt8.toNat_ofNat_of_lt' (show _ < 256 by omega)
  have hd : (UInt8.ofNat (0x80 + n)).toNat = 0x80 + n :=
    UInt8.toNat_ofNat_of_lt' (show _ < 256 by omega)
  have h0 : a[i]? = _ := getElem?_of_drop 0 h rfl
  have h1 := getElem?_of_drop 1 h rfl
  have hlt : i + 1 < a.length := (List.getElem?_eq_some_iff.mp h1).1
  rw [decodeStep, h0, Option.bind_some, hc,
    if_neg (fun hm => absurd ((mark_ascii _ (by omega)).mp hm) (by omega)),
    if_pos ((mark_two _ (by omega)).mpr (by omega)), if_pos hlt, h1, Option.bind_some, hd, and_lead, and_low, join_low _ _ (Nat.mod_lt _ (by decide)), store, if_pos hu,
    Option.map_some, show (0xc0 + m) % 32 = m by omega, show (0x80 + n) % 64 = n by omega]

theorem decodeStep_one (v : Nat) (hv : v < 128) (hu : ucs2.length < a.length)
    (h : a.drop i = UInt8.ofNat v :: rest) :
    decodeStep a i ucs2 = some (i + 1, ucs2 ++ [UInt16.ofNat v]) := by
  have hc : (UInt8.ofNat v).toNat = v := UInt8.toNat_ofNat_of_lt' (show _ < 256 by omega)
  have h0 : a[i]? = _ := getElem?_of_drop 0 h rfl
  rw [decodeStep, h0, Option.bind_some, hc, if_pos ((mark_ascii _ (by omega)).mpr hv), store, if_pos hu, Option.map_some]

/-- A character of one or two octets is read back. -/
theorem decodeStep_short (v : Nat) (hv : v < 0x800) (hu : ucs2.length < a.length)
    (h : a.drop i = form v ++ rest) :
    decodeStep a i ucs2 = some (i + (form v).length, ucs2 ++ [UInt16.ofNat v]) := by
  rw [form] at h ⊢
  by_cases h1 : v < 0x80
  · rw [if_pos h1] at h ⊢
    exact decodeStep_one v h1 hu h
  · rw [if_neg h1, if_pos hv, shift_low, and_low] at h
    rw [if_neg h1, if_pos hv]
    have hstep := decodeStep_two (v / 64) (v % 64) (by omega) (by omega) hu h
    rw [show v / 64 * 64 + v % 64 = v by omega] at hstep
    exact hstep

/-- Of a character of three octets another one is read. -/
theorem decodeStep_long (v : Nat) (hv : 0x800 ≤ v) (hlt : v < 0x10000) (hu : ucs2.length < a.length)
    (h : a.drop i = form v ++ rest) :
    ∃ w < 0x800, decodeStep a i ucs2 = some (i + 2, ucs2 ++ [UInt16.ofNat w]) := by
  -- The mark of three octets is written as one of two, so that the last octet stays behind.
  rw [form, if_neg (by omega), if_neg (by omega), shift_high, shift_low, and_low,
    show 0xd0 + v / 4096 = 0xc0 + (0x10 + v / 4096) by omega] at h
  exact ⟨(0x10 + v / 4096) * 64 + v / 64 % 64, by omega,
    decodeStep_two _ _ (by omega) (by omega) hu h⟩

theorem length_form (v : Nat) : (form v).length = formSize v := by
  rw [form, formSize]
  split
  · rfl
  · split <;> rfl

theorem length_forms (s : List Nat) (n : Nat) :
    s.foldl (fun count v => count + formSize v) n = n + (s.flatMap form).length := by
  induction s generalizing n with
  | nil => rfl
  | cons v s ih =>
      rw [List.foldl_cons, ih, List.flatMap_cons, List.length_append, length_form, Nat.add_assoc]

/-- The array is as long as the forms and the NUL behind them. -/
theorem internalFromUcs2_eq (s : List Nat) : internalFromUcs2 s = some (s.flatMap form ++ [0]) := by
  rw [internalFromUcs2]
  split
  next hs => rw [hs, List.flatMap_nil, List.nil_append]
  next =>
    simp only [length_forms]
    rw [if_pos (Nat.le_add_left _ _), Nat.add_sub_cancel]
    rfl

theorem octet_ne_zero (n : Nat) (h : n ≠ 0) (hn : n < 256) : UInt8.ofNat n ≠ 0 := by
  intro hzero
  have hnat := congrArg UInt8.toNat hzero
  rw [UInt8.toNat_ofNat_of_lt' (show _ < 256 by omega)] at hnat
  exact h hnat

/-- No form of a character that is not zero begins with a NUL. -/
theorem form_cons (v : Nat) (hv : v ≠ 0) (hlt : v < 0x10000) :
    ∃ c rest, form v = c :: rest ∧ c ≠ 0 := by
  rw [form, shift_low, shift_high]
  split
  next h => exact ⟨_, _, rfl, octet_ne_zero v hv (by omega)⟩
  next =>
    split
    · exact ⟨_, _, rfl, octet_ne_zero _ (by omega) (by omega)⟩
    · exact ⟨_, _, rfl, octet_ne_zero _ (by omega) (by omega)⟩

theorem form_ne_nil (v : Nat) : form v ≠ [] := by
  rw [form]
  split
  · exact List.cons_ne_nil _ _
  · split <;> exact List.cons_ne_nil _ _

end Forms

/-- The loop gives back the characters exactly when none of them has a long form. The induction
    is on the characters that are left. -/
theorem decodeLoop_forms {a : Octets} (s : List UInt16) :
    ∀ rounds i ucs2, a.length ≤ i + rounds → ucs2.length ≤ i →
      a.drop i = (s.map UInt16.toNat).flatMap form ++ [0] →
      (decodeLoop a rounds i ucs2 = some (ucs2 ++ (s ++ [0])) ↔ ∀ v ∈ s, v.toNat < 0x800) := by
  induction s with
  | nil =>
      intro rounds i ucs2 hr hu h
      have hlen := congrArg List.length h
      simp only [List.length_drop, List.map_nil, List.flatMap_nil, List.nil_append,
        List.length_singleton] at hlen
      refine iff_of_true ?_ (fun v hv => absurd hv List.not_mem_nil)
      cases rounds with
      | zero => omega
      | succ rounds =>
          have hstep := decodeStep_one 0 (by decide) (show ucs2.length < a.length by omega) h
          rw [decodeLoop, if_pos (by omega), hstep, Option.bind_some]
          cases rounds with
          | zero =>
              rw [decodeLoop, if_neg (by omega)]
              rfl
          | succ rounds =>
              rw [decodeLoop, if_neg (by omega)]
              rfl
  | cons v s ih =>
      intro rounds i ucs2 hr hu h
      rw [List.map_cons, List.flatMap_cons, List.append_assoc] at h
      have hlen := congrArg List.length h
      have hpos := List.length_pos_of_ne_nil (form_ne_nil v.toNat)
      rw [List.length_drop, List.length_append] at hlen
      have hi : i < a.length := by omega
      cases rounds with
      | zero => omega
      | succ rounds =>
          rw [decodeLoop, if_pos hi]
          by_cases hv : v.toNat < 0x800
          · rw [decodeStep_short v.toNat hv (by omega) h, Option.bind_some, UInt16.ofNat_toNat]
            have hrest : a.drop (i + (form v.toNat).length) =
                (s.map UInt16.toNat).flatMap form ++ [0] := by
              rw [← List.drop_drop, h, List.drop_left]
            have hrun := ih rounds (i + (form v.toNat).length) (ucs2 ++ [v]) (by omega)
              (by rw [List.length_append, List.length_singleton]; omega) hrest
            rw [List.append_assoc, List.singleton_append] at hrun
            rw [List.cons_append, hrun, List.forall_mem_cons, and_iff_right hv]
          · -- What is read in its place stays there.
            rcases decodeStep_long v.toNat (Nat.le_of_not_lt hv) v.toNat_lt
              (show ucs2.length < a.length by omega) h with ⟨w, hw, hstep⟩
            rcases @decodeLoop_spec a rounds (i + 2) (ucs2 ++ [UInt16.ofNat w]) (by omega)
              (by rw [List.length_append, List.length_singleton]; omega)
              (by rw [List.length_append, List.length_singleton]; omega) with ⟨u, hu', hpre, -⟩
            rw [hstep, Option.bind_some, hu']
            refine iff_of_false (fun hrun => ?_) fun hall => hv (hall v List.mem_cons_self)
            rw [Option.some.inj hrun, List.prefix_append_right_inj, List.cons_append,
              List.cons_prefix_cons] at hpre
            rw [← hpre.1, UInt16.toNat_ofNat_of_lt' (show _ < 65536 by omega)] at hv
            exact hv hw

/-- Of a sequence without zeros the characters come back exactly when all of them are below
    0x800. Every array is read and written inside its bounds, up to its end. -/
theorem inverse_iff (s : List UInt16) (hs : 0 ∉ s) (a : Octets) :
    (Inverse s ↔ ∀ v ∈ s, v < 0x800) ∧ ∃ u, asUcs2 a = some u ∧ u.length ≤ a.length + 1 := by
  refine ⟨?_, asUcs2_isSome a⟩
  have hlast : (s.map UInt16.toNat).getLast? ≠ some 0 := by
    intro hlast
    rcases List.mem_map.mp (List.mem_of_getLast? hlast) with ⟨v, hv, hzero⟩
    rw [UInt16.toNat_inj.mp (show v.toNat = (0 : UInt16).toNat from hzero)] at hv
    exact hs hv
  rw [Inverse, ofWide, if_neg hlast, internalFromUcs2_eq, Option.bind_some]
  cases s with
  | nil => exact iff_of_true rfl fun v hv => absurd hv List.not_mem_nil
  | cons v s =>
      have hv : v.toNat ≠ 0 := by
        intro h
        rw [UInt16.toNat_inj.mp (show v.toNat = (0 : UInt16).toNat from h)] at hs
        exact hs List.mem_cons_self
      rcases form_cons v.toNat hv v.toNat_lt with ⟨c, rest, hform, hc⟩
      have hhead : ((v :: s).map UInt16.toNat).flatMap form ++ [0] =
          c :: (rest ++ (s.map UInt16.toNat).flatMap form ++ [0]) := by
        rw [List.map_cons, List.flatMap_cons, hform]
        rfl
      rw [asUcs2, if_neg (by
        rw [hhead, List.head?_cons]
        exact not_or.mpr ⟨List.cons_ne_nil _ _, fun h => hc (Option.some.inj h)⟩)]
      exact decodeLoop_forms (v :: s) _ 0 [] (Nat.le_add_left _ _) (Nat.zero_le _) rfl

theorem inverse_iff_letter :
    (Inverse [97] ↔ ∀ v ∈ [97], v < (0x800 : UInt16)) ∧
      ∃ u, asUcs2 [97, 0] = some u ∧ u.length ≤ [97, 0].length + 1 :=
  inverse_iff [97] (by decide) [97, 0]

/-- The sign of the euro does not come back. -/
theorem not_inverse_euro : ¬ Inverse [0x20ac] := by
  unfold Inverse
  decide

end Text

end CryptoOpal

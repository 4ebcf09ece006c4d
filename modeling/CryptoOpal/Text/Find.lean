import CryptoOpal.Lib.Window
import CryptoOpal.Mime.Text
import Mathlib.Data.BitVec

/-!
# Looking for a Text in a Text

`Find` and `FindLast` of a string, for strings that compare octet by octet and for those that do
not tell capital letters from small ones. Both compare the pattern only at places where the sum
of the capitals agrees with that of the pattern, and keep this sum from place to place. A text
less than ten octets longer than the pattern is searched forwards without sums.

A string is read as far as the NUL behind it, and no further: there is no result for a search
that does. Sums are those of an `int` and wrap around.

## Main definitions

* `Pstring`: A string whose octets a `PINDEX` counts.
* `Query`: A text, a pattern and the comparison.
* `Query.find`, `Query.findLast`: The searches.
* `Query.Occurs`: The pattern is here.

## Theorems

* `internalCompare_spec`, `agrees_spec`: What is compared at a place.
* `find_isFirst`, `findLast_isLast`: What the searches find.
* `searches_find`: The first place and the last one.
-/

namespace CryptoOpal

namespace Text

open Lib (Octets window weight IsFirst IsLast)

open Mime (readAt readAt_lt)

/-- `P_MAX_INDEX`. -/
def pMaxIndex : Nat := 2147483647

/-- `PString`, whose length is a `PINDEX`. -/
structure Pstring extends Mime.CString where
  fits : octets.length < pMaxIndex

/-- `PString` or `PCaselessString`. -/
inductive Casing where
  | exact
  | caseless
  deriving DecidableEq

/-- `toupper`. -/
def toUpper (c : UInt8) : UInt8 := if 97 ≤ c ∧ c ≤ 122 then c - 32 else c

/-- What a comparison sees of an octet. -/
def Casing.fold : Casing → UInt8 → UInt8
  | .exact => id
  | .caseless => toUpper

/-- A text and a pattern. Where both are one array, they are the same. -/
structure Query where
  casing : Casing
  text : Pstring
  pattern : Pstring
  same : Bool
  shared : same = true → pattern = text

/-- `strncmp`, and the loop of the caseless `InternalCompare`. -/
def compareFrom (fold : UInt8 → UInt8) (s p : Octets) : Nat → Nat → Nat → Option Ordering
  | 0, _, _ => some .eq
  | count + 1, i, j =>
    (readAt s i).bind fun c => (readAt p j).bind fun d =>
      if c = 0 ∧ d = 0 then some .eq
      else if fold c < fold d then some .lt
      else if fold d < fold c then some .gt
      else compareFrom fold s p count (i + 1) (j + 1)

/-- What an octet adds to a sum. -/
def upper (c : UInt8) : BitVec 32 := BitVec.ofNat 32 (toUpper c).toNat

namespace Query

variable (q : Query)

/-- `GetLength`. -/
def len : Nat := q.text.octets.length

/-- `strlen(cstr)`. -/
def clen : Nat := q.pattern.octets.length

/-- `InternalCompare`. -/
def internalCompare (offset length : Nat) : Option Ordering :=
  match q.casing with
  | .exact =>
    if offset = 0 ∧ q.same then some .eq
    else if length = pMaxIndex then -- `strcmp`
      compareFrom id q.text.octets q.pattern.octets (q.len + 1) offset 0
    else compareFrom id q.text.octets q.pattern.octets length offset 0
  | .caseless => compareFrom toUpper q.text.octets q.pattern.octets length offset 0

/-- The two sums of the loop in front of a search. -/
def sums (offset : Nat) : Nat → Option (BitVec 32 × BitVec 32)
  | 0 => some (0, 0)
  | i + 1 =>
    (sums offset i).bind fun sum =>
      (readAt q.text.octets (offset + i)).bind fun c =>
        (readAt q.pattern.octets i).bind fun d => some (sum.1 + upper c, sum.2 + upper d)

/-- The comparison, for sums that agree. -/
def agrees (offset : Nat) (strSum cstrSum : BitVec 32) : Option Bool :=
  if strSum = cstrSum then (q.internalCompare offset q.clen).map Ordering.isEq else some false

/-- The loop of `Find` for short texts, with the places that are left. -/
def findShort : Nat → Nat → Option (Option Nat)
  | 0, _ => some none
  | left + 1, offset =>
    (q.internalCompare offset q.clen).bind fun o =>
      if o.isEq then some (some offset) else findShort left (offset + 1)

/-- The loop of `Find` with sums. -/
def findSummed (cstrSum : BitVec 32) : Nat → Nat → BitVec 32 → Option (Option Nat)
  | 0, _, _ => some none
  | left + 1, offset, strSum =>
    (q.agrees offset strSum cstrSum).bind fun found =>
      if found then some (some offset)
      else
        (readAt q.text.octets (offset + q.clen)).bind fun c =>
          (readAt q.text.octets offset).bind fun d =>
            findSummed cstrSum left (offset + 1) (strSum + upper c - upper d)

/-- `Find`, where `none` is `P_MAX_INDEX`. -/
def find (offset : Int) : Option (Option Nat) :=
  if q.pattern.octets = [] ∨ offset < 0 then some none
  else if q.len < q.clen then some none
  else if (q.len : Int) - q.clen < offset then some none
  else if q.len - q.clen < 10 then
    q.findShort (q.len - q.clen + 1 - offset.toNat) offset.toNat
  else
    (q.sums offset.toNat q.clen).bind fun sum =>
      q.findSummed sum.2 (q.len - q.clen + 1 - offset.toNat) offset.toNat sum.1

/-- The loop of `FindLast`. -/
def lastSummed (cstrSum : BitVec 32) : Nat → BitVec 32 → Option (Option Nat)
  | 0, strSum =>
    (q.agrees 0 strSum cstrSum).map fun found => if found then some 0 else none
  | offset + 1, strSum =>
    (q.agrees (offset + 1) strSum cstrSum).bind fun found =>
      if found then some (some (offset + 1))
      else
        (readAt q.text.octets offset).bind fun c =>
          (readAt q.text.octets (offset + q.clen)).bind fun d =>
            lastSummed cstrSum offset (strSum + upper c - upper d)

/-- `FindLast`. -/
def findLast (offset : Int) : Option (Option Nat) :=
  if q.pattern.octets = [] ∨ offset < 0 then some none
  else if q.len < q.clen then some none
  else
    let start := min offset.toNat (q.len - q.clen)
    (q.sums start q.clen).bind fun sum => q.lastSummed sum.2 start sum.1

/-- The pattern occurs at this place. -/
def Occurs (place : Nat) : Prop :=
  place + q.clen ≤ q.len ∧
    (window q.text.octets place q.clen).map q.casing.fold = q.pattern.octets.map q.casing.fold

end Query

/-- Both texts are compared where neither ends. -/
theorem compareFrom_spec (fold : UInt8 → UInt8) {s p : Octets} (hs : 0 ∉ s) (count : Nat) :
    ∀ i j, i + count ≤ s.length → j + count ≤ p.length →
      ∃ o, compareFrom fold s p count i j = some o ∧
        (o = .eq ↔ (window s i count).map fold = (window p j count).map fold) := by
  induction count with
  | zero =>
      intro i j _ _
      refine ⟨.eq, rfl, iff_of_true rfl ?_⟩
      rw [window, window, List.take_zero, List.take_zero]
  | succ count ih =>
      intro i j hi hj
      have hil : i < s.length := by omega
      have hjl : j < p.length := by omega
      have hne : ¬ (s[i] = 0 ∧ p[j] = 0) := fun h => hs (h.1 ▸ List.getElem_mem hil)
      rw [compareFrom, readAt_lt hil, Option.bind_some, readAt_lt hjl, Option.bind_some,
        if_neg hne, Lib.window_cons hil, Lib.window_cons hjl, List.map_cons, List.map_cons,
        List.cons.injEq]
      -- The loop goes on only where the octets are the same up to their case.
      by_cases hlt : fold s[i] < fold p[j]
      · rw [if_pos hlt]
        exact ⟨.lt, rfl, iff_of_false (by decide) fun h => absurd hlt (h.1 ▸ UInt8.lt_irrefl _)⟩
      · rw [if_neg hlt]
        by_cases hgt : fold p[j] < fold s[i]
        · rw [if_pos hgt]
          exact ⟨.gt, rfl, iff_of_false (by decide) fun h => absurd hgt (h.1 ▸ UInt8.lt_irrefl _)⟩
        · rw [if_neg hgt]
          have heq : fold s[i] = fold p[j] :=
            UInt8.le_antisymm (UInt8.not_lt.mp hgt) (UInt8.not_lt.mp hlt)
          rcases ih (i + 1) (j + 1) (by omega) (by omega) with ⟨o, ho, hiff⟩
          exact ⟨o, ho, hiff.trans (and_iff_right heq).symm⟩

theorem window_all (s : Octets) : window s 0 s.length = s := by
  rw [window, List.drop_zero, List.take_length]

namespace Query

variable {q : Query} {offset : Nat}

theorem window_pattern : window q.pattern.octets 0 q.clen = q.pattern.octets :=
  window_all q.pattern.octets

/-- What `InternalCompare` says where the pattern is not longer than the rest of the text. -/
theorem internalCompare_spec (h : offset + q.clen ≤ q.len) :
    ∃ o, q.internalCompare offset q.clen = some o ∧ (o = .eq ↔ q.Occurs offset) := by
  have hloop : ∀ fold, q.casing.fold = fold →
      ∃ o, compareFrom fold q.text.octets q.pattern.octets q.clen offset 0 = some o ∧
        (o = .eq ↔ q.Occurs offset) := by
    intro fold hfold
    rcases compareFrom_spec fold q.text.noNul q.clen offset 0 h (Nat.le_of_eq (Nat.zero_add _))
      with ⟨o, ho, hiff⟩
    refine ⟨o, ho, hiff.trans ?_⟩
    rw [Occurs, hfold, window_pattern]
    exact (and_iff_right h).symm
  cases hk : q.casing with
  | caseless =>
      rw [internalCompare, hk]
      exact hloop toUpper (by rw [hk, Casing.fold])
  | exact =>
      rw [internalCompare, hk]
      by_cases hsame : offset = 0 ∧ q.same
      · -- The pattern is the whole text, and it is not compared at all.
        refine ⟨.eq, if_pos hsame, iff_of_true rfl ⟨h, ?_⟩⟩
        rw [hsame.1, clen, q.shared hsame.2, window_all]
      · have hclen : q.clen ≠ pMaxIndex := Nat.ne_of_lt q.pattern.fits
        simp only [if_neg hsame, if_neg hclen]
        exact hloop id (by rw [hk, Casing.fold])

theorem toUpper_toUpper (c : UInt8) : toUpper (toUpper c) = toUpper c := by
  rw [toUpper, toUpper]
  split <;> grind

/-- Texts that compare as equal have the same sum. -/
theorem weight_occurs (h : q.Occurs offset) :
    weight upper (window q.text.octets offset q.clen) = weight upper q.pattern.octets := by
  -- The sums are of capital letters, whatever the comparison takes for the same.
  have hfold : upper = upper ∘ q.casing.fold := by
    cases q.casing with
    | exact => rfl
    | caseless =>
        funext c
        rw [Function.comp_apply, Casing.fold, upper, upper, toUpper_toUpper]
  rw [hfold]
  exact Lib.weight_eq q.casing.fold upper h.2

theorem sums_spec (h : offset + q.clen ≤ q.len) (n : Nat) (hn : n ≤ q.clen) :
    q.sums offset n =
      some (weight upper (window q.text.octets offset n), weight upper (window q.pattern.octets 0 n)) := by
  induction n with
  | zero => rfl
  | succ n ih =>
      have ht : offset + n < q.text.octets.length := by
        rw [len] at h
        omega
      have hp : 0 + n < q.pattern.octets.length := by
        rw [clen] at hn
        omega
      rw [sums, ih (Nat.le_of_succ_le hn), Option.bind_some, readAt_lt ht, Option.bind_some,
        Lib.window_concat ht, Lib.window_concat hp, Lib.weight_concat, Lib.weight_concat]
      simp only [Nat.zero_add] at hp ⊢
      rw [readAt_lt hp, Option.bind_some]

/-- The sums only save comparisons that fail. -/
theorem agrees_spec (h : offset + q.clen ≤ q.len) :
    ∃ found, q.agrees offset (weight upper (window q.text.octets offset q.clen))
        (weight upper q.pattern.octets) = some found ∧ (found = true ↔ q.Occurs offset) := by
  rw [agrees]
  split
  next =>
    rcases internalCompare_spec h with ⟨o, ho, hiff⟩
    refine ⟨o.isEq, by rw [ho, Option.map_some], ?_⟩
    rw [← hiff, Ordering.isEq_iff_eq_eq]
  next hne => exact ⟨false, rfl, iff_of_false Bool.false_ne_true fun hocc => hne (weight_occurs hocc)⟩

/-- What the loops read between two neighbouring places. -/
theorem weight_step (h : offset + q.clen < q.len) :
    ∃ c d, readAt q.text.octets offset = some c ∧
      readAt q.text.octets (offset + q.clen) = some d ∧
      weight upper (window q.text.octets (offset + 1) q.clen) + upper c =
        weight upper (window q.text.octets offset q.clen) + upper d := by
  have hlt : offset < q.text.octets.length := by
    rw [len] at h
    omega
  exact ⟨_, _, readAt_lt hlt, readAt_lt h, Lib.weight_succ upper h⟩

theorem not_occurs_of_lt {place : Nat} (h : q.len < place + q.clen) : ¬ q.Occurs place :=
  fun hocc => absurd hocc.1 (Nat.not_le_of_lt h)

theorem readAt_isSome {i : Nat} (h : i ≤ q.len) : ∃ c, readAt q.text.octets i = some c :=
  Mime.readAt_le h

theorem findShort_spec (left : Nat) :
    ∀ offset, offset + left + q.clen = q.len + 1 →
      ∃ r, q.findShort left offset = some r ∧ IsFirst q.Occurs offset r := by
  induction left with
  | zero => exact fun offset h => ⟨none, rfl, fun p hp => not_occurs_of_lt (by omega)⟩
  | succ left ih =>
      intro offset h
      rcases @internalCompare_spec q offset (by omega) with ⟨o, ho, hiff⟩
      rw [findShort, ho, Option.bind_some]
      split
      next hfound => exact ⟨_, rfl, .here (hiff.mp (Ordering.isEq_iff_eq_eq.mp hfound))⟩
      next hfound =>
        rcases ih (offset + 1) (by omega) with ⟨r, hr, hfirst⟩
        exact ⟨r, hr, hfirst.next fun hocc =>
          hfound (Ordering.isEq_iff_eq_eq.mpr (hiff.mpr hocc))⟩

/-- The sum belongs to the window at which the loop stands. -/
theorem findSummed_spec (left : Nat) :
    ∀ offset, offset + left + q.clen = q.len + 1 →
      ∃ r, q.findSummed (weight upper q.pattern.octets) left offset
          (weight upper (window q.text.octets offset q.clen)) = some r ∧
        IsFirst q.Occurs offset r := by
  induction left with
  | zero => exact fun offset h => ⟨none, rfl, fun p hp => not_occurs_of_lt (by omega)⟩
  | succ left ih =>
      intro offset h
      rcases @agrees_spec q offset (by omega) with ⟨found, hf, hiff⟩
      rw [findSummed, hf, Option.bind_some]
      cases found with
      | true => exact ⟨_, rfl, .here (hiff.mp rfl)⟩
      | false =>
          have hno : ¬ q.Occurs offset := fun hocc => Bool.false_ne_true (hiff.mpr hocc)
          rw [if_neg Bool.false_ne_true]
          cases left with
          | zero =>
              -- The octet behind the last window is the NUL, and the new sum is not used.
              rcases @readAt_isSome q (offset + q.clen) (by omega) with ⟨c, hc⟩
              rcases @readAt_isSome q offset (by omega) with ⟨d, hd⟩
              rw [hc, Option.bind_some, hd, Option.bind_some]
              exact ⟨none, rfl, IsFirst.next hno fun p hp => not_occurs_of_lt (by omega)⟩
          | succ left =>
              rcases @weight_step q offset (by omega) with ⟨c, d, hc, hd, hsum⟩
              rcases ih (offset + 1) (by omega) with ⟨r, hr, hfirst⟩
              -- What is added and taken off makes the sum of the next window.
              rw [hd, Option.bind_some, hc, Option.bind_some, sub_eq_of_eq_add hsum.symm]
              exact ⟨r, hr, hfirst.next hno⟩

theorem lastSummed_spec (offset : Nat) (h : offset + q.clen ≤ q.len) :
    ∃ r, q.lastSummed (weight upper q.pattern.octets) offset
        (weight upper (window q.text.octets offset q.clen)) = some r ∧
      IsLast q.Occurs offset r := by
  induction offset with
  | zero =>
      rcases agrees_spec h with ⟨found, hf, hiff⟩
      rw [lastSummed, hf, Option.map_some]
      cases found with
      | true => exact ⟨_, rfl, .here (hiff.mp rfl)⟩
      | false => exact ⟨_, rfl, .zero fun hocc => Bool.false_ne_true (hiff.mpr hocc)⟩
  | succ offset ih =>
      rcases agrees_spec h with ⟨found, hf, hiff⟩
      rw [lastSummed, hf, Option.bind_some]
      cases found with
      | true => exact ⟨_, rfl, .here (hiff.mp rfl)⟩
      | false =>
          rcases @weight_step q offset (by omega) with ⟨c, d, hc, hd, hsum⟩
          rcases ih (by omega) with ⟨r, hr, hlast⟩
          rw [if_neg Bool.false_ne_true, hc, Option.bind_some, hd, Option.bind_some,
            sub_eq_of_eq_add hsum]
          exact ⟨r, hr, hlast.next fun hocc => Bool.false_ne_true (hiff.mpr hocc)⟩

theorem find_isFirst (offset : Nat) (hp : q.pattern.octets ≠ []) :
    ∃ r, q.find offset = some r ∧ IsFirst q.Occurs offset r := by
  have hno : q.len < offset + q.clen → IsFirst q.Occurs offset none :=
    fun h p hge => not_occurs_of_lt (by omega)
  rw [find, if_neg (not_or.mpr ⟨hp, by omega⟩)]
  by_cases hlen : q.len < q.clen
  · rw [if_pos hlen]
    exact ⟨none, rfl, hno (by omega)⟩
  rw [if_neg hlen]
  by_cases hlate : (q.len : Int) - q.clen < offset
  · rw [if_pos hlate]
    exact ⟨none, rfl, hno (by omega)⟩
  rw [if_neg hlate, Int.toNat_natCast]
  split
  next => exact findShort_spec _ offset (by omega)
  next =>
    have hin : offset + q.clen ≤ q.len := by omega
    rw [sums_spec hin q.clen (Nat.le_refl _), Option.bind_some, window_pattern]
    exact findSummed_spec _ offset (by omega)

theorem findLast_isLast (offset : Nat) (hp : q.pattern.octets ≠ []) :
    ∃ r, q.findLast offset = some r ∧ IsLast q.Occurs offset r := by
  rw [findLast, if_neg (not_or.mpr ⟨hp, by omega⟩)]
  by_cases hlen : q.len < q.clen
  · rw [if_pos hlen]
    exact ⟨none, rfl, fun p hp => not_occurs_of_lt (by omega)⟩
  rw [if_neg hlen, Int.toNat_natCast]
  have hstart : min offset (q.len - q.clen) + q.clen ≤ q.len := by omega
  rcases lastSummed_spec _ hstart with ⟨r, hr, hlast⟩
  refine ⟨r, ?_, ?_⟩
  · simp only [sums_spec hstart q.clen (Nat.le_refl _), Option.bind_some, window_pattern]
    exact hr
  -- A pattern cannot be behind the place where its end is the end of the text.
  · by_cases hmin : offset ≤ q.len - q.clen
    · rwa [Nat.min_eq_left hmin] at hlast
    · rw [Nat.min_eq_right (by omega)] at hlast
      exact hlast.mono (by omega) fun p hocc => by
        have := hocc.1
        omega

end Query

/-- Both searches find what a comparison at every place finds, and read nothing behind the
    NUL. -/
theorem searches_find (q : Query) (offset : Nat) (hp : q.pattern.octets ≠ []) :
    ∃ first last, q.find offset = some first ∧ q.findLast offset = some last ∧
      (∀ p, first = some p ↔ IsLeast {p | offset ≤ p ∧ q.Occurs p} p) ∧
      (first = none ↔ ∀ p, offset ≤ p → ¬ q.Occurs p) ∧
      (∀ p, last = some p ↔ IsGreatest {p | p ≤ offset ∧ q.Occurs p} p) ∧
      (last = none ↔ ∀ p, p ≤ offset → ¬ q.Occurs p) := by
  rcases Query.find_isFirst offset hp with ⟨first, hfind, hfirst⟩
  rcases Query.findLast_isLast offset hp with ⟨last, hback, hlast⟩
  exact ⟨first, last, hfind, hback, hfirst.iff.1, hfirst.iff.2, hlast.iff.1, hlast.iff.2⟩

/-- The word `lo` in `Hello` without regard to capitals. -/
def helloQuery : Query where
  casing := .caseless
  text := ⟨⟨[72, 101, 108, 108, 111], by decide⟩, by decide⟩
  pattern := ⟨⟨[76, 79], by decide⟩, by decide⟩
  same := false
  shared := fun h => (nomatch h)

theorem searches_find_hello :
    ∃ first last, helloQuery.find 0 = some first ∧ helloQuery.findLast 0 = some last ∧
      (∀ p, first = some p ↔ IsLeast {p | 0 ≤ p ∧ helloQuery.Occurs p} p) ∧
      (first = none ↔ ∀ p, 0 ≤ p → ¬ helloQuery.Occurs p) ∧
      (∀ p, last = some p ↔ IsGreatest {p | p ≤ 0 ∧ helloQuery.Occurs p} p) ∧
      (last = none ↔ ∀ p, p ≤ 0 → ¬ helloQuery.Occurs p) :=
  searches_find helloQuery 0 (by decide)

end Text

end CryptoOpal

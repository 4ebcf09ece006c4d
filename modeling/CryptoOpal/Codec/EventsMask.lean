import CryptoOpal.Sip.MediaOption
import Mathlib.Tactic.IntervalCases

/-!
# The List of Telephone Events

`operator<<` and `operator>>` of `OpalRFC2833EventsMask`: a set of event codes
as codes and ranges of codes with commas between them, such as `0-15,32`.

The printer goes through the codes below 255 only. So code 255 is never
printed by itself, and a run that goes on to it is followed to the entry after
the last one. The parser looks at the first code of a range and not at the
second one, so a range that ends above 255 is written out beyond the mask.

A result of `none` is an access outside of the 256 entries.

## Main definitions

* `EventsMask`: The mask.
* `printMask`, `parseMask`: Printing and parsing.
* `RangesInside`: Condition on a text for the parser to stay inside.

## Theorems

* `parseFrom_item`: One code or range of a text.
* `printFrom_parses`: What the printer writes from some code on.
* `mask_round_trip`: The sets that come back from their text.
* `mask_parser_inside`: The texts that the parser stays inside of the mask for.
-/

namespace CryptoOpal

namespace Codec

open Sip (Text isSpace isDigit decimal readDigits readNumber)

section Stream

/-- The sign of a number. -/
def afterSign : Text → Text
  | '-' :: rest => rest
  | '+' :: rest => rest
  | rest => rest

/-- `>>` to an unsigned number: the number and what follows it. -/
def readUnsigned (t : Text) : Option (Nat × Text) :=
  (readNumber .unsigned t).map fun v =>
    (v.toNat, (afterSign (t.dropWhile isSpace)).dropWhile isDigit)

/-- `>> ws`. -/
def skipSpace (t : Text) : Text := t.dropWhile isSpace

theorem afterSign_suffix (t : Text) : afterSign t <:+ t := by
  unfold afterSign
  split
  · exact List.suffix_cons _ _
  · exact List.suffix_cons _ _
  · exact List.suffix_refl _

theorem skipSpace_suffix (t : Text) : skipSpace t <:+ t := List.dropWhile_suffix _

/-- What follows a number is the end of the text. -/
theorem readUnsigned_suffix {t rest : Text} {n : Nat} (h : readUnsigned t = some (n, rest)) :
    rest <:+ t := by
  rcases Option.map_eq_some_iff.1 h with ⟨v, -, heq⟩
  rw [← (Prod.mk.inj heq).2]
  exact (List.dropWhile_suffix _).trans ((afterSign_suffix _).trans (skipSpace_suffix t))

end Stream

section Model

/-- `OpalRFC2833EventsMask`. -/
abbrev EventsMask := Vector Bool 256

/-- `while (mask[i]) i++`: the first code from `i` on that is not in the mask. -/
def runEnd (mask : EventsMask) (i : Nat) : Option Nat :=
  if h : i < 256 then
    if mask[i] then runEnd mask (i + 1) else some i
  else none
termination_by 256 - i

theorem le_runEnd {mask : EventsMask} {i j : Nat} (h : runEnd mask i = some j) : i ≤ j := by
  fun_induction runEnd mask i with
  | case1 i _ _ ih => exact Nat.le_of_succ_le (ih h)
  | case2 i => exact Nat.le_of_eq (Option.some.inj h)
  | case3 => exact (nomatch h)

/-- A run of codes, from `start` up to the one before `i`. -/
def runText (start i : Nat) : Text :=
  decimal start ++ (if start + 1 < i then '-' :: decimal (i - 1) else [])

/-- The comma in front of a run that is not the first. -/
def comma (needComma : Bool) : Text := if needComma then [','] else []

/-- The loop of `operator<<`. -/
def printFrom (mask : EventsMask) (i : Nat) (needComma : Bool) : Option Text :=
  if h : i < 255 then
    if mask[i] then
      match hrun : runEnd mask (i + 1) with
      | none => none
      | some j =>
        (printFrom mask j true).map fun rest =>
          comma needComma ++ runText i j ++ rest
    else printFrom mask (i + 1) needComma
  else some []
termination_by 256 - i
decreasing_by
  · have := le_runEnd hrun
    omega
  · omega

/-- `operator<<`. -/
def printMask (mask : EventsMask) : Option Text := printFrom mask 0 false

/-- `while (eventCode <= endCode) mask[eventCode++] = true`. -/
def setCodes (mask : EventsMask) (eventCode endCode : Nat) : Option EventsMask :=
  if eventCode ≤ endCode then
    if h : eventCode < 256 then setCodes (mask.set eventCode true) (eventCode + 1) endCode
    else none
  else some mask
termination_by 256 - eventCode

/-- `peek` and `ignore` of a comma: what follows it, if there is one. -/
def afterComma : Text → Option Text
  | ',' :: more => some more
  | _ => none

/-- The body of the loop of `operator>>`: the mask, and what is left to parse unless the function
returns. -/
def parseItem (mask : EventsMask) (t : Text) : Option (EventsMask × Option Text) :=
  match readUnsigned t with
  | none => some (mask, none)
  | some (eventCode, rest) =>
    if h : 255 < eventCode then some (mask, none)
    else
      match skipSpace rest with
      | ',' :: more => some (mask.set eventCode true, some more)
      | '-' :: more =>
        match readUnsigned more with
        | none => some (mask, none)
        | some (endCode, rest') =>
          (setCodes mask eventCode endCode).map fun mask => (mask, afterComma (skipSpace rest'))
      | _ => some (mask.set eventCode true, none)

theorem length_afterComma {t more : Text} (h : afterComma t = some more) :
    more.length < t.length := by
  unfold afterComma at h
  split at h
  · cases h
    exact Nat.lt_succ_self _
  · exact (nomatch h)

/-- Every iteration reads at least a comma. -/
theorem length_parseItem {mask m : EventsMask} {t more : Text}
    (h : parseItem mask t = some (m, some more)) : more.length < t.length := by
  unfold parseItem at h
  split at h
  · exact (nomatch h)
  · rename_i eventCode rest hcode
    have hskip := ((skipSpace_suffix rest).trans (readUnsigned_suffix hcode)).length_le
    split at h
    · exact (nomatch h)
    · split at h
      · rename_i hnext
        rw [hnext, List.length_cons] at hskip
        cases h
        omega
      · rename_i hnext
        rw [hnext, List.length_cons] at hskip
        split at h
        · exact (nomatch h)
        · rename_i rest' hend
          rcases Option.map_eq_some_iff.1 h with ⟨m', -, heq⟩
          have hmore := length_afterComma (Prod.mk.inj heq).2
          have hskip' := ((skipSpace_suffix rest').trans (readUnsigned_suffix hend)).length_le
          omega
      · exact (nomatch h)

/-- The loop of `operator>>`. -/
def parseFrom (mask : EventsMask) (t : Text) : Option EventsMask :=
  match _hitem : parseItem mask t with
  | none => none
  | some (m, none) => some m
  | some (m, some more) => parseFrom m more
termination_by t.length
decreasing_by exact length_parseItem _hitem

/-- `operator>>`. -/
def parseMask (t : Text) : Option EventsMask := parseFrom (Vector.replicate 256 false) t

end Model

section Numbers

variable {p rest : Text} {pred : Char → Bool} {c : Char}

/-- A scan that stops at a character does not see what follows it. -/
theorem takeWhile_stop (hc : pred c = false) :
    (p ++ c :: rest).takeWhile pred = p.takeWhile pred := by
  induction p with
  | nil =>
      rw [List.nil_append, List.takeWhile_cons_of_neg (by rw [hc]; decide), List.takeWhile_nil]
  | cons d p ih => rw [List.cons_append, List.takeWhile_cons, List.takeWhile_cons, ih]

theorem dropWhile_stop (hc : pred c = false) :
    (p ++ c :: rest).dropWhile pred = p.dropWhile pred ++ c :: rest := by
  induction p with
  | nil =>
      rw [List.nil_append, List.dropWhile_cons_of_neg (by rw [hc]; decide), List.dropWhile_nil,
        List.nil_append]
  | cons d p ih =>
      rw [List.cons_append, List.dropWhile_cons, List.dropWhile_cons, ih]
      split
      · rfl
      · rfl

/-- A comma is no sign. -/
theorem afterSign_comma : afterSign (p ++ ',' :: rest) = afterSign p ++ ',' :: rest := by
  cases p with
  | nil => rfl
  | cons d p =>
      rw [List.cons_append]
      by_cases hminus : d = '-'
      · rw [hminus]
        rfl
      · by_cases hplus : d = '+'
        · rw [hplus]
          rfl
        · rw [afterSign, afterSign]
          · rfl
          all_goals simp_all

/-- The number of a text, by its sign and its digits. -/
theorem readNumber_unsigned (t : Text) :
    readNumber .unsigned t = (readDigits (afterSign (skipSpace t))).bind
      (Sip.NumberType.ofSign .unsigned (decide ((skipSpace t).head? = some '-'))) := by
  unfold readNumber afterSign
  change (match skipSpace t with
    | '-' :: rest => _
    | '+' :: rest => _
    | rest => _) = _
  generalize skipSpace t = u
  split
  · rfl
  · rfl
  · rename_i h hplus
    rw [decide_eq_false]
    intro hhead
    rcases List.head?_eq_some_iff.1 hhead with ⟨more, hmore⟩
    exact h more hmore

theorem readDigits_congr {t u : Text} (h : t.takeWhile isDigit = u.takeWhile isDigit) :
    readDigits t = readDigits u := by
  unfold readDigits
  rw [h]

/-- What follows a comma is not read. -/
theorem readUnsigned_comma :
    readUnsigned (p ++ ',' :: rest) = (readUnsigned p).map fun r => (r.1, r.2 ++ ',' :: rest) := by
  have hskip : skipSpace (p ++ ',' :: rest) = skipSpace p ++ ',' :: rest :=
    dropWhile_stop (by decide)
  have hsign : (skipSpace p ++ ',' :: rest).head? = some '-' ↔ (skipSpace p).head? = some '-' := by
    cases skipSpace p with
    | nil =>
        exact iff_of_false (fun heq => absurd (Option.some.inj heq) (by decide))
          (fun heq => nomatch heq)
    | cons d q => exact Iff.rfl
  have hnumber : readNumber .unsigned (p ++ ',' :: rest) = readNumber .unsigned p := by
    rw [readNumber_unsigned, readNumber_unsigned, hskip, afterSign_comma,
      readDigits_congr (takeWhile_stop (by decide)), decide_eq_decide.2 hsign]
  unfold readUnsigned
  rw [hnumber, Option.map_map]
  congr 1
  funext v
  refine Prod.ext rfl ?_
  change (afterSign (skipSpace (p ++ ',' :: rest))).dropWhile isDigit = _
  rw [hskip, afterSign_comma]
  exact dropWhile_stop (by decide)

/-- A number that is followed by none of its digits is read. -/
theorem readUnsigned_decimal {n : Nat} (hn : n < 4294967296)
    (hrest : ∀ d ∈ rest.head?, isDigit d = false) :
    readUnsigned (decimal n ++ rest) = some (n, rest) := by
  have hall : ∀ d ∈ decimal n, isDigit d = true := fun d hd => Sip.isDigit_decimal hd
  have htake : (decimal n ++ rest).takeWhile isDigit = decimal n := by
    rw [List.takeWhile_append_of_pos hall]
    cases rest with
    | nil => rw [List.takeWhile_nil, List.append_nil]
    | cons d rest =>
        rw [List.takeWhile_cons_of_neg (by rw [hrest d rfl]; decide), List.append_nil]
  have hdrop : (decimal n ++ rest).dropWhile isDigit = rest := by
    rw [List.dropWhile_append_of_pos hall]
    cases rest with
    | nil => rfl
    | cons d rest => exact List.dropWhile_cons_of_neg (by rw [hrest d rfl]; decide)
  -- The first character is a digit, so there is neither a blank nor a sign.
  cases hdec : decimal n with
  | nil => exact absurd hdec (Sip.decimal_ne_nil n)
  | cons d ds =>
      have hd := Sip.head_decimal hdec
      have hskip : skipSpace (decimal n ++ rest) = decimal n ++ rest := by
        rw [hdec]
        exact List.dropWhile_cons_of_neg (by rw [Sip.not_isSpace_of_isDigit hd]; decide)
      have hminus : d ≠ '-' := by
        rintro rfl
        exact absurd hd (by decide)
      have hplus : d ≠ '+' := by
        rintro rfl
        exact absurd hd (by decide)
      have hsign : afterSign (decimal n ++ rest) = decimal n ++ rest := by
        rw [hdec, List.cons_append, afterSign]
        all_goals simp_all
      have hhead : ¬ (decimal n ++ rest).head? = some '-' := by
        rw [hdec]
        exact fun heq => hminus (Option.some.inj heq)
      have hnumber : readNumber .unsigned (decimal n ++ rest) = some (n : Int) := by
        rw [readNumber_unsigned, hskip, hsign, decide_eq_false hhead,
          readDigits_congr (htake.trans (Sip.takeWhile_eq_self hall).symm),
          Sip.readDigits_decimal, Option.bind_some]
        simp only [Sip.NumberType.ofSign, Bool.false_eq_true, if_false, if_pos hn]
        rw [Int.emod_eq_of_lt (by omega) (by omega)]
      rw [← hdec, readUnsigned, hnumber, Option.map_some, Int.toNat_natCast]
      change some (n, (afterSign (skipSpace (decimal n ++ rest))).dropWhile isDigit) = _
      rw [hskip, hsign, hdrop]

end Numbers

section RoundTrip

variable {mask : EventsMask} {i j start : Nat}

/-- A range inside of the mask is written. -/
theorem setCodes_inside {endCode : Nat} (hend : endCode < 256) (mask : EventsMask) (code : Nat) :
    ∃ m, setCodes mask code endCode = some m ∧ ∀ k (hk : k < 256),
      m[k] = (mask[k] || (decide (code ≤ k) && decide (k ≤ endCode))) := by
  fun_induction setCodes mask code endCode with
  | case1 mask code hle hlt ih =>
      rcases ih with ⟨m, hm, hget⟩
      refine ⟨m, hm, fun k hk => ?_⟩
      rw [hget k hk, Vector.getElem_set]
      by_cases hcode : code = k
      · rw [if_pos hcode, decide_eq_true (by omega : code ≤ k),
          decide_eq_true (by omega : k ≤ endCode)]
        simp
      · rw [if_neg hcode]
        congr 2
        exact decide_eq_decide.2 (by omega)
  | case2 mask code hle hlt => exact absurd (Nat.lt_of_le_of_lt hle hend) hlt
  | case3 mask code hle =>
      refine ⟨mask, rfl, fun k hk => ?_⟩
      have hout : ¬ (code ≤ k ∧ k ≤ endCode) := by omega
      rw [← Bool.decide_and, decide_eq_false hout, Bool.or_false]

/-- A range that ends after the last entry is written to after it. -/
theorem setCodes_outside {endCode : Nat} (hend : 255 < endCode) (mask : EventsMask) (code : Nat)
    (hcode : code ≤ 256) : setCodes mask code endCode = none := by
  fun_induction setCodes mask code endCode with
  | case1 mask code hle hlt ih => exact ih hlt
  | case2 => rfl
  | case3 mask code hle => exact absurd (by omega) hle

/-- A run ends inside of the mask, and all codes before its end are in the mask. -/
theorem runEnd_spec (h : runEnd mask i = some j) :
    j < 256 ∧ ∀ k (hk : k < 256), i ≤ k → k < j → mask[k] = true := by
  fun_induction runEnd mask i with
  | case1 i hlt hmem ih =>
      refine ⟨(ih h).1, fun k hk hik hkj => ?_⟩
      rcases Nat.eq_or_lt_of_le hik with rfl | hik
      · exact hmem
      · exact (ih h).2 k hk hik hkj
  | case2 i hlt hmem =>
      cases h
      exact ⟨hlt, fun k _ hik hki => absurd hki (by omega)⟩
  | case3 => exact (nomatch h)

theorem parseFrom_outside {t : Text} (h : parseItem mask t = none) : parseFrom mask t = none := by
  unfold parseFrom
  split
  · rfl
  · rename_i heq
    exact (nomatch h.symm.trans heq)
  · rename_i heq
    exact (nomatch h.symm.trans heq)

theorem parseFrom_last {t : Text} {m : EventsMask} (h : parseItem mask t = some (m, none)) :
    parseFrom mask t = some m := by
  unfold parseFrom
  split
  · rename_i heq
    exact (nomatch h.symm.trans heq)
  · rename_i heq
    cases h.symm.trans heq
    rfl
  · rename_i heq
    exact (nomatch h.symm.trans heq)

theorem parseFrom_more {t more : Text} {m : EventsMask}
    (h : parseItem mask t = some (m, some more)) : parseFrom mask t = parseFrom m more := by
  conv_lhs => unfold parseFrom
  split
  · rename_i heq
    exact (nomatch h.symm.trans heq)
  · rename_i heq
    exact (nomatch h.symm.trans heq)
  · rename_i heq
    cases h.symm.trans heq
    rfl

/-- The text after one code or range: its end, or a comma. -/
inductive Follows : Text → Option Text → Prop
  | nil : Follows [] none
  | comma (t : Text) : Follows (',' :: t) (some t)

theorem Follows.skip {t : Text} {more : Option Text} (h : Follows t more) :
    skipSpace t = t ∧ afterComma t = more ∧ ∀ d ∈ t.head?, isDigit d = false := by
  cases h with
  | nil => exact ⟨rfl, rfl, by simp⟩
  | comma t => exact ⟨List.dropWhile_cons_of_neg (by decide), rfl, by simp; decide⟩

/-- A run that was printed is parsed. -/
theorem parseItem_run {t : Text} {more : Option Text} (ht : Follows t more) (hlt : start < j)
    (hj : j < 256) (acc : EventsMask) :
    ∃ m, (∀ k (hk : k < 256), m[k] = (acc[k] || (decide (start ≤ k) && decide (k < j)))) ∧
      parseItem acc (runText start j ++ t) = some (m, more) := by
  rcases ht.skip with ⟨hskip, hcomma, hdigit⟩
  have hcode : ¬ 255 < start := by omega
  unfold runText
  by_cases hone : start + 1 < j
  · rw [if_pos hone]
    rcases setCodes_inside (by omega : j - 1 < 256) acc start with ⟨m, hset, hget⟩
    refine ⟨m, fun k hk => ?_, ?_⟩
    · rw [hget k hk]
      congr 2
      exact decide_eq_decide.2 (by omega)
    · have hread : readUnsigned (decimal start ++ '-' :: (decimal (j - 1) ++ t)) =
          some (start, '-' :: (decimal (j - 1) ++ t)) :=
        readUnsigned_decimal (by omega) (by simp; decide)
      have hminus : skipSpace ('-' :: (decimal (j - 1) ++ t)) = '-' :: (decimal (j - 1) ++ t) :=
        List.dropWhile_cons_of_neg (by decide)
      have hend : readUnsigned (decimal (j - 1) ++ t) = some (j - 1, t) :=
        readUnsigned_decimal (by omega) hdigit
      rw [List.append_assoc, List.cons_append]
      simp only [parseItem, hread, dif_neg hcode, hminus, hend, hset, Option.map_some, hskip,
        hcomma]
  · rw [if_neg hone, List.append_nil]
    refine ⟨acc.set start true, fun k hk => ?_, ?_⟩
    · rw [Vector.getElem_set]
      by_cases hk' : start = k
      · rw [if_pos hk', decide_eq_true (by omega : start ≤ k), decide_eq_true (by omega : k < j)]
        simp
      · have hout : ¬ (start ≤ k ∧ k < j) := by omega
        rw [if_neg hk', ← Bool.decide_and, decide_eq_false hout, Bool.or_false]
    · have hread : readUnsigned (decimal start ++ t) = some (start, t) :=
        readUnsigned_decimal (by omega) hdigit
      cases ht with
      | nil => simp only [parseItem, hread, dif_neg hcode, hskip]
      | comma t => simp only [parseItem, hread, dif_neg hcode, hskip]

/-- What the parser has to make of a text that was printed from code `i` on. -/
def Parses (mask : EventsMask) (i : Nat) (t : Text) : Prop := ∀ acc, ∃ m : EventsMask,
  parseFrom acc t = some m ∧
    ∀ k (hk : k < 256), m[k] = (acc[k] || (mask[k] && (decide (i ≤ k) && decide (k < 255))))

/-- No code is left to print. -/
def NoneLeft (mask : EventsMask) (i : Nat) : Prop :=
  ∀ k (hk : k < 256), i ≤ k → k < 255 → mask[k] = false

/-- A run, and what was printed after it. -/
theorem parses_run {t : Text} (hmem : ∀ k (hk : k < 256), i ≤ k → k < j → mask[k] = true)
    (hlt : i < j) (hj : j < 256)
    (ht : t = [] ∧ NoneLeft mask j ∨ ∃ t', t = ',' :: t' ∧ Parses mask j t') :
    Parses mask i (runText i j ++ t) := by
  intro acc
  rcases ht with ⟨rfl, hnone⟩ | ⟨t', rfl, hparses⟩
  · rcases parseItem_run .nil hlt hj acc with ⟨m, hget, hitem⟩
    refine ⟨m, parseFrom_last hitem, fun k hk => ?_⟩
    rw [hget k hk]
    congr 1
    have hrun := hmem k hk
    have hrest := hnone k hk
    grind
  · rcases parseItem_run (.comma t') hlt hj acc with ⟨m, hget, hitem⟩
    rcases hparses m with ⟨m', hm', hget'⟩
    refine ⟨m', (parseFrom_more hitem).trans hm', fun k hk => ?_⟩
    rw [hget' k hk, hget k hk, Bool.or_assoc]
    congr 1
    have hrun := hmem k hk
    grind

/-- What the printer writes from some code on. -/
theorem printFrom_parses {needComma : Bool} {t : Text}
    (h : printFrom mask i needComma = some t) :
    t = [] ∧ NoneLeft mask i ∨ ∃ t', t = comma needComma ++ t' ∧ Parses mask i t' := by
  fun_induction printFrom mask i needComma generalizing t with
  | case1 i needComma hlt hmem hrun => exact (nomatch h)
  | case2 i needComma hlt hmem j hrun ih =>
      rcases Option.map_eq_some_iff.1 h with ⟨rest, hrest, rfl⟩
      rcases runEnd_spec hrun with ⟨hj, hall⟩
      have hij := le_runEnd hrun
      refine Or.inr ⟨runText i j ++ rest, List.append_assoc _ _ _, ?_⟩
      refine parses_run (fun k hk hik hkj => ?_) hij hj ?_
      · rcases Nat.eq_or_lt_of_le hik with rfl | hik
        · exact hmem
        · exact hall k hk hik hkj
      · rcases ih hrest with hnil | ⟨t', ht', hparses⟩
        · exact Or.inl hnil
        · exact Or.inr ⟨t', ht', hparses⟩
  | case3 i needComma hlt hmem ih =>
      -- A code that is not in the mask leaves nothing behind.
      rcases ih h with ⟨rfl, hnone⟩ | ⟨t', rfl, hparses⟩
      · refine Or.inl ⟨rfl, fun k hk hik hlast => ?_⟩
        rcases Nat.eq_or_lt_of_le hik with rfl | hik
        · exact Bool.eq_false_iff.2 hmem
        · exact hnone k hk hik hlast
      · refine Or.inr ⟨t', rfl, fun acc => ?_⟩
        rcases hparses acc with ⟨m, hm, hget⟩
        refine ⟨m, hm, fun k hk => ?_⟩
        rw [hget k hk]
        congr 1
        grind
  | case4 i needComma hlt =>
      cases h
      exact Or.inl ⟨rfl, fun k _ hik hk => absurd (Nat.lt_of_le_of_lt hik hk) hlt⟩

/-- A set without code 255 is printed. -/
theorem printFrom_isSome (h : mask[255] = false) (i : Nat) (needComma : Bool) :
    ∃ t, printFrom mask i needComma = some t := by
  have hrun : ∀ i, i ≤ 255 → runEnd mask i ≠ none := by
    intro i hi
    fun_induction runEnd mask i with
    | case1 i hlt hmem ih =>
        rcases Nat.eq_or_lt_of_le hi with rfl | hi
        · exact absurd (h.symm.trans hmem) (by decide)
        · exact ih hi
    | case2 => exact Option.some_ne_none _
    | case3 i hlt => exact absurd (Nat.lt_succ_of_le hi) hlt
  fun_induction printFrom mask i needComma with
  | case1 i needComma hlt hmem hnone => exact absurd hnone (hrun _ hlt)
  | case2 i needComma hlt hmem j _ ih =>
      rcases ih with ⟨t, ht⟩
      exact ⟨_, by rw [ht, Option.map_some]⟩
  | case3 i needComma hlt hmem ih => exact ih
  | case4 => exact ⟨_, rfl⟩

/-- Printing a set and parsing the text gives the set. -/
def RoundTrips (mask : EventsMask) : Prop := (printMask mask).bind parseMask = some mask

theorem getElem_empty {k : Nat} (hk : k < 256) :
    (Vector.replicate 256 false : EventsMask)[k] = false := Vector.getElem_replicate hk

/-- The parser of a text that was printed returns the codes below 255. -/
theorem parseMask_printMask {t : Text} (h : printMask mask = some t) : ∃ m : EventsMask,
    parseMask t = some m ∧ ∀ k (hk : k < 256), m[k] = (mask[k] && decide (k < 255)) := by
  rcases printFrom_parses h with ⟨rfl, hnone⟩ | ⟨t', rfl, hparses⟩
  · refine ⟨Vector.replicate 256 false, parseFrom_last rfl, fun k hk => ?_⟩
    rw [getElem_empty hk]
    have hk' := hnone k hk (Nat.zero_le k)
    grind
  · rcases hparses (Vector.replicate 256 false) with ⟨m, hm, hget⟩
    refine ⟨m, hm, fun k hk => ?_⟩
    rw [hget k hk, getElem_empty hk, Bool.false_or, decide_eq_true (Nat.zero_le k), Bool.true_and]

theorem roundTrips_of_no_last (h : mask[255] = false) : RoundTrips mask := by
  rcases printFrom_isSome h 0 false with ⟨t, ht⟩
  rcases parseMask_printMask ht with ⟨m, hm, hget⟩
  have heq : m = mask := by
    ext k hk
    rw [hget k hk]
    grind
  rw [RoundTrips, printMask, ht, Option.bind_some, hm, heq]

theorem not_roundTrips_of_last (h : mask[255] = true) : ¬ RoundTrips mask := by
  intro hround
  rcases Option.bind_eq_some_iff.1 hround with ⟨t, ht, hparse⟩
  rcases parseMask_printMask ht with ⟨m, hm, hget⟩
  cases hm.symm.trans hparse
  exact absurd ((hget 255 (by decide)).symm.trans h) (by rw [h]; decide)

/-- The sets that come back from their text are those without code 255. -/
theorem mask_round_trip (mask : EventsMask) : RoundTrips mask ↔ mask[255] = false :=
  ⟨fun hround => Bool.eq_false_iff.2 fun hlast => not_roundTrips_of_last hlast hround,
    roundTrips_of_no_last⟩

/-- The set of code 255 alone does not come back. -/
theorem last_code_lost :
    ¬ RoundTrips ((Vector.replicate 256 false : EventsMask).set 255 true) :=
  not_roundTrips_of_last (Vector.getElem_set_self _)

end RoundTrip

section Safety

/-- The text goes on with a code and a hyphen: where the range ends. -/
def rangeEnd (p : Text) : Option Nat :=
  match readUnsigned p with
  | none => none
  | some (code, rest) =>
    if 255 < code then none
    else
      match skipSpace rest with
      | '-' :: more => (readUnsigned more).map (·.1)
      | _ => none

/-- The text is a code, or a range of codes. -/
def isItem (p : Text) : Bool :=
  match readUnsigned p with
  | none => false
  | some (code, rest) =>
    if 255 < code then false
    else
      match skipSpace rest with
      | [] => true
      | '-' :: more =>
        match readUnsigned more with
        | none => false
        | some (_, rest') => skipSpace rest' = []
      | _ => false

/-- No range ends above 255, up to the first of the texts that is no code or range. -/
def RangesBelow : List Text → Prop
  | [] => True
  | p :: ps => (∀ endCode ∈ rangeEnd p, endCode ≤ 255) ∧ (isItem p = true → RangesBelow ps)

/-- No range ends above 255, up to the first of the texts between commas that is no code or
range. -/
def RangesInside (t : Text) : Prop := RangesBelow (t.splitOn ',')

/-- The parser returns, with no access outside of the mask. -/
def StaysInside (t : Text) : Prop := (parseMask t).isSome

variable {p t : Text}

/-- What follows the comma after a text. -/
theorem afterComma_comma (hp : ',' ∉ p) :
    afterComma p = none ∧ afterComma (p ++ ',' :: t) = if p = [] then some t else none := by
  cases p with
  | nil => exact ⟨rfl, rfl⟩
  | cons d p =>
      have hd : d ≠ ',' := fun heq => hp (by rw [heq]; exact List.mem_cons_self)
      rw [if_neg (List.cons_ne_nil d p), List.cons_append]
      constructor
      · unfold afterComma
        split
        · rename_i heq
          exact absurd (List.cons.inj heq).1 hd
        · rfl
      · unfold afterComma
        split
        · rename_i heq
          exact absurd (List.cons.inj heq).1 hd
        · rfl

/-- What the parser does with a text that a comma ends or nothing does. -/
theorem parseItem_comma (mask : EventsMask) (hp : ',' ∉ p) (t : Text) :
    (∀ endCode ∈ rangeEnd p, endCode ≤ 255) ∧
        (∃ m, parseItem mask p = some (m, none) ∧
          parseItem mask (p ++ ',' :: t) = some (m, if isItem p = true then some t else none)) ∨
      (∃ endCode ∈ rangeEnd p, 255 < endCode) ∧
        parseItem mask p = none ∧ parseItem mask (p ++ ',' :: t) = none := by
  have hspace : ∀ q : Text, skipSpace (q ++ ',' :: t) = skipSpace q ++ ',' :: t :=
    fun q => dropWhile_stop (by decide)
  unfold parseItem rangeEnd isItem
  rw [readUnsigned_comma]
  cases hcode : readUnsigned p with
  | none => exact Or.inl ⟨by simp, mask, rfl, rfl⟩
  | some r =>
      rcases r with ⟨code, rest⟩
      simp only [Option.map_some, hspace]
      by_cases hbig : 255 < code
      · simp only [dif_pos hbig, if_pos hbig]
        exact Or.inl ⟨by simp, mask, rfl, rfl⟩
      · simp only [dif_neg hbig, if_neg hbig]
        have hrest : ',' ∉ skipSpace rest := fun hmem =>
          hp (((skipSpace_suffix rest).trans (readUnsigned_suffix hcode)).subset hmem)
        cases hnext : skipSpace rest with
        | nil => exact Or.inl ⟨by simp, _, rfl, rfl⟩
        | cons d more =>
            rw [hnext] at hrest
            by_cases hminus : d = '-'
            · subst hminus
              simp only [List.cons_append, readUnsigned_comma]
              cases hend : readUnsigned more with
              | none => exact Or.inl ⟨by simp, mask, rfl, rfl⟩
              | some r' =>
                  rcases r' with ⟨endCode, rest'⟩
                  have hrest' : ',' ∉ skipSpace rest' := fun hmem =>
                    hrest (List.mem_cons_of_mem _
                      (((skipSpace_suffix rest').trans (readUnsigned_suffix hend)).subset hmem))
                  rcases afterComma_comma (t := t) hrest' with ⟨hlast, hmore⟩
                  simp only [Option.map_some, hspace, hlast, hmore]
                  by_cases hle : endCode ≤ 255
                  · rcases setCodes_inside (Nat.lt_succ_of_le hle) mask code with ⟨m, hm, -⟩
                    refine Or.inl ⟨by simpa using hle, m, by rw [hm]; rfl, ?_⟩
                    rw [hm, Option.map_some]
                    simp only [decide_eq_true_eq]
                  · have hm := setCodes_outside (by omega : 255 < endCode) mask code (by omega)
                    exact Or.inr ⟨⟨endCode, rfl, by omega⟩, by rw [hm]; rfl, by rw [hm]; rfl⟩
            · have hcomma : d ≠ ',' := fun heq => hrest (by rw [heq]; exact List.mem_cons_self)
              refine Or.inl ⟨?_, mask.set code true, ?_, ?_⟩
              · simp [hminus]
              · simp [hminus, hcomma]
              · simp [hminus, hcomma]

/-- What the loop does is told by the texts between the commas. -/
theorem parseFrom_inside (mask : EventsMask) (t : Text) :
    (parseFrom mask t).isSome ↔ RangesBelow (t.splitOn ',') := by
  -- The induction is on the length: what follows the first comma is shorter.
  generalize hlen : t.length = n
  induction n using Nat.strong_induction_on generalizing mask t with
  | _ n ih =>
      by_cases hcomma : ',' ∈ t
      · rcases List.eq_append_cons_of_mem hcomma with ⟨p, rest, rfl, hp⟩
        have hshort : rest.length < n := by
          rw [← hlen, List.length_append, List.length_cons]
          omega
        rw [List.splitOn_append_cons_self_of_not_mem hp, RangesBelow]
        rcases parseItem_comma mask hp rest with ⟨hbelow, m, -, hitem⟩ | ⟨⟨e, he, hbig⟩, -, hitem⟩
        · by_cases hgoes : isItem p = true
          · rw [if_pos hgoes] at hitem
            rw [parseFrom_more hitem, ih _ hshort m rest rfl]
            exact ⟨fun h => ⟨hbelow, fun _ => h⟩, fun h => h.2 hgoes⟩
          · rw [if_neg hgoes] at hitem
            rw [parseFrom_last hitem]
            exact iff_of_true rfl ⟨hbelow, fun h => absurd h hgoes⟩
        · rw [parseFrom_outside hitem]
          exact iff_of_false Bool.false_ne_true fun h => absurd (h.1 e he) (Nat.not_le_of_lt hbig)
      · rw [List.splitOn_eq_singleton hcomma, RangesBelow]
        rcases parseItem_comma mask hcomma [] with ⟨hbelow, m, hitem, -⟩ | ⟨⟨e, he, hbig⟩, hitem, -⟩
        · rw [parseFrom_last hitem]
          exact iff_of_true rfl ⟨hbelow, fun _ => trivial⟩
        · rw [parseFrom_outside hitem]
          exact iff_of_false Bool.false_ne_true fun h => absurd (h.1 e he) (Nat.not_le_of_lt hbig)

/-- The texts that the parser stays inside of the mask for. -/
theorem mask_parser_inside (t : Text) : StaysInside t ↔ RangesInside t :=
  parseFrom_inside _ t

/-- The range `0-256` is written to one entry after the mask. -/
theorem range_end_unchecked : ¬ StaysInside ['0', '-', '2', '5', '6'] := by
  intro h
  have hbelow := (parseFrom_inside (Vector.replicate 256 false) ['0', '-', '2', '5', '6']).1 h
  rw [List.splitOn_eq_singleton (by decide)] at hbelow
  have hend : rangeEnd ['0', '-', '2', '5', '6'] = some 256 := by decide +kernel
  exact absurd (hbelow.1 256 hend) (by decide)

end Safety

end Codec

end CryptoOpal

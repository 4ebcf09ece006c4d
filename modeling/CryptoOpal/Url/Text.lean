import CryptoOpal.Lib.Octets
import Mathlib.Data.List.Basic

/-!
# Texts and Their Escapes

The functions of a string class that a parser of URLs calls, and the two that put escapes into a
text and take them out of it.

A search gives the largest index there is when it finds nothing, and the parser computes with that
index. A substring is given here by its first place and the place behind its last, so that one
that ends in front of the first octet of a text is empty.

The loops of the escapes run over the text that they change. Taking an escape out makes what is
left of the text shorter. Putting one in makes the text longer, but what is put in needs no escape
itself, so the octets behind it that need one get fewer.

## Main definitions

* `find`, `findOneOf`, `findSpan`: Searches.
* `between`: A substring.
* `untranslateString`: A text without its escapes.
* `translateString`: A text with escapes.
* `translateEscapes`: The text of a literal.

## Theorems

* `find_spec`, `findSpan_spec`: What a search gives.
* `unsafe_left`: Fewer octets need an escape.
* `translateEscapes_isSome`, `translateEscapes_none`: When the reading of a literal ends.
-/

namespace CryptoOpal

namespace Url

open Lib (Octets)

/-- `P_MAX_INDEX`. -/
def pMaxIndex : Nat := 2147483647

/-- The octet of a character. -/
def ascii (c : Char) : UInt8 := UInt8.ofNat c.toNat

/-- The octets of a constant. -/
def text (s : List Char) : Octets := s.map ascii

/-- The octet at a place, or the NUL behind the text. -/
def charAt (s : Octets) (i : Nat) : UInt8 := s.getD i 0

/-- `isdigit`. -/
def isDigit (c : UInt8) : Bool := decide (48 ≤ c ∧ c ≤ 57)

/-- `isspace`. -/
def isSpace (c : UInt8) : Bool := decide (c = 32 ∨ 9 ≤ c ∧ c ≤ 13)

/-- `isxdigit`. -/
def isXDigit (c : UInt8) : Bool :=
  isDigit c || decide (65 ≤ c ∧ c ≤ 70) || decide (97 ≤ c ∧ c ≤ 102)

/-- `tolower`. -/
def toLower (c : UInt8) : UInt8 := if 65 ≤ c ∧ c ≤ 90 then c + 32 else c

/-- The comparison of a `PCaselessString`. -/
def sameCaseless (s t : Octets) : Bool := decide (s.map toLower = t.map toLower)

/-- The first place from `offset` on with such an octet. -/
def findFrom (p : UInt8 → Bool) (s : Octets) (offset : Nat) : Nat :=
  match (s.drop offset).findIdx? p with
  | some k => offset + k
  | none => pMaxIndex

/-- `Find`. -/
def find (s : Octets) (c : UInt8) (offset : Nat) : Nat := findFrom (fun x => decide (x = c)) s offset

/-- `FindOneOf`. -/
def findOneOf (s set : Octets) (offset : Nat) : Nat :=
  if set = [] then pMaxIndex else findFrom (fun x => decide (x ∈ set)) s offset

/-- `FindSpan`: the first octet that is not one of the set. -/
def findSpan (s set : Octets) (offset : Nat) : Nat :=
  if set = [] then pMaxIndex else findFrom (fun x => decide (x ∉ set)) s offset

/-- `operator()`, with the place behind the last octet. -/
def between (s : Octets) (start stop : Nat) : Octets := (s.drop start).take (stop - start)

/-- `Delete`. -/
def delete (s : Octets) (start len : Nat) : Octets := s.take start ++ s.drop (start + len)

/-- What a search gives: a place of the text, or the largest index. -/
theorem findFrom_spec (p : UInt8 → Bool) (s : Octets) (offset : Nat) :
    findFrom p s offset = pMaxIndex ∨
      offset ≤ findFrom p s offset ∧ ∃ h : findFrom p s offset < s.length,
        p (s[findFrom p s offset]) = true := by
  cases hk : (s.drop offset).findIdx? p with
  | none =>
      rw [findFrom, hk]
      exact .inl rfl
  | some k =>
      have hfind : findFrom p s offset = offset + k := by rw [findFrom, hk]
      obtain ⟨hlt, hp, -⟩ := List.findIdx?_eq_some_iff_getElem.1 hk
      rw [List.length_drop] at hlt
      rw [List.getElem_drop] at hp
      refine .inr ⟨by omega, by omega, ?_⟩
      simp only [hfind, hp]

theorem find_spec (s : Octets) (c : UInt8) (offset : Nat) :
    find s c offset = pMaxIndex ∨ offset ≤ find s c offset ∧ find s c offset < s.length := by
  rcases findFrom_spec (fun x => decide (x = c)) s offset with h | ⟨hle, hlt, -⟩
  · exact .inl h
  · exact .inr ⟨hle, hlt⟩

/-- The kinds of text that are escaped differently. -/
inductive TranslationType where
  | login
  | path
  | query
  | parameter
  | quotedParameter
  deriving DecidableEq

/-- The value of a hexadecimal digit. -/
def hexValue (c : UInt8) : UInt8 :=
  if isDigit c then c - 48 else (if 97 ≤ c then c - 32 else c) - 65 + 10

/-- The first loop of `UntranslateString`: a plus is a blank. -/
def plusLoop (xlat : Octets) (pos : Nat) : Octets :=
  if find xlat 43 pos = pMaxIndex then xlat
  else plusLoop (xlat.set (find xlat 43 pos) 32) (find xlat 43 pos + 1)
termination_by xlat.length - pos
decreasing_by
  rw [List.length_set]
  have hspec := find_spec xlat 43 pos
  omega

/-- The loop of `UntranslateString` for the escapes. -/
def percentLoop (xlat : Octets) (pos : Nat) : Octets :=
  if find xlat 37 pos = pMaxIndex then xlat
  else if isXDigit (charAt xlat (find xlat 37 pos + 1)) &&
      isXDigit (charAt xlat (find xlat 37 pos + 2)) then
    percentLoop (delete (xlat.set (find xlat 37 pos)
      (hexValue (charAt xlat (find xlat 37 pos + 2)) +
        (hexValue (charAt xlat (find xlat 37 pos + 1)) <<< 4))) (find xlat 37 pos + 1) 2)
      (find xlat 37 pos + 1)
  else percentLoop xlat (find xlat 37 pos + 1)
termination_by xlat.length - pos
decreasing_by
  · have hspec := find_spec xlat 37 pos
    simp only [delete, List.length_append, List.length_take, List.length_drop, List.length_set]
    omega
  · have hspec := find_spec xlat 37 pos
    omega

/-- `UntranslateString`. -/
def untranslateString (str : Octets) (type : TranslationType) : Octets :=
  percentLoop (if type = .query then plusLoop str 0 else str) 0

/-- The octets that are never escaped: letters, digits and the marks, of which 39 is the
apostrophe. -/
def unreserved : Octets :=
  (List.range' 97 26 ++ List.range' 65 26 ++ List.range' 48 10).map UInt8.ofNat ++
    39 :: text ['-', '_', '.', '!', '~', '*', '(', ')']

/-- The octets that are not escaped in this kind of text. -/
def safeChars : TranslationType → Octets
  | .login => unreserved ++ text [';', '&', '=', '+', '$', ',']
  | .path => unreserved ++ text [':', '@', '&', '=', '+', '$', ',', '|']
  | .query => unreserved
  | .parameter => unreserved ++ text [':', '&', '+', '$']
  | .quotedParameter => unreserved ++ text ['[', ']', '/', ':', '@', '&', '=', '+', '$', ',', '|']

/-- The upper case digit of `%02X`. -/
def hexDigit (n : Nat) : UInt8 := UInt8.ofNat (if n < 10 then 48 + n else 55 + n)

/-- The escape of an octet. -/
def escapeOf (c : UInt8) : Octets := [37, hexDigit (c.toNat / 16), hexDigit (c.toNat % 16)]

/-- So many octets from this place on need an escape. -/
def unsafeFrom (type : TranslationType) (xlat : Octets) (pos : Nat) : Nat :=
  (xlat.drop pos).countP fun c => decide (c ∉ safeChars type)

theorem hexDigit_mem_unreserved {n : Nat} (h : n < 16) : hexDigit n ∈ unreserved := by
  have hall : ∀ i : Fin 16, hexDigit i.val ∈ unreserved := by decide
  exact hall ⟨n, h⟩

theorem unreserved_subset (type : TranslationType) : unreserved ⊆ safeChars type := by
  cases type with
  | query => exact fun _ h => h
  | login => exact List.subset_append_left _ _
  | path => exact List.subset_append_left _ _
  | parameter => exact List.subset_append_left _ _
  | quotedParameter => exact List.subset_append_left _ _

theorem hexDigit_safe (type : TranslationType) {n : Nat} (h : n < 16) :
    hexDigit n ∈ safeChars type :=
  unreserved_subset type (hexDigit_mem_unreserved h)

theorem findSpan_spec (s set : Octets) (offset : Nat) (h : findSpan s set offset ≠ pMaxIndex) :
    offset ≤ findSpan s set offset ∧ ∃ hlt : findSpan s set offset < s.length,
      s[findSpan s set offset] ∉ set := by
  rw [findSpan] at h
  split at h
  · exact absurd rfl h
  next hset =>
    have hfind : findSpan s set offset = findFrom (fun x => decide (x ∉ set)) s offset :=
      if_neg hset
    rcases findFrom_spec (fun x => decide (x ∉ set)) s offset with hnone | ⟨hle, hlt, hmem⟩
    · exact absurd hnone h
    · refine ⟨hfind ▸ hle, hfind ▸ hlt, ?_⟩
      simp only [hfind]
      exact of_decide_eq_true hmem

/-- The text with an escape for the octet at this place. -/
def spliceEscape (xlat : Octets) (pos : Nat) : Octets :=
  xlat.take pos ++ escapeOf (charAt xlat pos) ++ xlat.drop (pos + 1)

/-- Fewer octets behind an escape need one. -/
theorem unsafe_left {type : TranslationType} {xlat : Octets} {from' pos : Nat}
    (hle : from' ≤ pos) (hlt : pos < xlat.length) (hmem : xlat[pos] ∉ safeChars type) :
    unsafeFrom type (spliceEscape xlat pos) (pos + 1) < unsafeFrom type xlat from' := by
  have hdigits : ∀ c ∈ [hexDigit ((charAt xlat pos).toNat / 16),
      hexDigit ((charAt xlat pos).toNat % 16)], ¬ decide (c ∉ safeChars type) = true := by
    have hoctet := (charAt xlat pos).toNat_lt
    intro c hc
    rw [decide_eq_true_iff, Classical.not_not]
    rcases List.mem_cons.mp hc with rfl | hc
    · exact hexDigit_safe type (by omega)
    · rw [List.mem_singleton.mp hc]
      exact hexDigit_safe type (by omega)
  have hbehind : (spliceEscape xlat pos).drop (pos + 1) =
      [hexDigit ((charAt xlat pos).toNat / 16), hexDigit ((charAt xlat pos).toNat % 16)] ++
        xlat.drop (pos + 1) := by
    have htake : (xlat.take pos).length = pos := List.length_take_of_le (Nat.le_of_lt hlt)
    rw [spliceEscape, List.append_assoc, ← List.drop_drop, List.drop_left' htake]
    rfl
  have hhere : (xlat.drop pos).countP (fun c => decide (c ∉ safeChars type)) =
      (xlat.drop (pos + 1)).countP (fun c => decide (c ∉ safeChars type)) + 1 := by
    rw [List.drop_eq_getElem_cons hlt]
    exact List.countP_cons_of_pos (decide_eq_true hmem)
  have hmono : (xlat.drop pos).countP (fun c => decide (c ∉ safeChars type)) ≤
      (xlat.drop from').countP (fun c => decide (c ∉ safeChars type)) :=
    (List.drop_sublist_drop_left xlat hle).countP_le
  rw [unsafeFrom, unsafeFrom, hbehind, List.countP_append, List.countP_eq_zero.2 hdigits]
  omega

/-- The loop of `TranslateString`. -/
def escapeLoop (type : TranslationType) (xlat : Octets) (pos : Nat) : Octets :=
  if _hfound : findSpan xlat (safeChars type) pos = pMaxIndex then xlat
  else escapeLoop type (spliceEscape xlat (findSpan xlat (safeChars type) pos))
    (findSpan xlat (safeChars type) pos + 1)
termination_by unsafeFrom type xlat pos
decreasing_by
  obtain ⟨hle, hlt, hmem⟩ := findSpan_spec xlat (safeChars type) pos _hfound
  exact unsafe_left hle hlt hmem

/-- The escapes of a literal, and what they stand for. -/
def escapeCodes : List (UInt8 × UInt8) :=
  [(97, 7), (98, 8), (102, 12), (110, 10), (114, 13), (116, 9), (118, 11)]

/-- An octet of a literal. -/
def literalOctet (c : UInt8) : Octets :=
  if c = 34 then [92, 34]
  else if c = 92 then [92, 92]
  else if 32 ≤ c ∧ c ≤ 126 then [c]
  else
    match escapeCodes.find? fun code => code.2 = c with
    | some code => [92, code.1]
    | none => [92, 48 + c / 64, 48 + c / 8 % 8, 48 + c % 8]

/-- `ToLiteral`. -/
def toLiteral (str : Octets) : Octets := 34 :: str.flatMap literalOctet ++ [34]

/-- `TranslateString`. -/
def translateString (str : Octets) (type : TranslationType) : Octets :=
  if type = .quotedParameter then
    if findSpan str (safeChars type) 0 = pMaxIndex then str else toLiteral str
  else escapeLoop type str 0

/-- A text in memory: behind it is a NUL, and behind that whatever is in the memory. -/
def inMemory (str : Octets) (memory : Nat → UInt8) (i : Nat) : UInt8 :=
  if i < str.length then charAt str i else if i = str.length then 0 else memory i

/-- `TranslateHex`. -/
def translateHex (c : UInt8) : UInt8 :=
  if 97 ≤ c then c - 97 + 10 else if 65 ≤ c then c - 65 + 10 else c - 48

/-- An octal digit. -/
def isOctal (c : UInt8) : Bool := decide (48 ≤ c ∧ c ≤ 55)

/-- What the code behind a backslash stands for. -/
def escapeValue (c : UInt8) : UInt8 :=
  match escapeCodes.find? fun code => code.1 = c with
  | some code => code.2
  | none => c

/-- What stands at `i`, behind a backslash, and the place behind it. -/
def translateEscape (char : Nat → UInt8) (i : Nat) : UInt8 × Nat :=
  if escapeValue (char i) = 120 ∧ isXDigit (char (i + 1)) then
    if isXDigit (char (i + 2)) then
      ((translateHex (char (i + 1)) <<< 4) + translateHex (char (i + 2)), i + 3)
    else (translateHex (char (i + 1)), i + 2)
  else if isOctal (escapeValue (char i)) then
    if isOctal (char (i + 1)) then
      if isOctal (char (i + 2)) ∧ escapeValue (char i) ≤ 51 then
        ((((char i - 48) <<< 3) + (char (i + 1) - 48)) <<< 3 + (char (i + 2) - 48), i + 3)
      else (((char i - 48) <<< 3) + (char (i + 1) - 48), i + 2)
    else (char i - 48, i + 1)
  else (escapeValue (char i), i + 1)

theorem translateEscape_lt (char : Nat → UInt8) (i : Nat) : i < (translateEscape char i).2 := by
  rw [translateEscape]
  split
  · split <;> exact Nat.lt_add_of_pos_right (Nat.succ_pos _)
  · split
    · split
      · split <;> exact Nat.lt_add_of_pos_right (Nat.succ_pos _)
      · exact Nat.lt_succ_self _
    · exact Nat.lt_succ_self _

/-- The loop of `TranslateEscapes`; there is no result when the fuel does not last. -/
def escapesLoop (char : Nat → UInt8) (hadLeadingQuote : Bool) : Nat → Nat → Option Octets
  | 0, _ => none
  | fuel + 1, i =>
    if char i = 0 then some []
    else if char i = 34 ∧ hadLeadingQuote then some []
    else if char i = 92 then
      (escapesLoop char hadLeadingQuote fuel (translateEscape char (i + 1)).2).map
        ((translateEscape char (i + 1)).1 :: ·)
    else (escapesLoop char hadLeadingQuote fuel (i + 1)).map (char i :: ·)

/-- `PString(PString::Literal, ...)`. -/
def translateEscapes (memory : Nat → UInt8) (fuel : Nat) (str : Octets) : Option Octets :=
  escapesLoop (inMemory str memory) (decide (charAt str 0 = 34)) fuel
    (if charAt str 0 = 34 then 1 else 0)

section Literals

variable {str : Octets} {lead : Bool}

/-- From this place on, a backslash with nothing behind it is reached. -/
def OpenFrom (str : Octets) (lead : Bool) (i : Nat) : Prop :=
  if _hin : i < str.length then
    if charAt str i = 0 ∨ charAt str i = 34 ∧ lead = true then False
    else if charAt str i = 92 then
      if i + 1 = str.length then True
      else OpenFrom str lead (translateEscape (inMemory str fun _ => 0) (i + 1)).2
    else OpenFrom str lead (i + 1)
  else False
termination_by str.length - i
decreasing_by
  · have hlt := translateEscape_lt (inMemory str fun _ => 0) (i + 1)
    omega
  · omega

/-- The literal ends within an escape. -/
def EndsInEscape (str : Octets) : Prop :=
  OpenFrom str (decide (charAt str 0 = 34)) (if charAt str 0 = 34 then 1 else 0)

theorem inMemory_lt (memory : Nat → UInt8) {i : Nat} (h : i < str.length) :
    inMemory str memory i = charAt str i := if_pos h

theorem inMemory_end (memory : Nat → UInt8) : inMemory str memory str.length = 0 := by
  rw [inMemory, if_neg (Nat.lt_irrefl _), if_pos rfl]

/-- Up to the NUL the memory makes no difference. -/
theorem inMemory_le (memory memory' : Nat → UInt8) {i : Nat} (h : i ≤ str.length) :
    inMemory str memory i = inMemory str memory' i := by
  rcases Nat.lt_or_eq_of_le h with hlt | rfl
  · rw [inMemory_lt _ hlt, inMemory_lt _ hlt]
  · rw [inMemory_end, inMemory_end]

theorem lt_of_digit {memory : Nat → UInt8} {i : Nat} (hle : i ≤ str.length)
    (h : isXDigit (inMemory str memory i) = true ∨ isOctal (inMemory str memory i) = true) :
    i < str.length := by
  refine Nat.lt_of_le_of_ne hle fun heq => ?_
  rw [heq, inMemory_end] at h
  exact absurd h (by decide)

/-- An escape that begins in the text ends in it, and what it stands for is in the text. -/
theorem translateEscape_eq (memory memory' : Nat → UInt8) {i : Nat} (h : i < str.length) :
    translateEscape (inMemory str memory) i = translateEscape (inMemory str memory') i ∧
      (translateEscape (inMemory str memory) i).2 ≤ str.length := by
  have hhere := inMemory_le memory memory' (Nat.le_of_lt h)
  have hnext := inMemory_le memory memory' (show i + 1 ≤ str.length from h)
  rw [translateEscape, translateEscape, ← hhere, ← hnext]
  by_cases hhex : escapeValue (inMemory str memory i) = 120 ∧ isXDigit (inMemory str memory (i + 1))
  · have hlt := lt_of_digit (show i + 1 ≤ str.length from h) (.inl hhex.2)
    rw [if_pos hhex, if_pos hhex, ← inMemory_le memory memory' (show i + 2 ≤ str.length from hlt)]
    refine ⟨rfl, ?_⟩
    split
    next hdigit => exact lt_of_digit (show i + 2 ≤ str.length from hlt) (.inl hdigit)
    · exact hlt
  · rw [if_neg hhex, if_neg hhex]
    split
    · by_cases hoctal : isOctal (inMemory str memory (i + 1)) = true
      · have hlt := lt_of_digit (show i + 1 ≤ str.length from h) (.inr hoctal)
        rw [if_pos hoctal, if_pos hoctal,
          ← inMemory_le memory memory' (show i + 2 ≤ str.length from hlt)]
        refine ⟨rfl, ?_⟩
        split
        next hdigit => exact lt_of_digit (show i + 2 ≤ str.length from hlt) (.inr hdigit.1)
        · exact hlt
      · rw [if_neg hoctal, if_neg hoctal]
        exact ⟨rfl, h⟩
    · exact ⟨rfl, h⟩

/-- A literal that does not end within an escape is read to its end. -/
theorem escapesLoop_isSome (memory : Nat → UInt8) {fuel i : Nat} (hle : i ≤ str.length)
    (hopen : ¬ OpenFrom str lead i) (hfuel : str.length - i < fuel) :
    (escapesLoop (inMemory str memory) lead fuel i).isSome := by
  induction fuel generalizing i with
  | zero => exact absurd hfuel (Nat.not_lt_zero _)
  | succ fuel ih =>
      rw [escapesLoop]
      rcases Nat.lt_or_eq_of_le hle with hlt | rfl
      · rw [OpenFrom, dif_pos hlt] at hopen
        rw [inMemory_lt _ hlt]
        by_cases hzero : charAt str i = 0
        · rw [if_pos hzero]
          rfl
        by_cases hquote : charAt str i = 34 ∧ lead = true
        · rw [if_neg hzero, if_pos hquote]
          rfl
        rw [if_neg hzero, if_neg hquote]
        rw [if_neg fun h => h.elim hzero hquote] at hopen
        by_cases hslash : charAt str i = 92
        · rw [if_pos hslash] at hopen ⊢
          by_cases hend : i + 1 = str.length
          · rw [if_pos hend] at hopen
            exact absurd trivial hopen
          · rw [if_neg hend] at hopen
            have hin : i + 1 < str.length := Nat.lt_of_le_of_ne hlt hend
            obtain ⟨heq, hroom⟩ := translateEscape_eq (fun _ => 0) memory hin
            have hlater := translateEscape_lt (inMemory str fun _ => 0) (i + 1)
            rw [Option.isSome_map, ← heq]
            exact ih hroom hopen (by omega)
        · rw [if_neg hslash] at hopen ⊢
          rw [Option.isSome_map]
          exact ih hlt hopen (by omega)
      · rw [inMemory_end, if_pos rfl]
        rfl

/-- Behind the NUL there may be letters for ever. -/
theorem escapesLoop_beyond {fuel i : Nat} (h : str.length < i) :
    escapesLoop (inMemory str fun _ => 97) lead fuel i = none := by
  induction fuel generalizing i with
  | zero => rfl
  | succ fuel ih =>
      have hletter : inMemory str (fun _ => 97) i = 97 := by
        rw [inMemory, if_neg (by omega), if_neg (by omega)]
      rw [escapesLoop, hletter, if_neg (by decide), if_neg fun h => absurd h.1 (by decide),
        if_neg (by decide), ih (Nat.lt_succ_of_lt h)]
      rfl

theorem escapesLoop_open {fuel i : Nat} (hopen : OpenFrom str lead i) :
    escapesLoop (inMemory str fun _ => 97) lead fuel i = none := by
  induction fuel generalizing i with
  | zero => rfl
  | succ fuel ih =>
      rw [OpenFrom] at hopen
      split at hopen
      next hlt =>
        rw [escapesLoop, inMemory_lt _ hlt]
        split at hopen
        · exact hopen.elim
        next hgoOn =>
          rw [not_or] at hgoOn
          rw [if_neg hgoOn.1, if_neg hgoOn.2]
          split at hopen
          next hslash =>
            rw [if_pos hslash, Option.map_eq_none_iff]
            split at hopen
            next hend =>
              -- the NUL is taken for the octet behind the backslash
              refine escapesLoop_beyond ?_
              have hlater := translateEscape_lt (inMemory str fun _ => 97) (i + 1)
              omega
            next hend =>
              have hin : i + 1 < str.length := Nat.lt_of_le_of_ne hlt hend
              rw [← (translateEscape_eq (fun _ => 0) (fun _ => 97) hin).1]
              exact ih hopen
          next hslash =>
            rw [if_neg hslash, Option.map_eq_none_iff]
            exact ih hopen
      · exact hopen.elim

/-- The reading of a literal that does not end within an escape ends. -/
theorem translateEscapes_isSome (memory : Nat → UInt8) {fuel : Nat} (h : ¬ EndsInEscape str)
    (hfuel : str.length < fuel) : (translateEscapes memory fuel str).isSome := by
  refine escapesLoop_isSome memory ?_ h (by omega)
  split
  next hquote =>
    refine Nat.pos_of_ne_zero fun hnil => ?_
    rw [List.length_eq_zero_iff] at hnil
    rw [hnil] at hquote
    exact absurd hquote (by decide)
  · exact Nat.zero_le _

/-- The reading of one that does may not end. -/
theorem translateEscapes_none (fuel : Nat) (h : EndsInEscape str) :
    translateEscapes (fun _ => 97) fuel str = none := escapesLoop_open h

end Literals

end Url

end CryptoOpal

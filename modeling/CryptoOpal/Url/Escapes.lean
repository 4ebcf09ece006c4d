import CryptoOpal.Text.Literal
import CryptoOpal.Url.Legacy
import Mathlib.Data.List.Chain

/-!
# Escapes That Are Undone

Both loops of the escapes change the text that they run over. In front of the place where they
stand they leave it alone, so what they do is stated with any text in front of that place: the
loop that puts escapes in writes each octet behind it as it is escaped, and the other one reads
the octets back.

A literal has a form for each octet, and the reader of literals reads the octets of the forms. The
splitting of variables looks for the end quote of a literal without reading it. It passes over each
quote with a backslash in front of it. Such a backslash may be the second one of two, which stand
for a backslash in front of the end quote.

## Main definitions

* `NoEscape`: Nothing looks like an escape.
* `escaped`: An octet as it is written.
* `Hidden`: Each quote has a backslash in front of it.

## Theorems

* `escapeLoop_eq`, `percentLoop_escaped`: Escapes are undone.
* `translateEscapes_literal`: Literals are.
* `endQuoteLoop_eq`: Where the end quote is found.
-/

namespace CryptoOpal

namespace Url

open Lib (Octets)

open Text (codes_spec octal_digits)

/-- Nothing in the text looks like an escape. -/
def NoEscape (s : Octets) : Prop :=
  ∀ i, charAt s i = 37 → ¬ (isXDigit (charAt s (i + 1)) = true ∧ isXDigit (charAt s (i + 2)) = true)

section Searches

variable {pre a rest : Octets} {c : UInt8}

theorem findIdx_absent (h : c ∉ a) : a.findIdx? (fun x => decide (x = c)) = none :=
  List.findIdx?_eq_none_iff.mpr fun _ hx => decide_eq_false fun heq => h (heq ▸ hx)

theorem find_here (pre rest : Octets) (h : c ∉ a) :
    find (pre ++ (a ++ c :: rest)) c pre.length = pre.length + a.length := by
  rw [find, findFrom, List.drop_left, List.findIdx?_append, findIdx_absent h, Option.none_or,
    List.findIdx?_cons, if_pos (decide_eq_true rfl), Option.map_some, Nat.zero_add]

theorem find_absent (pre : Octets) (h : c ∉ a) : find (pre ++ a) c pre.length = pMaxIndex := by
  rw [find, findFrom, List.drop_left, findIdx_absent h]

theorem find_behind (pre rest : Octets) (h : c ∉ a) :
    find (pre ++ (a ++ rest)) c pre.length = pMaxIndex ∨
      pre.length + a.length ≤ find (pre ++ (a ++ rest)) c pre.length := by
  rw [find, findFrom, List.drop_left, List.findIdx?_append, findIdx_absent h, Option.none_or]
  cases hrest : rest.findIdx? fun x => decide (x = c) with
  | none => exact .inl rfl
  | some k =>
      rw [Option.map_some]
      exact .inr (by dsimp only; omega)

/-- A search from an octet that is not searched for is one from the next octet. -/
theorem findFrom_skip {p : UInt8 → Bool} {s : Octets} {i : Nat} (hi : i < s.length)
    (hp : p s[i] = false) : findFrom p s i = findFrom p s (i + 1) := by
  rw [findFrom, findFrom, List.drop_eq_getElem_cons hi, List.findIdx?_cons, hp,
    if_neg Bool.false_ne_true]
  cases (s.drop (i + 1)).findIdx? p with
  | none => rfl
  | some k =>
      rw [Option.map_some]
      dsimp only
      omega

theorem findFrom_found {p : UInt8 → Bool} {s : Octets} {i : Nat} (hi : i < s.length)
    (hp : p s[i] = true) : findFrom p s i = i := by
  rw [findFrom, List.drop_eq_getElem_cons hi, List.findIdx?_cons, hp, if_pos rfl]
  rfl

theorem findFrom_end {p : UInt8 → Bool} (s : Octets) : findFrom p s s.length = pMaxIndex := by
  rw [findFrom, List.drop_length]
  rfl

theorem getElem_middle (pre rest : Octets) (c : UInt8)
    (h : pre.length < (pre ++ c :: rest).length) : (pre ++ c :: rest)[pre.length] = c := by
  rw [List.getElem_append_right (Nat.le_refl _)]
  simp only [Nat.sub_self, List.getElem_cons_zero]

theorem length_middle (pre rest : Octets) (c : UInt8) :
    pre.length < (pre ++ c :: rest).length := by
  rw [List.length_append, List.length_cons]
  omega

theorem charAt_middle (pre a rest : Octets) (c : UInt8) (k : Nat) (hk : a.length = k) :
    charAt (pre ++ (a ++ c :: rest)) (pre.length + k) = c := by
  rw [charAt, List.getD_eq_getElem?_getD, List.getElem?_append_right (Nat.le_add_right _ _),
    Nat.add_sub_cancel_left, List.getElem?_append_right (Nat.le_of_eq hk), hk, Nat.sub_self]
  rfl

end Searches

section Escapes

variable {type : TranslationType}

/-- An octet as it is written. -/
def escaped (type : TranslationType) (c : UInt8) : Octets :=
  if c ∈ safeChars type then [c] else escapeOf c

theorem safeChars_ne_nil (type : TranslationType) : safeChars type ≠ [] := by
  cases type <;> exact List.cons_ne_nil _ _

theorem findSpan_eq (s : Octets) (i : Nat) : findSpan s (safeChars type) i =
    findFrom (fun x => decide (x ∉ safeChars type)) s i := if_neg (safeChars_ne_nil type)

/-- The loop passes over a safe octet. -/
theorem escapeLoop_safe (pre rest : Octets) {c : UInt8} (hc : c ∈ safeChars type) :
    escapeLoop type (pre ++ c :: rest) pre.length =
      escapeLoop type ((pre ++ [c]) ++ rest) (pre ++ [c]).length := by
  have hspan : findSpan (pre ++ c :: rest) (safeChars type) pre.length =
      findSpan (pre ++ c :: rest) (safeChars type) (pre.length + 1) := by
    rw [findSpan_eq, findSpan_eq]
    refine findFrom_skip (length_middle pre rest c) (decide_eq_false ?_)
    rw [getElem_middle]
    exact fun h => h hc
  rw [List.append_assoc, List.singleton_append, List.length_append, List.length_singleton,
    escapeLoop, escapeLoop.eq_def type _ (pre.length + 1), hspan]

theorem escapeLoop_other (pre rest : Octets) {c : UInt8} (hc : c ∉ safeChars type)
    (hpre : pre.length ≠ pMaxIndex) :
    escapeLoop type (pre ++ c :: rest) pre.length =
      escapeLoop type ((pre ++ escapeOf c) ++ rest) (pre ++ escapeOf c).length := by
  have hoctet := c.toNat_lt
  have hspan : findSpan (pre ++ c :: rest) (safeChars type) pre.length = pre.length := by
    rw [findSpan_eq]
    refine findFrom_found (length_middle pre rest c) (decide_eq_true ?_)
    rwa [getElem_middle]
  have hsplice : spliceEscape (pre ++ c :: rest) pre.length =
      (pre ++ [37]) ++ hexDigit (c.toNat / 16) :: hexDigit (c.toNat % 16) :: rest := by
    have hhere : charAt (pre ++ c :: rest) pre.length = c := charAt_middle pre [] rest c 0 rfl
    have hbehind : (pre ++ c :: rest).drop (pre.length + 1) = rest := by
      rw [← List.drop_drop, List.drop_left]
      rfl
    rw [spliceEscape, List.take_left, hhere, hbehind, escapeOf, List.append_assoc,
      List.append_assoc]
    rfl
  have hlen : pre.length + 1 = (pre ++ [37]).length := by
    rw [List.length_append, List.length_singleton]
  -- The digits of the escape are safe, and passed over.
  rw [escapeLoop, dif_neg (by rwa [hspan]), hspan, hsplice, hlen,
    escapeLoop_safe _ _ (hexDigit_safe type (by omega)),
    escapeLoop_safe _ _ (hexDigit_safe type (by omega)), List.append_assoc pre,
    List.append_assoc pre]
  rfl

/-- The loop writes every octet that is not safe as its escape. -/
theorem escapeLoop_eq (s : Octets) : ∀ pre,
    (escapeLoop type (pre ++ s) pre.length).length < pMaxIndex →
    escapeLoop type (pre ++ s) pre.length = pre ++ s.flatMap (escaped type) := by
  induction s with
  | nil =>
      intro pre _
      rw [List.append_nil, List.flatMap_nil, List.append_nil, escapeLoop, dif_pos]
      rw [findSpan_eq]
      exact findFrom_end pre
  | cons c s ih =>
      intro pre hlen
      rw [List.flatMap_cons, escaped]
      by_cases hc : c ∈ safeChars type
      · rw [escapeLoop_safe pre s hc] at hlen ⊢
        rw [if_pos hc, ih _ hlen, List.append_assoc]
      · have hspan : findSpan (pre ++ c :: s) (safeChars type) pre.length = pre.length := by
          rw [findSpan_eq]
          refine findFrom_found (length_middle pre s c) (decide_eq_true ?_)
          rwa [getElem_middle]
        -- A place with the number of no place would end the loop too early.
        have hpre : pre.length ≠ pMaxIndex := by
          intro hpre
          rw [escapeLoop, dif_pos (hspan.trans hpre), List.length_append, hpre] at hlen
          omega
        rw [escapeLoop_other pre s hc hpre] at hlen ⊢
        rw [if_neg hc, ih _ hlen, List.append_assoc]

theorem find_zero_absent {c : UInt8} {s : Octets} (h : c ∉ s) (i : Nat) :
    find s c i = pMaxIndex := by
  rw [find, findFrom, findIdx_absent fun hmem => h (List.mem_of_mem_drop hmem)]

theorem percentLoop_skip (pre rest : Octets) {c : UInt8} (hc : c ≠ 37) :
    percentLoop (pre ++ c :: rest) pre.length =
      percentLoop ((pre ++ [c]) ++ rest) (pre ++ [c]).length := by
  have hfind : find (pre ++ c :: rest) 37 pre.length =
      find (pre ++ c :: rest) 37 (pre.length + 1) := by
    refine findFrom_skip (length_middle pre rest c) (decide_eq_false ?_)
    rwa [getElem_middle]
  rw [List.append_assoc, List.singleton_append, List.length_append, List.length_singleton,
    percentLoop, percentLoop.eq_def _ (pre.length + 1), hfind]

/-- The digits of an octet are read as this octet. -/
theorem hex_digits : ∀ n < 256,
    isXDigit (hexDigit (n / 16)) = true ∧ isXDigit (hexDigit (n % 16)) = true ∧
      hexValue (hexDigit (n % 16)) + (hexValue (hexDigit (n / 16)) <<< 4) = UInt8.ofNat n := by
  decide +kernel

theorem percentLoop_escape (pre rest : Octets) (c : UInt8) (hpre : pre.length < pMaxIndex) :
    percentLoop (pre ++ (escapeOf c ++ rest)) pre.length =
      percentLoop ((pre ++ [c]) ++ rest) (pre ++ [c]).length := by
  obtain ⟨hhigh, hlow, hvalue⟩ := hex_digits c.toNat c.toNat_lt
  rw [UInt8.ofNat_toNat] at hvalue
  have hfind : find (pre ++ (escapeOf c ++ rest)) 37 pre.length = pre.length :=
    find_here pre _ List.not_mem_nil
  have hfirst : charAt (pre ++ (escapeOf c ++ rest)) (pre.length + 1) = hexDigit (c.toNat / 16) :=
    charAt_middle pre [37] _ _ 1 rfl
  have hsecond : charAt (pre ++ (escapeOf c ++ rest)) (pre.length + 2) = hexDigit (c.toNat % 16) :=
    charAt_middle pre [37, hexDigit (c.toNat / 16)] _ _ 2 rfl
  -- The octet that is read stands where the percent sign has stood.
  have hset : ∀ v : UInt8, (pre ++ (escapeOf c ++ rest)).set pre.length v =
      (pre ++ [v]) ++ ([hexDigit (c.toNat / 16), hexDigit (c.toNat % 16)] ++ rest) := by
    intro v
    rw [List.set_append_right _ _ (Nat.le_refl _), Nat.sub_self, escapeOf, List.append_assoc]
    rfl
  have hlen : pre.length + 1 = (pre ++ [c]).length := by
    rw [List.length_append, List.length_singleton]
  have hrest : ([hexDigit (c.toNat / 16), hexDigit (c.toNat % 16)] ++ rest).drop 2 = rest := rfl
  rw [percentLoop, if_neg (by rw [hfind]; exact Nat.ne_of_lt hpre), hfind, hfirst, hsecond,
    if_pos (by rw [hhigh, hlow]; rfl), hvalue, hset, delete, hlen, List.take_left,
    ← List.drop_drop, List.drop_left, hrest]

/-- The escapes are undone. -/
theorem percentLoop_escaped (hpercent : 37 ∉ safeChars type) (s : Octets) : ∀ pre,
    pre.length + (s.flatMap (escaped type)).length < pMaxIndex →
    percentLoop (pre ++ s.flatMap (escaped type)) pre.length = pre ++ s := by
  induction s with
  | nil =>
      intro pre _
      have hend : find pre 37 pre.length = pMaxIndex := findFrom_end pre
      rw [List.flatMap_nil, List.append_nil, percentLoop, if_pos hend]
  | cons c s ih =>
      intro pre hlen
      rw [List.flatMap_cons, List.length_append] at hlen
      rw [List.flatMap_cons]
      have hnext : (escaped type c).length ≠ 0 := by
        rw [escaped]
        split <;> exact Nat.succ_ne_zero _
      have hstep : percentLoop (pre ++ (escaped type c ++ s.flatMap (escaped type))) pre.length =
          percentLoop ((pre ++ [c]) ++ s.flatMap (escaped type)) (pre ++ [c]).length := by
        rw [escaped]
        split
        next hc => exact percentLoop_skip pre _ fun heq => hpercent (heq ▸ hc)
        next => exact percentLoop_escape pre _ c (by omega)
      rw [hstep, ih _ (by
        rw [List.length_append, List.length_singleton]
        omega), List.append_assoc]
      rfl

/-- What does not look like an escape stays. -/
theorem percentLoop_noEscape {s : Octets} (h : NoEscape s) (pos : Nat) : percentLoop s pos = s := by
  induction s, pos using percentLoop.induct with
  | case1 s pos hnone => rw [percentLoop, if_pos hnone]
  | case2 s pos hfound hdigits ih =>
      have hspec := findFrom_spec (fun x => decide (x = 37)) s pos
      rw [← find] at hspec
      rcases hspec with hnone | ⟨-, hlt, hhere⟩
      · exact absurd hnone hfound
      · -- This would be an escape.
        have hchar : charAt s (find s 37 pos) = 37 := by
          rw [charAt, List.getD_eq_getElem?_getD, List.getElem?_eq_getElem hlt]
          exact of_decide_eq_true hhere
        exact absurd (Bool.and_eq_true_iff.mp hdigits) (h _ hchar)
  | case3 s pos hfound hdigits ih => rw [percentLoop, if_neg hfound, if_neg hdigits, ih h]

theorem plusLoop_absent {s : Octets} (h : 43 ∉ s) : plusLoop s 0 = s := by
  rw [plusLoop, if_pos (find_zero_absent h 0)]

end Escapes

section Entries

variable {type : TranslationType} {sep1 sep2 : UInt8} {s : Octets}

theorem mem_escaped {c x : UInt8} (h : x ∈ escaped type c) : x ∈ safeChars type ∨ x = 37 := by
  have hoctet := c.toNat_lt
  rw [escaped] at h
  split at h
  next hc => exact .inl (List.mem_singleton.mp h ▸ hc)
  next =>
    rcases List.mem_cons.mp h with rfl | h
    · exact .inr rfl
    · rcases List.mem_cons.mp h with rfl | h
      · exact .inl (hexDigit_safe type (by omega))
      · rw [List.mem_singleton.mp h]
        exact .inl (hexDigit_safe type (by omega))

/-- An octet that is neither safe nor a percent sign is not written. -/
theorem not_mem_escaped {x : UInt8} (hx : x ∉ safeChars type) (hpercent : x ≠ 37) :
    x ∉ s.flatMap (escaped type) := by
  intro h
  obtain ⟨c, -, hc⟩ := List.mem_flatMap.mp h
  exact (mem_escaped hc).elim hx hpercent

end Entries

section Literals

variable {memory : Nat → UInt8} {fuel : Nat} {c x : UInt8}

theorem char_middle (before a rest : Octets) (c : UInt8) (k : Nat) (hk : a.length = k) :
    inMemory (before ++ (a ++ c :: rest)) memory (before.length + k) = c := by
  rw [inMemory_lt, charAt_middle before a rest c k hk]
  rw [List.length_append, List.length_append, List.length_cons]
  omega

theorem translateEscape_plain {char : Nat → UInt8} {i : Nat} (h : char i = x)
    (hx : escapeValue x ≠ 120) (hoctal : isOctal (escapeValue x) = false) :
    translateEscape char i = (escapeValue x, i + 1) := by
  rw [translateEscape, h, if_neg fun hcond => hx hcond.1, hoctal, if_neg Bool.false_ne_true]

/-- A backslash and a code are read as what the code stands for. -/
theorem escapesLoop_code (before rest : Octets) (hx : escapeValue x = c) (hc : c ≠ 120)
    (hoctal : isOctal c = false) :
    escapesLoop (inMemory (before ++ ([92, x] ++ rest)) memory) true (fuel + 1) before.length =
      (escapesLoop (inMemory (before ++ ([92, x] ++ rest)) memory) true fuel
        (before ++ [92, x]).length).map (c :: ·) := by
  have hslash : inMemory (before ++ ([92, x] ++ rest)) memory before.length = 92 :=
    char_middle before [] (x :: rest) 92 0 rfl
  have hcode : inMemory (before ++ ([92, x] ++ rest)) memory (before.length + 1) = x :=
    char_middle before [92] rest x 1 rfl
  rw [escapesLoop, hslash, if_neg (by decide), if_neg (by decide), if_pos rfl,
    translateEscape_plain hcode (by rwa [hx]) (by rwa [hx]), hx, List.length_append]
  rfl

theorem escapesLoop_octal (before rest : Octets) (c : UInt8) :
    escapesLoop (inMemory (before ++ ([92, 48 + c / 64, 48 + c / 8 % 8, 48 + c % 8] ++ rest))
        memory) true (fuel + 1) before.length =
      (escapesLoop (inMemory (before ++ ([92, 48 + c / 64, 48 + c / 8 % 8, 48 + c % 8] ++ rest))
        memory) true fuel (before ++ [92, 48 + c / 64, 48 + c / 8 % 8, 48 + c % 8]).length).map
          (c :: ·) := by
  -- The first digit is at most a three, so the third one is read as well.
  have hdigits := octal_digits c.toNat c.toNat_lt
  rw [UInt8.ofNat_toNat] at hdigits
  rcases hdigits with ⟨hcode, hx, hle, hfirst, hsecond, hthird, hvalue⟩
  have hzero : (0 : UInt8) <<< 3 = 0 := rfl
  rw [hzero, UInt8.zero_add] at hvalue
  have hslash : inMemory (before ++ ([92, 48 + c / 64, 48 + c / 8 % 8, 48 + c % 8] ++ rest)) memory
      before.length = 92 := char_middle before [] _ 92 0 rfl
  have h1 : inMemory (before ++ ([92, 48 + c / 64, 48 + c / 8 % 8, 48 + c % 8] ++ rest)) memory
      (before.length + 1) = 48 + c / 64 := char_middle before [92] _ _ 1 rfl
  have h2 : inMemory (before ++ ([92, 48 + c / 64, 48 + c / 8 % 8, 48 + c % 8] ++ rest)) memory
      (before.length + 1 + 1) = 48 + c / 8 % 8 := char_middle before [92, _] _ _ 2 rfl
  have h3 : inMemory (before ++ ([92, 48 + c / 64, 48 + c / 8 % 8, 48 + c % 8] ++ rest)) memory
      (before.length + 1 + 2) = 48 + c % 8 := char_middle before [92, _, _] rest _ 3 rfl
  rw [escapesLoop, hslash, if_neg (by decide), if_neg (by decide), if_pos rfl, translateEscape, h1,
    hcode, if_neg fun hcond => hx hcond.1, if_pos hfirst, h2, if_pos hsecond, h3, if_pos ⟨hthird, hle⟩,
    hvalue, List.length_append]
  rfl

/-- The form of an octet is read as this octet. -/
theorem escapesLoop_octet (before rest : Octets) (hc : c ≠ 0) :
    escapesLoop (inMemory (before ++ (literalOctet c ++ rest)) memory) true (fuel + 1)
        before.length =
      (escapesLoop (inMemory (before ++ (literalOctet c ++ rest)) memory) true fuel
        (before ++ literalOctet c).length).map (c :: ·) := by
  rw [literalOctet]
  by_cases hquote : c = 34
  · rw [if_pos hquote, hquote]
    exact escapesLoop_code before rest (by decide) (by decide) (by decide)
  rw [if_neg hquote]
  by_cases hslash : c = 92
  · rw [if_pos hslash, hslash]
    exact escapesLoop_code before rest (by decide) (by decide) (by decide)
  rw [if_neg hslash]
  by_cases hprint : 32 ≤ c ∧ c ≤ 126
  · have hhere : inMemory (before ++ ([c] ++ rest)) memory before.length = c :=
      char_middle before [] rest c 0 rfl
    rw [if_pos hprint, escapesLoop, hhere, if_neg hc, if_neg fun h => hquote h.1, if_neg hslash,
      List.length_append]
    rfl
  rw [if_neg hprint]
  cases hcode : escapeCodes.find? fun code => code.2 = c with
  | some code =>
      obtain ⟨hvalue, hx, hoctal⟩ := codes_spec code (List.mem_of_find?_eq_some hcode)
      have heq : code.2 = c := by
        have hfound := List.find?_some hcode
        exact of_decide_eq_true hfound
      rw [heq] at hvalue hx hoctal
      exact escapesLoop_code before rest hvalue hx hoctal
  | none => exact escapesLoop_octal before rest c

/-- A literal is read as its text. -/
theorem escapesLoop_literal (v : Octets) (hv : 0 ∉ v) : ∀ before fuel, v.length < fuel →
    escapesLoop (inMemory (before ++ (v.flatMap literalOctet ++ [34])) memory) true fuel
      before.length = some v := by
  induction v with
  | nil =>
      intro before fuel hfuel
      obtain ⟨fuel, rfl⟩ := Nat.exists_eq_add_of_lt hfuel
      have hquote : inMemory (before ++ ([] ++ [34])) memory before.length = 34 :=
        char_middle before [] [] 34 0 rfl
      rw [List.flatMap_nil, escapesLoop, hquote, if_neg (by decide), if_pos ⟨rfl, rfl⟩]
  | cons c v ih =>
      intro before fuel hfuel
      rw [List.mem_cons, not_or] at hv
      cases fuel with
      | zero => exact absurd hfuel (Nat.not_lt_zero _)
      | succ fuel =>
          rw [List.flatMap_cons, List.append_assoc, escapesLoop_octet before _ (Ne.symm hv.1),
            ← List.append_assoc, ih hv.2 _ _ (Nat.lt_of_succ_lt_succ hfuel), Option.map_some]

theorem translateEscapes_literal (v : Octets) (hv : 0 ∉ v) (hfuel : v.length < fuel) :
    translateEscapes memory fuel (toLiteral v) = some v := by
  have hquote : charAt (toLiteral v) 0 = 34 := rfl
  rw [translateEscapes, hquote]
  exact escapesLoop_literal v hv [34] fuel hfuel

/-- Each octet has a form, and no form is empty. -/
theorem length_le_forms (v : Octets) : v.length ≤ (v.flatMap literalOctet).length := by
  induction v with
  | nil => exact Nat.le_refl 0
  | cons c v ih =>
      have hc := Text.length_literalOctet c
      rw [List.flatMap_cons, List.length_append, List.length_cons]
      omega

/-- Each quote has a backslash in front of it. -/
def Hidden (s : Octets) : Prop := s.IsChain fun a b => b = 34 → a = 92

/-- What stands in the form of an octet is no quote without a backslash, and no backslash at the
    end unless it is one. -/
theorem digits_spec : ∀ n < 256,
    (48 + UInt8.ofNat n / 64 ≠ 34 ∧ 48 + UInt8.ofNat n / 8 % 8 ≠ 34 ∧ 48 + UInt8.ofNat n % 8 ≠ 34) ∧
      48 + UInt8.ofNat n % 8 ≠ 92 := by
  decide +kernel

theorem codes_plain : ∀ code ∈ escapeCodes, code.1 ≠ 34 ∧ code.1 ≠ 92 := by
  have hall : (escapeCodes.all fun code => decide (code.1 ≠ 34 ∧ code.1 ≠ 92)) = true := by decide
  exact fun code hcode => of_decide_eq_true (List.all_eq_true.mp hall code hcode)

theorem hidden_cons {a b : UInt8} {s : Octets} (hb : b ≠ 34) (h : Hidden (b :: s)) :
    Hidden (a :: b :: s) :=
  List.isChain_cons_cons.mpr ⟨fun heq => absurd heq hb, h⟩

theorem hidden_octet (c : UInt8) {rest : Octets} (h : ∀ a, Hidden (a :: rest)) (a : UInt8) :
    Hidden (a :: (literalOctet c ++ rest)) := by
  rw [literalOctet]
  by_cases hquote : c = 34
  · rw [if_pos hquote]
    exact hidden_cons (by decide) (List.isChain_cons_cons.mpr ⟨fun _ => rfl, h 34⟩)
  rw [if_neg hquote]
  split
  · exact hidden_cons (by decide) (hidden_cons (by decide) (h 92))
  split
  · exact hidden_cons hquote (h c)
  cases hcode : escapeCodes.find? fun code => code.2 = c with
  | some code =>
      have hplain := codes_plain code (List.mem_of_find?_eq_some hcode)
      exact hidden_cons (by decide) (hidden_cons hplain.1 (h code.1))
  | none =>
      obtain ⟨⟨h1, h2, h3⟩, -⟩ := digits_spec c.toNat c.toNat_lt
      rw [UInt8.ofNat_toNat] at h1 h2 h3
      exact hidden_cons (by decide) (hidden_cons h1 (hidden_cons h2 (hidden_cons h3 (h _))))

theorem hidden_literal (v : Octets) : ∀ a, Hidden (a :: v.flatMap literalOctet) := by
  induction v with
  | nil => exact fun a => List.isChain_singleton a
  | cons c v ih =>
      intro a
      rw [List.flatMap_cons]
      exact hidden_octet c ih a

theorem getLast_octet (hc : c ≠ 92) : ∃ d, (literalOctet c).getLast? = some d ∧ d ≠ 92 := by
  rw [literalOctet]
  by_cases hquote : c = 34
  · rw [if_pos hquote]
    exact ⟨34, rfl, by decide⟩
  rw [if_neg hquote, if_neg hc]
  split
  · exact ⟨c, rfl, hc⟩
  cases hcode : escapeCodes.find? fun code => code.2 = c with
  | some code => exact ⟨code.1, rfl, (codes_plain code (List.mem_of_find?_eq_some hcode)).2⟩
  | none =>
      obtain ⟨-, hlast⟩ := digits_spec c.toNat c.toNat_lt
      rw [UInt8.ofNat_toNat] at hlast
      exact ⟨48 + c % 8, rfl, hlast⟩

/-- The forms end with a backslash only where the text does. -/
theorem getLast_literal {v : Octets} (hne : v ≠ []) (h : v.getLast? ≠ some 92) :
    (v.flatMap literalOctet).getLast? ≠ some 92 := by
  obtain ⟨init, c, rfl⟩ := (List.eq_nil_or_concat v).resolve_left hne
  rw [List.concat_eq_append, List.getLast?_append, List.getLast?_singleton] at h
  obtain ⟨d, hd, hne⟩ := getLast_octet (c := c) fun heq => h (by rw [heq]; rfl)
  rw [List.concat_eq_append, List.flatMap_append, List.flatMap_singleton, List.getLast?_append, hd]
  exact fun heq => hne (Option.some.inj heq)

/-- A quote ends what is in front of it with a backslash. -/
theorem hidden_quote {q : UInt8} {w₁ w₂ : Octets} (h : Hidden (q :: (w₁ ++ 34 :: w₂))) :
    (q :: w₁).getLast? = some 92 ∧ Hidden (34 :: w₂) := by
  obtain ⟨init, l, hinit⟩ : ∃ init l, q :: w₁ = init ++ [l] :=
    ⟨_, _, (List.dropLast_append_getLast (List.cons_ne_nil q w₁)).symm⟩
  have hparts : q :: (w₁ ++ 34 :: w₂) = init ++ l :: 34 :: w₂ := by
    rw [← List.cons_append, hinit, List.append_assoc]
    rfl
  rw [hparts, Hidden, List.isChain_append_cons_cons] at h
  rw [hinit, List.getLast?_concat, h.2.1 rfl]
  exact ⟨rfl, h.2.2⟩

/-- The first quote behind an octet, and what is in front of it. -/
theorem find_quote {w : Octets} (before rest : Octets) (q : UInt8) (h : 34 ∉ w) :
    find (before ++ (q :: (w ++ 34 :: rest))) 34 (before.length + 1) =
        before.length + 1 + w.length ∧
      ∀ l, (q :: w).getLast? = some l →
        charAt (before ++ (q :: (w ++ 34 :: rest))) (before.length + 1 + w.length - 1) = l := by
  constructor
  · have hcut : before ++ (q :: (w ++ 34 :: rest)) = (before ++ [q]) ++ (w ++ 34 :: rest) := by
      rw [List.append_assoc]
      rfl
    have hstart : before.length + 1 = (before ++ [q]).length := by
      rw [List.length_append, List.length_singleton]
    rw [hcut, hstart]
    exact find_here _ _ h
  · intro l hl
    obtain ⟨init, hinit⟩ := List.getLast?_eq_some_iff.mp hl
    have hback : before ++ (q :: (w ++ 34 :: rest)) = before ++ (init ++ l :: 34 :: rest) := by
      rw [← List.cons_append, hinit, List.append_assoc]
      rfl
    have hlength : init.length = w.length := by
      have h := congrArg List.length hinit
      rw [List.length_cons, List.length_append, List.length_singleton] at h
      exact (Nat.succ.inj h).symm
    have hplace : before.length + 1 + w.length - 1 = before.length + w.length := by omega
    rw [hplace, hback, charAt_middle before init _ l w.length hlength]

/-- The search for the end quote passes over the quotes that have a backslash in front of them. A
    backslash in front of the end quote only matters if there is a text behind it. -/
theorem endQuoteLoop_eq {tail : Octets} (n : Nat) : ∀ w before q, w.length < n →
    Hidden (q :: w) → ((q :: w).getLast? = some 92 → tail = []) →
    (before ++ (q :: (w ++ 34 :: tail))).length < pMaxIndex →
    endQuoteLoop (before ++ (q :: (w ++ 34 :: tail))) before.length =
      before.length + 1 + w.length := by
  induction n with
  | zero => exact fun w before q h => absurd h (Nat.not_lt_zero _)
  | succ n ih =>
      intro w before q hn hhidden htail hlen
      by_cases hquote : 34 ∈ w
      · -- The first quote has a backslash in front of it, and the search goes on behind it.
        obtain ⟨w₁, w₂, rfl, hfirst⟩ := List.eq_append_cons_of_mem hquote
        obtain ⟨hslash, hlater⟩ := hidden_quote hhidden
        obtain ⟨hfind, hprev⟩ := find_quote before (w₂ ++ 34 :: tail) q hfirst
        have hcut : before ++ (q :: ((w₁ ++ 34 :: w₂) ++ 34 :: tail)) =
            before ++ (q :: (w₁ ++ 34 :: (w₂ ++ 34 :: tail))) := by
          rw [List.append_assoc]
          rfl
        have hagain : before ++ (q :: (w₁ ++ 34 :: (w₂ ++ 34 :: tail))) =
            (before ++ q :: w₁) ++ (34 :: (w₂ ++ 34 :: tail)) := by
          rw [List.append_assoc]
          rfl
        have hplace : before.length + 1 + w₁.length = (before ++ q :: w₁).length := by
          rw [List.length_append, List.length_cons]
          omega
        rw [List.length_append, List.length_cons] at hn
        rw [hcut] at hlen ⊢
        have hrun := ih w₂ (before ++ q :: w₁) 34 (by omega) hlater
          (fun hlast => htail (by
            rw [← List.cons_append, List.getLast?_append, hlast]
            rfl)) (by rwa [← hagain])
        rw [← hagain, ← hplace] at hrun
        have hroom : before.length + 1 + w₁.length ≠ pMaxIndex := by
          rw [hagain, List.length_append, ← hplace] at hlen
          omega
        rw [endQuoteLoop.eq_def, hfind, if_neg hroom, if_pos (hprev 92 hslash), hrun,
          List.length_append, List.length_cons]
        omega
      · -- Only the end quote is left.
        obtain ⟨hfind, hprev⟩ := find_quote before tail q hquote
        have hall : (before ++ (q :: (w ++ 34 :: tail))).length =
            before.length + 1 + w.length + 1 + tail.length := by
          simp only [List.length_append, List.length_cons]
          omega
        rw [endQuoteLoop.eq_def, hfind, if_neg (by omega)]
        by_cases hlast : (q :: w).getLast? = some 92
        · -- The end quote is passed over, and there is none behind it.
          have hnil : tail = [] := htail hlast
          rw [hnil, List.length_nil, Nat.add_zero] at hall
          have hnone : find (before ++ (q :: (w ++ 34 :: tail))) 34
              (before.length + 1 + w.length + 1) = pMaxIndex := by
            rw [hnil, ← hall]
            exact findFrom_end _
          rw [if_pos (hprev 92 hlast), endQuoteLoop.eq_def, if_pos hnone, hnil, hall]
          rfl
        · have hother := hprev _ (List.getLast?_eq_some_getLast (List.cons_ne_nil q w))
          rw [if_neg fun h => hlast ?_]
          rw [List.getLast?_eq_some_getLast (List.cons_ne_nil q w), ← hother, h]

end Literals

end Url

end CryptoOpal

import CryptoOpal.Mime.Text
import Mathlib.Data.List.TakeWhile

/-!
# Literals

The reading of a string literal, with each octet that is read and the room that is written to,
and the literal of a string.

The reader leaves the text behind at a NUL that it sees itself. A backslash makes it take the
next octet, whatever that is, and so a backslash at the end of the text takes it past the NUL. The
codes, digits and quotes behind a backslash are looked at one by one, and none of them leads past
the NUL.

## Main definitions

* `octalLoop`, `escapeAt`, `literalLoop`, `literal`: The reading of a literal.
* `dangles`, `OpenEnd`: A backslash ends the text.

## Theorems

* `escapeAt_spec`: An escape in front of the NUL ends there.
* `literalLoop_isSome`: Which texts are read inside their bounds.
* `literalLoop_forms`: The octets of a literal are read back.
* `literal_iff`: Both for every text.
-/

namespace CryptoOpal

namespace Text

open Lib (Octets)

open Mime (readAt)

open Url (isXDigit isOctal translateHex escapeValue escapeCodes literalOctet toLiteral)

/-- The loop over octal digits, with how many there may be. -/
def octalLoop (s : Octets) : Nat → Nat → UInt8 → Option (UInt8 × Nat)
  | 0, i, c => some (c, i)
  | count + 1, i, c =>
    (readAt s i).bind fun d =>
      if isOctal d then octalLoop s count (i + 1) ((c <<< 3) + (d - 48)) else some (c, i)

/-- What stands behind a backslash, and the place behind it. -/
def escapeAt (s : Octets) (i : Nat) : Option (UInt8 × Nat) :=
  (readAt s i).bind fun code =>
    if escapeValue code = 120 then
      (readAt s (i + 1)).bind fun x =>
        if isXDigit x then
          (readAt s (i + 2)).bind fun y =>
            if isXDigit y then some ((translateHex x <<< 4) + translateHex y, i + 3)
            else some (translateHex x, i + 2)
        else some (120, i + 1)
    else if isOctal (escapeValue code) then
      octalLoop s (if escapeValue code ≤ 51 then 3 else 2) i 0
    else some (escapeValue code, i + 1)

/-- The loop of `TranslateEscapes`, which writes into an array of this size. -/
def literalLoop (s : Octets) (hadLeadingQuote : Bool) (size : Nat) :
    Nat → Nat → Octets → Option Octets
  | 0, _, _ => none
  | fuel + 1, i, dst =>
    (readAt s i).bind fun c =>
      if c = 0 then some dst
      else if c = 34 ∧ hadLeadingQuote then
        if dst.length < size then some dst else none -- a NUL is written
      else if c = 92 then
        (escapeAt s (i + 1)).bind fun e =>
          if dst.length < size then literalLoop s hadLeadingQuote size fuel e.2 (dst ++ [e.1])
          else none
      else if dst.length < size then literalLoop s hadLeadingQuote size fuel (i + 1) (dst ++ [c])
      else none

/-- `PString(Literal, str)`: what is in front of the first NUL that was written. -/
def literal (str : Octets) : Option Octets :=
  (readAt str 0).bind fun c =>
    (literalLoop str (decide (c = 34)) (str.length + 1) (str.length + 1)
      (if c = 34 then 1 else 0) []).map fun dst => dst.takeWhile fun x => decide (x ≠ 0)

/-- Read from the left, the text comes to a backslash with nothing behind it. -/
def dangles (quoted : Bool) : Octets → Bool
  | [] => false
  | [c] => decide (c = 92)
  | c :: d :: rest =>
    if c = 92 then dangles quoted rest
    else if c = 34 ∧ quoted then false
    else dangles quoted (d :: rest)

/-- The text ends with a backslash that has nothing to stand in front of. -/
def OpenEnd (str : Octets) : Prop :=
  if str.head? = some 34 then dangles true str.tail = true else dangles false str = true

section Reading

variable {s rest : Octets} {lead : Bool} {i : Nat} {c : UInt8}

theorem dangles_plain (hc : c ≠ 92) (hq : ¬ (c = 34 ∧ lead = true)) :
    dangles lead (c :: rest) = dangles lead rest := by
  cases rest with
  | nil => rw [dangles, dangles, decide_eq_false hc]
  | cons d rest => rw [dangles, if_neg hc, if_neg hq]

theorem dangles_quote (hlead : lead = true) : dangles lead (34 :: rest) = false := by
  cases rest with
  | nil => rfl
  | cons d rest => rw [dangles, if_neg (by decide), if_pos ⟨rfl, hlead⟩]

theorem dangles_slash (d : UInt8) : dangles lead (92 :: d :: rest) = dangles lead rest := by
  rw [dangles, if_pos rfl]

/-- A digit is neither a backslash nor a quote, nor the NUL. -/
theorem digit_plain (h : isXDigit c = true ∨ isOctal c = true) : c ≠ 92 ∧ c ≠ 34 ∧ c ≠ 0 := by
  refine ⟨?_, ?_, ?_⟩ <;> rintro rfl <;> exact absurd h (by decide)

/-- A digit that is read is in the text, and the reader may go on behind it. -/
theorem digit_step (hi : i ≤ s.length) (hc : readAt s i = some c)
    (h : isXDigit c = true ∨ isOctal c = true) :
    i < s.length ∧ dangles lead (s.drop (i + 1)) = dangles lead (s.drop i) := by
  rcases digit_plain h with ⟨hslash, hquote, hzero⟩
  have hlt : i < s.length := by
    refine Nat.lt_of_le_of_ne hi fun heq => ?_
    rw [heq, Mime.readAt_length] at hc
    exact hzero (Option.some.inj hc).symm
  refine ⟨hlt, ?_⟩
  rw [Mime.readAt_lt hlt] at hc
  rw [List.drop_eq_getElem_cons hlt, Option.some.inj hc,
    dangles_plain hslash fun hq => hquote hq.1]

theorem codes_spec : ∀ code ∈ escapeCodes,
    escapeValue code.1 = code.2 ∧ code.2 ≠ 120 ∧ isOctal code.2 = false := by
  have hall : (escapeCodes.all fun code =>
      decide (escapeValue code.1 = code.2 ∧ code.2 ≠ 120 ∧ isOctal code.2 = false)) = true := by
    decide
  exact fun code hcode => of_decide_eq_true (List.all_eq_true.mp hall code hcode)

/-- No code of an escape stands for an octal digit. -/
theorem octal_of_value (h : isOctal (escapeValue c) = true) : isOctal c = true := by
  rw [escapeValue] at h
  split at h
  next code hcode =>
    rw [(codes_spec code (List.mem_of_find?_eq_some hcode)).2.2] at h
    exact absurd h Bool.false_ne_true
  next => exact h

theorem octalLoop_spec (count : Nat) :
    ∀ i c, i ≤ s.length → ∃ e, octalLoop s count i c = some e ∧ i ≤ e.2 ∧ e.2 ≤ s.length ∧
      dangles lead (s.drop e.2) = dangles lead (s.drop i) := by
  induction count with
  | zero => exact fun i c hi => ⟨_, rfl, Nat.le_refl i, hi, rfl⟩
  | succ count ih =>
      intro i c hi
      rcases Mime.readAt_le hi with ⟨d, hd⟩
      rw [octalLoop, hd, Option.bind_some]
      split
      next hoctal =>
        rcases @digit_step s lead i d hi hd (.inr hoctal) with ⟨hlt, hgoOn⟩
        rcases ih (i + 1) ((c <<< 3) + (d - 48)) hlt with ⟨e, he, hle, hend, hsame⟩
        exact ⟨e, he, Nat.le_of_succ_le hle, hend, hsame.trans hgoOn⟩
      next => exact ⟨_, rfl, Nat.le_refl i, hi, rfl⟩

/-- An escape in front of the NUL ends there, and what is behind it is behind its code. -/
theorem escapeAt_spec (hi : i < s.length) :
    ∃ e, escapeAt s i = some e ∧ i < e.2 ∧ e.2 ≤ s.length ∧
      dangles lead (s.drop e.2) = dangles lead (s.drop (i + 1)) := by
  have hhere : readAt s i = some s[i] := Mime.readAt_lt hi
  rw [escapeAt, hhere, Option.bind_some]
  split
  next =>
    rcases Mime.readAt_le (show i + 1 ≤ s.length from hi) with ⟨x, hx⟩
    rw [hx, Option.bind_some]
    split
    next hdigit =>
      rcases @digit_step s lead (i + 1) x hi hx (.inl hdigit) with ⟨hlt, hgoOn⟩
      rcases Mime.readAt_le (show i + 2 ≤ s.length from hlt) with ⟨y, hy⟩
      rw [hy, Option.bind_some]
      split
      next hdigit' =>
        rcases @digit_step s lead (i + 2) y hlt hy (.inl hdigit') with ⟨hlt', hgoOn'⟩
        exact ⟨_, rfl, by omega, hlt', hgoOn'.trans hgoOn⟩
      next => exact ⟨_, rfl, by omega, hlt, hgoOn⟩
    next => exact ⟨_, rfl, Nat.lt_succ_self i, hi, rfl⟩
  next =>
    split
    next hoctal =>
      -- The first digit is the code itself, and three digits have to be below 256.
      have hcount : ∃ k, (if escapeValue s[i] ≤ 51 then 3 else 2) = k + 1 := by
        split
        · exact ⟨2, rfl⟩
        · exact ⟨1, rfl⟩
      rcases hcount with ⟨k, hk⟩
      rcases @octalLoop_spec s lead k (i + 1) (((0 : UInt8) <<< 3) + (s[i] - 48)) hi
        with ⟨e, he, hle, hend, hsame⟩
      refine ⟨e, ?_, hle, hend, hsame⟩
      rw [hk, octalLoop, hhere, Option.bind_some, if_pos (octal_of_value hoctal), he]
    next => exact ⟨_, rfl, Nat.lt_succ_self i, hi, rfl⟩

/-- Which texts are read inside their bounds. Not more octets are written than were read. -/
theorem literalLoop_isSome (hs : 0 ∉ s) {size : Nat} (hsize : s.length < size) (fuel : Nat) :
    ∀ i dst, i ≤ s.length → s.length < i + fuel → dst.length ≤ i →
      ((literalLoop s lead size fuel i dst).isSome ↔ dangles lead (s.drop i) = false) := by
  induction fuel with
  | zero => exact fun i dst hi hfuel => absurd hi (Nat.not_le_of_lt hfuel)
  | succ fuel ih =>
      intro i dst hi hfuel hdst
      rw [literalLoop]
      rcases Nat.lt_or_eq_of_le hi with hlt | heq
      · have hdrop := List.drop_eq_getElem_cons hlt
        have hzero : s[i] ≠ 0 := fun h => hs (h ▸ List.getElem_mem hlt)
        -- Each round reads at least as much as it writes.
        have hroom : dst.length < size := by omega
        rw [Mime.readAt_lt hlt, Option.bind_some, if_neg hzero]
        by_cases hquote : s[i] = 34 ∧ lead = true
        · rw [if_pos hquote, if_pos hroom, hdrop, hquote.1]
          exact iff_of_true rfl (dangles_quote hquote.2)
        rw [if_neg hquote]
        by_cases hslash : s[i] = 92
        · rw [if_pos hslash, hdrop, hslash]
          by_cases hend : i + 1 = s.length
          · -- The NUL is taken for a code, and the reader is behind it.
            have hnul : escapeAt s (i + 1) = some (0, i + 2) := by
              rw [escapeAt, hend, Mime.readAt_length, ← hend]
              rfl
            have hbehind : readAt s (i + 2) = none := by
              rw [readAt, List.getElem?_eq_none]
              rw [List.length_append, List.length_singleton]
              omega
            rw [hnul, Option.bind_some, if_pos hroom, List.drop_eq_nil_of_le (Nat.le_of_eq hend.symm)]
            refine iff_of_false ?_ (by rw [dangles]; decide)
            cases fuel with
            | zero => exact Bool.false_ne_true
            | succ fuel =>
                rw [literalLoop, hbehind]
                exact Bool.false_ne_true
          · have hnext : i + 1 < s.length := Nat.lt_of_le_of_ne hlt hend
            rcases @escapeAt_spec s lead (i + 1) hnext with ⟨e, he, hlater, hle, hsame⟩
            rw [he, Option.bind_some, if_pos hroom, List.drop_eq_getElem_cons hnext, dangles_slash,
              ← hsame]
            exact ih e.2 _ hle (by omega) (by rw [List.length_append, List.length_singleton]; omega)
        · rw [if_neg hslash, if_pos hroom, hdrop, dangles_plain hslash hquote]
          exact ih (i + 1) _ hlt (by omega) (by rw [List.length_append, List.length_singleton]; omega)
      · rw [heq, Mime.readAt_length, Option.bind_some, if_pos rfl,
          List.drop_eq_nil_of_le (Nat.le_refl _)]
        exact iff_of_true rfl rfl

end Reading

section RoundTrip

variable {s rest : Octets} {i size fuel : Nat} {c : UInt8} {dst : Octets}

theorem escapeAt_plain (h : readAt s i = some c) (hx : escapeValue c ≠ 120)
    (hoctal : isOctal (escapeValue c) = false) : escapeAt s i = some (escapeValue c, i + 1) := by
  rw [escapeAt, h, Option.bind_some, if_neg hx, hoctal, if_neg Bool.false_ne_true]

/-- The digits of an octet are read as this octet. -/
theorem octal_digits : ∀ n < 256,
    escapeValue (48 + UInt8.ofNat n / 64) = 48 + UInt8.ofNat n / 64 ∧
      48 + UInt8.ofNat n / 64 ≠ 120 ∧ 48 + UInt8.ofNat n / 64 ≤ 51 ∧
      isOctal (48 + UInt8.ofNat n / 64) = true ∧ isOctal (48 + UInt8.ofNat n / 8 % 8) = true ∧
      isOctal (48 + UInt8.ofNat n % 8) = true ∧
      ((((((0 : UInt8) <<< 3) + (48 + UInt8.ofNat n / 64 - 48)) <<< 3) + (48 + UInt8.ofNat n / 8 % 8 - 48)) <<< 3) +
        (48 + UInt8.ofNat n % 8 - 48) = UInt8.ofNat n := by
  decide +kernel

theorem escapeAt_octal
    (h : s.drop i = [48 + c / 64, 48 + c / 8 % 8, 48 + c % 8] ++ rest) :
    escapeAt s i = some (c, i + 3) := by
  have hdigits := octal_digits c.toNat c.toNat_lt
  rw [UInt8.ofNat_toNat] at hdigits
  rcases hdigits with ⟨hcode, hx, hle, h0, h1, h2, hvalue⟩
  have hnext := Mime.drop_next h
  rw [escapeAt, Mime.readAt_cons h, Option.bind_some, hcode, if_neg hx, if_pos h0, if_pos hle,
    octalLoop, Mime.readAt_cons h, Option.bind_some, if_pos h0, octalLoop, Mime.readAt_cons hnext,
    Option.bind_some, if_pos h1, octalLoop, Mime.readAt_cons (Mime.drop_next hnext), Option.bind_some,
    if_pos h2, octalLoop, hvalue]

theorem literalLoop_slash {e : UInt8 × Nat} (h : s.drop i = 92 :: rest)
    (he : escapeAt s (i + 1) = some e) (hroom : dst.length < size) :
    literalLoop s true size (fuel + 1) i dst = literalLoop s true size fuel e.2 (dst ++ [e.1]) := by
  rw [literalLoop, Mime.readAt_cons h, Option.bind_some, if_neg (by decide), if_neg (by decide),
    if_pos rfl, he, Option.bind_some, if_pos hroom]

/-- One round takes the form of an octet and writes the octet. -/
theorem literalLoop_octet (hc : c ≠ 0) (h : s.drop i = literalOctet c ++ rest)
    (hroom : dst.length < size) :
    literalLoop s true size (fuel + 1) i dst =
      literalLoop s true size fuel (i + (literalOctet c).length) (dst ++ [c]) := by
  rw [literalOctet] at h ⊢
  by_cases hquote : c = 34
  · rw [if_pos hquote] at h ⊢
    cases hquote
    exact literalLoop_slash h (escapeAt_plain (Mime.readAt_cons (Mime.drop_next h)) (by decide)
      (by decide)) hroom
  rw [if_neg hquote] at h ⊢
  by_cases hslash : c = 92
  · rw [if_pos hslash] at h ⊢
    cases hslash
    exact literalLoop_slash h (escapeAt_plain (Mime.readAt_cons (Mime.drop_next h)) (by decide)
      (by decide)) hroom
  rw [if_neg hslash] at h ⊢
  by_cases hprint : 32 ≤ c ∧ c ≤ 126
  · rw [if_pos hprint] at h ⊢
    rw [literalLoop, Mime.readAt_cons h, Option.bind_some, if_neg hc, if_neg fun hq => hquote hq.1,
      if_neg hslash, if_pos hroom]
    rfl
  rw [if_neg hprint] at h ⊢
  -- What is left has a code of its own or three octal digits.
  cases hcode : escapeCodes.find? fun code => code.2 = c with
  | some code =>
      rw [hcode] at h
      rcases codes_spec code (List.mem_of_find?_eq_some hcode) with ⟨hvalue, hx, hoctal⟩
      have hfound := List.find?_some hcode
      have hc' : code.2 = c := of_decide_eq_true hfound
      have he := escapeAt_plain (Mime.readAt_cons (Mime.drop_next h)) (by rwa [hvalue])
        (by rwa [hvalue])
      rw [hvalue, hc'] at he
      exact literalLoop_slash h he hroom
  | none =>
      rw [hcode] at h
      exact literalLoop_slash h (escapeAt_octal (Mime.drop_next h)) hroom

theorem length_literalOctet (c : UInt8) : 0 < (literalOctet c).length := by
  rw [literalOctet]
  split
  · exact Nat.succ_pos _
  split
  · exact Nat.succ_pos _
  split
  · exact Nat.succ_pos _
  split <;> exact Nat.succ_pos _

/-- The forms up to the closing quote are read as the octets they are forms of. -/
theorem literalLoop_forms (hsize : s.length < size) (str : Octets) :
    ∀ fuel i dst, 0 ∉ str → s.length < i + fuel → dst.length ≤ i →
      s.drop i = str.flatMap literalOctet ++ [34] →
      literalLoop s true size fuel i dst = some (dst ++ str) := by
  induction str with
  | nil =>
      intro fuel i dst _ hfuel hdst h
      have hlen := congrArg List.length h
      rw [List.flatMap_nil, List.nil_append, List.length_drop, List.length_singleton] at hlen
      cases fuel with
      | zero => omega
      | succ fuel =>
          rw [literalLoop, Mime.readAt_cons h, Option.bind_some, if_neg (by decide),
            if_pos ⟨rfl, rfl⟩, if_pos (by omega), List.append_nil]
  | cons c str ih =>
      intro fuel i dst hnul hfuel hdst h
      rw [List.flatMap_cons, List.append_assoc] at h
      have hlen := congrArg List.length h
      have hpos := length_literalOctet c
      rw [List.length_drop, List.length_append] at hlen
      cases fuel with
      | zero => omega
      | succ fuel =>
          have hrun := ih fuel (i + (literalOctet c).length) (dst ++ [c])
            (fun hmem => hnul (List.mem_cons_of_mem _ hmem)) (by omega)
            (by rw [List.length_append, List.length_singleton]; omega) (Mime.drop_split h)
          rw [literalLoop_octet (fun hc => hnul (hc ▸ List.mem_cons_self)) h (by omega), hrun,
            List.append_assoc, List.singleton_append]

theorem literal_toLiteral (str : Octets) (hnul : 0 ∉ str) :
    literal (toLiteral str) = some str := by
  have h : (toLiteral str).drop 1 = str.flatMap literalOctet ++ [34] := rfl
  have hwhole : str.takeWhile (fun x => decide (x ≠ 0)) = str := by
    refine List.takeWhile_eq_self_iff.mpr fun x hx => decide_eq_true ?_
    rintro rfl
    exact hnul hx
  rw [literal, show readAt (toLiteral str) 0 = some 34 from rfl, Option.bind_some, if_pos rfl,
    decide_eq_true rfl,
    literalLoop_forms (Nat.lt_succ_self _) str _ 1 [] hnul (by omega) (Nat.zero_le _) h,
    Option.map_some, List.nil_append, hwhole]

end RoundTrip

theorem literal_isSome (str : Octets) (hnul : 0 ∉ str) :
    (literal str).isSome ↔ ¬ OpenEnd str := by
  rw [literal, OpenEnd]
  cases str with
  | nil => exact iff_of_true rfl (by decide)
  | cons c rest =>
      have hrun := fun (lead : Bool) (start : Nat) (hstart : start ≤ 1) =>
        @literalLoop_isSome (c :: rest) lead hnul ((c :: rest).length + 1) (Nat.lt_succ_self _)
          ((c :: rest).length + 1) start []
          (Nat.le_trans hstart (Nat.succ_le_succ (Nat.zero_le _))) (by omega) (Nat.zero_le _)
      have hhere : (c :: rest).drop 0 = c :: rest := rfl
      rw [Mime.readAt_cons hhere, Option.bind_some, Option.isSome_map, List.head?_cons, List.tail_cons]
      by_cases hquote : c = 34
      · rw [if_pos hquote, if_pos (congrArg some hquote), decide_eq_true hquote, hrun true 1 (Nat.le_refl 1),
          List.drop_succ_cons, List.drop_zero, Bool.not_eq_true]
      · rw [if_neg hquote, if_neg fun h => hquote (Option.some.inj h), decide_eq_false hquote, hrun false 0 (Nat.zero_le 1),
          List.drop_zero, Bool.not_eq_true]

/-- A literal gives back its string. Any other text is read up to its NUL, and written into an
    array of its size, exactly when no backslash with nothing behind it is at its end. -/
theorem literal_iff (s t : Mime.CString) :
    literal (toLiteral s.octets) = some s.octets ∧ ((literal t.octets).isSome ↔ ¬ OpenEnd t.octets) :=
  ⟨literal_toLiteral s.octets s.noNul, literal_isSome t.octets t.noNul⟩

/-- A text that is one backslash is read behind its NUL. -/
theorem literal_backslash : ¬ (literal [92]).isSome := by
  decide

end Text

end CryptoOpal

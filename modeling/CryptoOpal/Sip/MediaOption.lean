import CryptoOpal.Lib.Octets
import Mathlib.Data.Nat.Digits.Defs
import Mathlib.Tactic.IntervalCases

/-!
# Values of Media Options

The options of a media format are numbers, enumerations, strings and octets. Each is printed as
a text and read from one. What is read is the beginning of the text: a number ends where the
digits do, an enumeration is the first of its names that goes on with what was read, octets end
at the first character that is not a digit.

## Main definitions

* `OptionValue`: A value with its bounds or names.
* `OptionValue.asString`, `OptionValue.fromString`: Printing and reading.

## Theorems

* `readDigits_decimal`, `readNumber_decimal`: Numbers.
* `readEnum_name`: A name that no other stands in front of.
* `readString_plain`: Strings without blanks and quotes.
* `readOctets_hexText`: Octets.
-/

namespace CryptoOpal

namespace Sip

open Lib (Octets)

/-- The characters of a string. -/
abbrev Text := List Char

/-- `isspace`. -/
def isSpace (c : Char) : Bool := c = ' ' ∨ (9 ≤ c.toNat ∧ c.toNat ≤ 13)

/-- `Trim`. -/
def trim (t : Text) : Text := ((t.dropWhile isSpace).reverse.dropWhile isSpace).reverse

/-- Comparison of `PCaselessString`. -/
def caseless (a b : Text) : Bool := a.map Char.toLower = b.map Char.toLower

/-- `Tokenise(';', false)`: empty tokens are skipped, other than a last one. -/
def tokenise (t : Text) : List Text :=
  if t = [] then []
  else (t.splitOn ';').dropLast.filter (· ≠ []) ++ [(t.splitOn ';').getLastD []]

/-- The types of numbers: `bool`, `int` and `unsigned`. -/
inductive NumberType where
  | boolean
  | integer
  | unsigned
  deriving DecidableEq

/-- The numbers of a type. -/
def NumberType.InRange : NumberType → Int → Prop
  | .boolean, v => v = 0 ∨ v = 1
  | .integer, v => -2147483648 ≤ v ∧ v < 2147483648
  | .unsigned, v => 0 ≤ v ∧ v < 4294967296

instance (type : NumberType) (v : Int) : Decidable (type.InRange v) := by
  cases type
  · exact inferInstanceAs (Decidable (_ ∨ _))
  · exact inferInstanceAs (Decidable (_ ∧ _))
  · exact inferInstanceAs (Decidable (_ ∧ _))

section Digits

/-- A decimal digit. -/
def digitChar (d : Nat) : Char := Char.ofNat (48 + d)

def isDigit (c : Char) : Bool := 48 ≤ c.toNat ∧ c.toNat ≤ 57

/-- A number in decimal. -/
def decimal (n : Nat) : Text :=
  if n = 0 then ['0'] else ((Nat.digits 10 n).map digitChar).reverse

/-- A number with its sign. -/
def decimalInt (v : Int) : Text := if v < 0 then '-' :: decimal v.natAbs else decimal v.natAbs

/-- The digits at the start of a text. -/
def readDigits (t : Text) : Option Nat :=
  let digits := t.takeWhile isDigit
  if digits = [] then none
  else some (digits.foldl (fun n c => 10 * n + (c.toNat - 48)) 0)

/-- What a type makes of a sign and digits. An unsigned number with a minus sign wraps. -/
def NumberType.ofSign (type : NumberType) (negative : Bool) (n : Nat) : Option Int :=
  let v : Int := if negative then -n else n
  match type with
  | .unsigned => if n < 4294967296 then some (v % 4294967296) else none
  | _ => if type.InRange v then some v else none

/-- `>>` to a number. -/
def readNumber (type : NumberType) (t : Text) : Option Int :=
  match t.dropWhile isSpace with
  | '-' :: rest => (readDigits rest).bind (type.ofSign true)
  | '+' :: rest => (readDigits rest).bind (type.ofSign false)
  | rest => (readDigits rest).bind (type.ofSign false)

end Digits

section Enumerations

/-- The loop of `ReadFrom`: as long as some name goes on with it, another character is read.
The results are what was read and the first name that went on with it. -/
def longestMatch (names : List Text) : Text → Text → Nat → Text × Nat
  | str, [], found => (str, found)
  | str, c :: rest, found =>
    match names.findIdx? (fun e => caseless (str ++ [c]) (e.take (str.length + 1))) with
    | some i => longestMatch names (str ++ [c]) rest i
    | none => (str, found)

/-- `ReadFrom` of an enumeration. It fails with the number of names. -/
def readEnum (names : List Text) (t : Text) : Nat :=
  let (str, found) := longestMatch names [] t 0
  if caseless str (names.getD found []) then found else names.length

/-- `PrintOn` of an enumeration. -/
def enumText (names : List Text) (i : Nat) : Text :=
  if i < names.length then names.getD i [] else '<' :: decimal i ++ ['>']

end Enumerations

section Strings

/-- `ReadFrom` of a string: a literal in quotes, or all to the end of the line. -/
def readString (literal : Text → Text) (t : Text) : Text :=
  match t.dropWhile isSpace with
  | [] => []
  | c :: rest =>
    if c = '"' then literal (c :: rest)
    else
      let line := (c :: rest).takeWhile (· ≠ '\n')
      if line.getLast? = some '\r' then line.dropLast else line

end Strings

section Hex

/-- A hexadecimal digit. -/
def hexDigit (d : Nat) : Char := Char.ofNat (if d < 10 then 48 + d else 87 + d)

/-- Two digits of each octet. -/
def hexText (value : Octets) : Text :=
  value.flatMap (fun b => [hexDigit (b.toNat / 16), hexDigit (b.toNat % 16)])

/-- The digits that are read; a blank is a zero. -/
def nibble (c : Char) : Option Nat :=
  if isDigit c then some (c.toNat - 48)
  else if 97 ≤ c.toNat ∧ c.toNat ≤ 102 then some (c.toNat - 87)
  else if 65 ≤ c.toNat ∧ c.toNat ≤ 70 then some (c.toNat - 55)
  else if c = ' ' then some 0
  else none

/-- `ReadFrom` of octets, after a first digit or not. -/
def readOctets : Option Nat → Text → Octets
  | _, [] => []
  | pending, c :: rest =>
    match nibble c, pending with
    | none, _ => []
    | some d, none => readOctets (some d) rest
    | some d, some high => UInt8.ofNat (16 * high + d) :: readOctets none rest

end Hex

/-- The value of an option, with the bounds of a number and the names of an enumeration. Octets
are those that are printed in hexadecimal. -/
inductive OptionValue where
  | number (type : NumberType) (minimum maximum value : Int)
  | enumeration (names : List Text) (value : Nat)
  | string (value : Text)
  | octets (value : Octets)
  deriving DecidableEq

namespace OptionValue

/-- `AsString`. -/
def asString : OptionValue → Text
  | number _ _ _ v => decimalInt v
  | enumeration names i => enumText names i
  | string s => s
  | octets b => hexText b

/-- `FromString`. A number that cannot be read or is out of bounds is left as it was. -/
def fromString (literal : Text → Text) : OptionValue → Text → OptionValue
  | number type lo hi v, t =>
    number type lo hi ((readNumber type t).elim v (fun x => if lo ≤ x ∧ x ≤ hi then x else v))
  | enumeration names _, t => enumeration names (readEnum names t)
  | string _, t => string (readString literal t)
  | octets _, t => octets (readOctets none t)

end OptionValue

theorem takeWhile_eq_self {p : Char → Bool} {t : Text} (h : ∀ c ∈ t, p c = true) :
    t.takeWhile p = t := by
  have happend : (t ++ []).takeWhile p = t ++ [].takeWhile p := List.takeWhile_append_of_pos h
  rwa [List.append_nil, List.takeWhile_nil, List.append_nil] at happend

section Digits

theorem toNat_digitChar {d : Nat} (h : d < 10) : (digitChar d).toNat = 48 + d := by
  interval_cases d <;> rfl

theorem isDigit_decimal {n : Nat} {c : Char} (h : c ∈ decimal n) : isDigit c = true := by
  unfold decimal at h
  split at h
  · rw [List.mem_singleton.1 h]
    rfl
  · rw [List.mem_reverse, List.mem_map] at h
    rcases h with ⟨d, hd, rfl⟩
    have hlt : d < 10 := Nat.digits_lt_base (by decide) hd
    simp only [isDigit, toNat_digitChar hlt]
    exact decide_eq_true ⟨by omega, by omega⟩

theorem decimal_ne_nil (n : Nat) : decimal n ≠ [] := by
  unfold decimal
  split
  · exact List.cons_ne_nil _ _
  · rename_i hn
    simpa [Nat.digits_eq_nil_iff_eq_zero] using hn

/-- The digits of a number are read. -/
theorem readDigits_decimal (n : Nat) : readDigits (decimal n) = some n := by
  have htake : (decimal n).takeWhile isDigit = decimal n :=
    takeWhile_eq_self (fun c hc => isDigit_decimal hc)
  unfold readDigits
  rw [htake, if_neg (decimal_ne_nil n)]
  congr 1
  unfold decimal
  split
  · rename_i hn
    rw [hn]
    rfl
  · rw [List.foldl_reverse, List.foldr_map]
    conv_rhs => rw [← Nat.ofDigits_digits 10 n, Nat.ofDigits_eq_foldr]
    -- The characters have the values of the digits.
    have hall : ∀ l : List Nat, (∀ d ∈ l, d < 10) →
        l.foldr (fun d n => 10 * n + ((digitChar d).toNat - 48)) 0 =
          l.foldr (fun d n => ((d : Nat) : Nat) + 10 * n) 0 := by
      intro l hl
      induction l with
      | nil => rfl
      | cons d l ih =>
          rw [List.foldr_cons, List.foldr_cons, ih (fun x hx => hl x (List.mem_cons_of_mem _ hx)),
            toNat_digitChar (hl d List.mem_cons_self)]
          omega
    exact hall _ (fun d hd => Nat.digits_lt_base (by decide) hd)

theorem head_decimal {n : Nat} {c : Char} {rest : Text} (h : decimal n = c :: rest) :
    isDigit c = true := isDigit_decimal (by rw [h]; exact List.mem_cons_self)

theorem not_isSpace_of_isDigit {c : Char} (h : isDigit c = true) : isSpace c = false := by
  have hbounds := of_decide_eq_true h
  refine decide_eq_false (fun hspace => ?_)
  rcases hspace with rfl | hspace
  · exact absurd hbounds (by decide)
  · omega

/-- A number of the type is read. -/
theorem readNumber_decimal {type : NumberType} {v : Int} (h : type.InRange v) :
    readNumber type (decimalInt v) = some v := by
  unfold readNumber decimalInt
  -- The sign is read first; a digit is neither a blank nor a sign.
  by_cases hneg : v < 0
  · rw [if_pos hneg, List.dropWhile_cons_of_neg (by decide)]
    simp only [readDigits_decimal, Option.bind_some]
    cases type with
    | boolean =>
        rcases h with rfl | rfl
        · exact absurd hneg (by decide)
        · exact absurd hneg (by decide)
    | integer =>
        have hv : -(v.natAbs : Int) = v := by omega
        simp only [NumberType.ofSign, if_true, hv, if_pos h]
    | unsigned => exact absurd h.1 (by omega)
  · rw [if_neg hneg]
    have hv : (v.natAbs : Int) = v := by omega
    have hsign : type.ofSign false v.natAbs = some v := by
      cases type with
      | boolean => simp only [NumberType.ofSign, Bool.false_eq_true, if_false, hv, if_pos h]
      | integer => simp only [NumberType.ofSign, Bool.false_eq_true, if_false, hv, if_pos h]
      | unsigned =>
          have hlt : v.natAbs < 4294967296 := by
            have := h.2
            omega
          simp only [NumberType.ofSign, Bool.false_eq_true, if_false, hv, if_pos hlt]
          rw [Int.emod_eq_of_lt h.1 h.2]
    cases hdec : decimal v.natAbs with
    | nil => exact absurd hdec (decimal_ne_nil _)
    | cons c rest =>
        have hc := head_decimal hdec
        rw [List.dropWhile_cons_of_neg (by rw [not_isSpace_of_isDigit hc]; decide)]
        have hread : (readDigits (c :: rest)).bind (type.ofSign false) = some v := by
          rw [← hdec, readDigits_decimal, Option.bind_some, hsign]
        -- The first character is no sign.
        split
        · rename_i heq
          rw [(List.cons.inj heq).1] at hc
          exact absurd hc (by decide)
        · rename_i heq
          rw [(List.cons.inj heq).1] at hc
          exact absurd hc (by decide)
        · exact hread

end Digits

section Enumerations

theorem caseless_refl (t : Text) : caseless t t = true := decide_eq_true rfl

variable {names : List Text} {e : Text} {i : Nat}

/-- What is read goes on as long as the name does. -/
theorem longestMatch_name (hin : names[i]? = some e)
    (hfirst : names.findIdx? (fun x => caseless e (x.take e.length)) = some i)
    (str rest : Text) (found : Nat) (hsplit : str ++ rest = e) (hfound : rest = [] → found = i) :
    longestMatch names str rest found = (e, i) := by
  induction rest generalizing str found with
  | nil =>
      rw [longestMatch, hfound rfl, ← hsplit, List.append_nil]
  | cons c rest ih =>
      have hlong : str.length + 1 ≤ e.length := by
        rw [← hsplit, List.length_append, List.length_cons]
        omega
      have hnext : str ++ [c] ++ rest = e := by rw [List.append_assoc]; exact hsplit
      have htake : e.take (str.length + 1) = str ++ [c] := by
        rw [← hnext, List.take_left' (by rw [List.length_append]; rfl)]
      -- The name itself goes on, so some name is found.
      cases hsome : names.findIdx?
          (fun e => caseless (str ++ [c]) (e.take (str.length + 1))) with
      | none =>
          rw [List.findIdx?_eq_none_iff] at hsome
          have := hsome e (List.mem_of_getElem? hin)
          rw [htake, caseless_refl] at this
          exact absurd this (by decide)
      | some j =>
          rw [longestMatch, hsome]
          refine ih (str ++ [c]) j hnext (fun hrest => ?_)
          rw [hrest, List.append_nil] at hnext
          have hlength : str.length + 1 = e.length := by
            rw [← hnext, List.length_append]
            rfl
          rw [hnext, hlength, hfirst] at hsome
          exact (Option.some.inj hsome).symm

/-- A name is read if it is the first that begins with it. -/
theorem readEnum_name (hin : names[i]? = some e) (hne : e ≠ [])
    (hfirst : names.findIdx? (fun x => caseless e (x.take e.length)) = some i) :
    readEnum names e = i := by
  unfold readEnum
  rw [longestMatch_name hin hfirst [] e 0 rfl (fun h => absurd h hne)]
  have hget : names.getD i [] = e := by rw [List.getD_eq_getElem?_getD, hin, Option.getD_some]
  simp only [hget, caseless_refl, if_true]

theorem enumText_eq (hin : names[i]? = some e) : enumText names i = e := by
  have hlt := (List.getElem?_eq_some_iff.1 hin).1
  rw [enumText, if_pos hlt, List.getD_eq_getElem?_getD, hin, Option.getD_some]

end Enumerations

/-- Neither blanks nor quotes, nor what stands between parameters. -/
def Clean (t : Text) : Prop := ∀ c ∈ t, isSpace c = false ∧ c ≠ '"' ∧ c ≠ '=' ∧ c ≠ ';'

/-- Neither blanks nor quotes. -/
def Plain (t : Text) : Prop := ∀ c ∈ t, isSpace c = false ∧ c ≠ '"'

instance (t : Text) : Decidable (Clean t) := List.decidableBAll _ t

instance (t : Text) : Decidable (Plain t) := List.decidableBAll _ t

theorem Clean.plain {t : Text} (h : Clean t) : Plain t := fun c hc => ⟨(h c hc).1, (h c hc).2.1⟩

/-- A string without blanks and quotes is read. -/
theorem readString_plain (literal : Text → Text) {t : Text} (h : Plain t) :
    readString literal t = t := by
  cases t with
  | nil => rfl
  | cons c rest =>
      have hc := h c List.mem_cons_self
      have hline : (c :: rest).takeWhile (· ≠ '\n') = c :: rest := by
        refine takeWhile_eq_self (fun x hx => decide_eq_true ?_)
        rintro rfl
        exact absurd (h _ hx).1 (by decide)
      have hlast : (c :: rest).getLast? ≠ some '\r' := by
        intro hlast
        exact absurd (h _ (List.mem_of_getLast? hlast)).1 (by decide)
      unfold readString
      rw [List.dropWhile_cons_of_neg (by rw [hc.1]; decide)]
      simp only [if_neg hc.2, hline, if_neg hlast]

section Hex

theorem nibble_hexDigit {d : Nat} (h : d < 16) : nibble (hexDigit d) = some d := by
  interval_cases d <;> rfl

/-- Octets are read. -/
theorem readOctets_hexText (value : Octets) : readOctets none (hexText value) = value := by
  induction value with
  | nil => rfl
  | cons b value ih =>
      have hb := b.toNat_lt
      rw [hexText, List.flatMap_cons]
      simp only [List.cons_append, List.nil_append, readOctets]
      -- Two digits are an octet, and nothing is pending after them.
      rw [nibble_hexDigit (by omega), nibble_hexDigit (by omega)]
      simp only
      rw [← hexText, ih, show 16 * (b.toNat / 16) + b.toNat % 16 = b.toNat by omega,
        UInt8.ofNat_toNat]

end Hex

end Sip

end CryptoOpal

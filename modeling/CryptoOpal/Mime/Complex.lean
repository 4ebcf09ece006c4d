import CryptoOpal.Mime.Text
import CryptoOpal.Url.Legacy
import Mathlib.Data.List.Nodup
import Mathlib.Data.List.Perm.Subperm

/-!
# Structured Header Fields

A field holds values that are separated by commas, and each of them has parameters behind
semicolons. A value may be in angle brackets, and the value of a parameter in quotes. The parser
moves one position over the text by searches. All it finds goes to one list, with a number in
front of what does not belong to the first value.

A parameter without a value is read twice, the second time as a value of its own, when a comma or
the end of the line is behind it: the parser leaves it with its position still in front of the
name.

The parser does not end when a value begins with a semicolon. It reads in front of a string when
the value of a parameter is empty.

## Main definitions

* `readValue`, `readParameter`: What the position is moved over.
* `parameters`, `values`: The two loops.
* `parseComplex`: The parser.
* `Scan`: Where in a field an octet is.
* `WellFormed`: No value begins with a semicolon, and no parameter has an empty value.

## Theorems

* `readValue_spec`, `readParameter_spec`: How far the position is moved.
* `parameters_spec`, `values_spec`: The loops end when a field is well formed.
* `parseComplex_iff`: The parser ends and stays in its strings.
-/

namespace CryptoOpal

namespace Mime

open Lib (Octets)

open Url (isSpace decimal)

/-- The variables. -/
abbrev Info := List (Octets × Octets)

/-- `SetAt`. -/
def Info.setAt (info : Info) (key value : Octets) : Info :=
  info.filter (fun entry => decide (entry.1 ≠ key)) ++ [(key, value)]

/-- A number in front of a key. -/
def numbered (count : Nat) : Octets := decimal count ++ [58]

/-- `Contains`. -/
def Info.contains (info : Info) (key : Octets) : Bool := info.any fun entry => decide (entry.1 = key)

theorem Info.contains_iff (info : Info) (key : Octets) :
    info.contains key = true ↔ key ∈ info.map Prod.fst := by
  rw [Info.contains, List.any_eq_true, List.mem_map]
  refine exists_congr fun entry => and_congr_right fun _ => decide_eq_true_iff

/-- The loop for a number that is not a key. -/
def freeNumber (info : Info) : Nat → Nat → Option Octets
  | 0, _ => none
  | left + 1, count =>
    if info.contains (numbered (count + 1)) then freeNumber info left (count + 1)
    else some (numbered (count + 1))

/-- `keyPrefix`. -/
def keyPrefixOf (info : Info) : Option Octets :=
  if info = [] then some [] else freeNumber info (info.length + 1) 0

/-- A semicolon or a comma. -/
def isSeparator (c : UInt8) : Bool := decide (c = 59 ∨ c = 44)

/-- What is behind the name of a parameter. -/
def isNameEnd (c : UInt8) : Bool := decide (c = 61 ∨ c = 59 ∨ c = 44)

/-- A comma or a blank. -/
def isCommaOrSpace (c : UInt8) : Bool := isSpace c || decide (c = 44)

/-- A quote. -/
def isQuote (c : UInt8) : Bool := decide (c = 34)

/-- The end of an angle bracket. -/
def isBracketEnd (c : UInt8) : Bool := decide (c = 62)

/-- Where a value begins; nowhere when the line ends behind commas. -/
def skipCommas (field : Octets) (tagSep : Nat) : Option (Option Nat) :=
  (readAt field tagSep).bind fun c =>
    if c = 44 then
      (skipOver isCommaOrSpace field tagSep).bind fun start =>
        (readAt field start).map fun c' => if c' = 0 then none else some start
    else some (some tagSep)

/-- A value, and where it ends. -/
def readValue (field : Octets) (tagSep : Nat) : Option (Octets × Option Nat) :=
  (readAt field tagSep).bind fun c =>
    if c = 60 then
      (find isBracketEnd field (some tagSep)).bind fun endtoken =>
        (sub field (tagSep + 1) endtoken).bind fun value =>
          (find isSeparator field endtoken).map fun next => (value, next)
    else
      (find isSeparator field (some tagSep)).bind fun nextSep =>
        (sub field tagSep nextSep).bind fun part =>
          (trim part).map fun value => (value, nextSep)

/-- How the loop over parameters goes on. -/
inductive Next where
  | leave
  | again (tagSep : Option Nat)
  deriving DecidableEq

/-- A parameter. -/
structure Parameter where
  tag : Octets
  value : Octets
  next : Next
  deriving DecidableEq

/-- The quote that ends a value, and that no backslash is in front of. -/
def findQuote (field : Octets) : Nat → Nat → Option (Option Nat)
  | 0, _ => none
  | left + 1, quote =>
    (find isQuote field (some quote)).bind fun found =>
      match found with
      | none => some none
      | some 0 => none
      | some (before + 1) =>
        (readAt field before).bind fun c =>
          if c = 92 then findQuote field left (before + 2) else some (some (before + 1))

/-- The value of a parameter, in quotes. -/
def readQuoted (field tag : Octets) (pos : Nat) : Option Parameter :=
  (findQuote field (field.length + 1) pos).bind fun quote =>
    (sub field pos quote).bind fun value =>
      (find isSeparator field quote).map fun tagSep =>
        ⟨tag, value.filter fun c => decide (c ≠ 92), .again tagSep⟩

/-- The value of a parameter, without quotes. -/
def readUnquoted (field tag : Octets) (pos : Nat) : Option Parameter :=
  (find isSeparator field (some pos)).bind fun tagSep =>
    (sub field pos tagSep).bind fun part =>
      (rightTrim part).map fun value => ⟨tag, value, .again tagSep⟩

/-- What is behind the name of a parameter. -/
def readBehindName (field tag : Octets) (pos : Nat) : Option Parameter :=
  (readAt field pos).bind fun c =>
    if c = 44 then some ⟨tag, [], .leave⟩
    else if c = 59 then some ⟨tag, [], .again (some pos)⟩
    else
      (skipOver isSpace field (pos + 1)).bind fun start =>
        (readAt field start).bind fun c' =>
          if c' = 34 then readQuoted field tag (start + 1) else readUnquoted field tag start

/-- A parameter from its name on. -/
def readParameter (field : Octets) (tagSep : Nat) : Option Parameter :=
  (find isNameEnd field (some tagSep)).bind fun found =>
    (sub field tagSep found).bind fun part =>
      (trim part).bind fun tag =>
        match found with
        | none => some ⟨tag, [], .leave⟩
        | some pos => readBehindName field tag pos

/-- The loop over the parameters of a value. -/
def parameters (field keyPrefix : Octets) : Nat → Info → Option Nat → Option (Info × Option Nat)
  | _, info, none => some (info, none)
  | 0, _, some _ => none
  | fuel + 1, info, some tagSep =>
    (readAt field tagSep).bind fun c =>
      if c = 44 then some (info, some tagSep)
      else
        (readParameter field (tagSep + 1)).bind fun found =>
          match found.next with
          | .leave => some (info.setAt (keyPrefix ++ found.tag) found.value, some (tagSep + 1))
          | .again tagSep' =>
            parameters field keyPrefix fuel (info.setAt (keyPrefix ++ found.tag) found.value)
              tagSep'

/-- The loop over the values of a line. -/
def values (field : Octets) : Nat → Info → Option Nat → Option Info
  | _, info, none => some info
  | 0, _, some _ => none
  | fuel + 1, info, some tagSep =>
    (skipCommas field tagSep).bind fun found =>
      match found with
      | none => some info
      | some start =>
        (readAt field start).bind fun c =>
          -- `continue`, with the position where it is
          if c = 59 then values field fuel info (some start)
          else
            (keyPrefixOf info).bind fun keyPrefix =>
              (readValue field start).bind fun value =>
                (parameters field keyPrefix fuel (info.setAt keyPrefix value.1) value.2).bind
                  fun left => values field fuel left.1 left.2

/-- The rest of `Lines`, with whether a CR is in front of it and with the line so far. -/
def linesFrom : Bool → Octets → Octets → List Octets
  | _, line, [] => if line = [] then [] else [line]
  | afterReturn, line, c :: rest =>
    if afterReturn = true ∧ c = 10 then linesFrom false line rest
    else if c = 13 ∨ c = 10 then line :: linesFrom (decide (c = 13)) [] rest
    else linesFrom false (line ++ [c]) rest

/-- `Lines`. -/
def lines (fieldValue : Octets) : List Octets := linesFrom false [] fieldValue

/-- The loop over the lines. -/
def parseLines (fuel : Nat) : Info → List Octets → Option Info
  | info, [] => some info
  | info, field :: fields =>
    (values field fuel info (some 0)).bind fun info' => parseLines fuel info' fields

/-- `ParseComplex`. -/
def parseComplex (fuel : Nat) (fieldValue : Octets) : Option (Bool × Info) :=
  (parseLines fuel [] (lines fieldValue)).map fun info => (decide (info ≠ []), info)

/-- Where in a line an octet is. -/
inductive Scan where
  /-- The first octet of the line. -/
  | start
  /-- Behind a comma. -/
  | between
  | value
  | bracket
  /-- Behind a semicolon. -/
  | name
  | nameText
  /-- The name begins with an angle bracket. -/
  | nameBracket
  /-- Behind an equals sign. -/
  | equals
  | quoted
  /-- Behind a backslash in quotes. -/
  | escaped
  | wrong
  deriving DecidableEq

/-- The octet behind this one. -/
def Scan.next : Scan → UInt8 → Scan
  | .start, c =>
    if c = 59 then .wrong else if c = 44 then .between else if c = 60 then .bracket else .value
  | .between, c =>
    if c = 59 then .wrong
    else if c = 44 ∨ isSpace c = true then .between
    else if c = 60 then .bracket else .value
  | .value, c => if c = 59 then .name else if c = 44 then .between else .value
  | .bracket, c => if c = 62 then .value else .bracket
  | .name, c =>
    if c = 61 then .equals
    else if c = 59 then .name
    else if c = 44 then .between
    else if c = 60 then .nameBracket else .nameText
  | .nameText, c =>
    if c = 61 then .equals
    else if c = 59 then .name
    else if c = 44 then .between else .nameText
  | .nameBracket, c =>
    -- behind a comma the bracket is read as that of a value
    if c = 61 then .equals
    else if c = 59 then .name
    else if c = 44 then .bracket
    else if c = 62 then .nameText else .nameBracket
  | .equals, c =>
    if isSpace c = true then .equals
    else if c = 34 then .quoted
    else if c = 59 ∨ c = 44 then .wrong else .value
  | .quoted, c => if c = 34 then .value else if c = 92 then .escaped else .quoted
  | .escaped, c => if c = 92 then .escaped else .quoted
  | .wrong, _ => .wrong

/-- A line may end here. -/
def Scan.mayEnd (q : Scan) : Bool := decide (q ≠ .equals ∧ q ≠ .wrong)

/-- What is left of a line is well formed. -/
def ends (q : Scan) (rest : Octets) : Bool := (rest.foldl Scan.next q).mayEnd

/-- No value begins with a semicolon, and no parameter without quotes has an empty value. -/
def WellFormed (line : Octets) : Prop := ends .start line = true

section Scanning

variable {q q' : Scan} {before rest : Octets} {c : UInt8}

theorem ends_append (q : Scan) (before rest : Octets) :
    ends q (before ++ rest) = ends (before.foldl Scan.next q) rest := by
  rw [ends, ends, List.foldl_append]

theorem ends_cons (q : Scan) (c : UInt8) (rest : Octets) :
    ends q (c :: rest) = ends (q.next c) rest := rfl

theorem ends_wrong (rest : Octets) : ends .wrong rest = false := by
  induction rest with
  | nil => rfl
  | cons c rest ih => rw [ends_cons, Scan.next, ih]

/-- Octets that leave everything as it is. -/
theorem foldl_stay (h : ∀ c ∈ before, q.next c = q) : before.foldl Scan.next q = q := by
  induction before with
  | nil => rfl
  | cons c before ih =>
      rw [List.foldl_cons, h c List.mem_cons_self]
      exact ih fun x hx => h x (List.mem_cons_of_mem _ hx)

theorem ends_stay (h : ∀ c ∈ before, q.next c = q) (rest : Octets) :
    ends q (before ++ rest) = ends q rest := by
  rw [ends_append, foldl_stay h]

theorem separator_iff : isSeparator c = true ↔ c = 59 ∨ c = 44 := decide_eq_true_iff

theorem not_separator : isSeparator c = false ↔ c ≠ 59 ∧ c ≠ 44 := by
  rw [isSeparator, decide_eq_false_iff_not, not_or]

theorem not_nameEnd : isNameEnd c = false ↔ c ≠ 61 ∧ c ≠ 59 ∧ c ≠ 44 := by
  rw [isNameEnd, decide_eq_false_iff_not, not_or, not_or]

theorem value_stay (h : isSeparator c = false) : Scan.next .value c = .value := by
  obtain ⟨hsemicolon, hcomma⟩ := not_separator.mp h
  rw [Scan.next, if_neg hsemicolon, if_neg hcomma]

/-- A value begins with any octet but a separator. -/
theorem ends_start_cons (h : isSeparator c = false) :
    ends .start (c :: rest) = if c = 60 then ends .bracket rest else ends .value rest := by
  obtain ⟨hsemicolon, hcomma⟩ := not_separator.mp h
  rw [ends_cons, Scan.next, if_neg hsemicolon, if_neg hcomma]
  split <;> rfl

/-- In front of a separator, a comma is as it is at the start of a line. -/
theorem ends_value_comma (rest : Octets) : ends .value (44 :: rest) = ends .start (44 :: rest) :=
  rfl

/-- A name, and what it is when it is read as a value. -/
inductive Reread : Scan → Scan → Prop where
  | name : Reread .name .start
  | nameText : Reread .nameText .value
  | nameBracket : Reread .nameBracket .bracket

theorem reread_next (h : Reread q q') (hc : isNameEnd c = false) :
    Reread (q.next c) (q'.next c) := by
  obtain ⟨hequals, hsemicolon, hcomma⟩ := not_nameEnd.mp hc
  cases h with
  | name =>
      rw [Scan.next, Scan.next, if_neg hequals, if_neg hsemicolon, if_neg hcomma,
        if_neg hsemicolon, if_neg hcomma]
      split
      · exact .nameBracket
      · exact .nameText
  | nameText =>
      rw [Scan.next, Scan.next, if_neg hequals, if_neg hsemicolon, if_neg hcomma,
        if_neg hsemicolon, if_neg hcomma]
      exact .nameText
  | nameBracket =>
      rw [Scan.next, Scan.next, if_neg hequals, if_neg hsemicolon, if_neg hcomma]
      split
      · exact .nameText
      · exact .nameBracket

theorem reread_foldl (h : Reread q q') (hbefore : ∀ c ∈ before, isNameEnd c = false) :
    Reread (before.foldl Scan.next q) (before.foldl Scan.next q') := by
  induction before generalizing q q' with
  | nil => exact h
  | cons c before ih =>
      exact ih (reread_next h (hbefore c List.mem_cons_self))
        fun x hx => hbefore x (List.mem_cons_of_mem _ hx)

/-- A name with a comma or the end of the line behind it is read again as a value. -/
theorem ends_reread (hbefore : ∀ c ∈ before, isNameEnd c = false)
    (hrest : rest = [] ∨ ∃ behind, rest = 44 :: behind) :
    ends .name (before ++ rest) = ends .start (before ++ rest) := by
  rw [ends_append, ends_append]
  have hread := reread_foldl .name hbefore
  revert hread
  generalize before.foldl Scan.next .name = q
  generalize before.foldl Scan.next .start = q'
  intro hread
  rcases hrest with rfl | ⟨behind, rfl⟩
  · cases hread <;> rfl
  · cases hread <;> rfl

/-- A name with an equals sign or a semicolon behind it. -/
theorem ends_name (hbefore : ∀ c ∈ before, isNameEnd c = false) :
    ends .name (before ++ 61 :: rest) = ends .equals rest ∧
      ends .name (before ++ 59 :: rest) = ends .name rest := by
  rw [ends_append, ends_append]
  have hread := reread_foldl .name hbefore
  revert hread
  generalize before.foldl Scan.next .name = q
  generalize before.foldl Scan.next .start = q'
  intro hread
  cases hread <;> exact ⟨rfl, rfl⟩

/-- Octets in quotes. -/
theorem foldl_quoted (h : ∀ c ∈ before, isQuote c = false) :
    (q = .quoted ∨ q = .escaped) →
      before.foldl Scan.next q = .quoted ∨ before.foldl Scan.next q = .escaped := by
  induction before generalizing q with
  | nil => exact fun hq => hq
  | cons c before ih =>
      intro hq
      rw [List.foldl_cons]
      have hquote : c ≠ 34 := of_decide_eq_false (h c List.mem_cons_self)
      refine ih (fun x hx => h x (List.mem_cons_of_mem _ hx)) ?_
      rcases hq with rfl | rfl
      · rw [Scan.next, if_neg hquote]
        split
        · exact .inr rfl
        · exact .inl rfl
      · rw [Scan.next]
        split
        · exact .inr rfl
        · exact .inl rfl

/-- Octets in quotes, with the last of them. -/
theorem foldl_quoted_last (h : ∀ x ∈ before ++ [c], isQuote x = false) :
    (before ++ [c]).foldl Scan.next .quoted = if c = 92 then .escaped else .quoted := by
  have hquote : c ≠ 34 :=
    of_decide_eq_false (h c (List.mem_append_right _ List.mem_cons_self))
  rw [List.foldl_append, List.foldl_cons, List.foldl_nil]
  rcases foldl_quoted (fun x hx => h x (List.mem_append_left _ hx)) (.inl rfl) with hq | hq
  · rw [hq, Scan.next, if_neg hquote]
  · rw [hq, Scan.next]

end Scanning

section Positions

variable {field : Octets} {t : Nat} {q : Scan}

/-- The position is moved to a separator, and what is left there is well formed if all was. -/
def Lands (field : Octets) (t : Nat) (q : Scan) : Option Nat → Prop
  | none => ends q (field.drop t) = true
  | some i => t ≤ i ∧ (∃ c rest, field.drop i = c :: rest ∧ isSeparator c = true) ∧
      ends q (field.drop t) = ends .value (field.drop i)

theorem lands_trans {t' : Nat} (hle : t ≤ t')
    (h : ends q (field.drop t) = ends .value (field.drop t')) {next : Option Nat}
    (hlands : Lands field t' .value next) : Lands field t q next := by
  cases next with
  | none => exact h.trans hlands
  | some i => exact ⟨Nat.le_trans hle hlands.1, hlands.2.1, h.trans hlands.2.2⟩

/-- The search for the next separator. -/
theorem find_lands (ht : t ≤ field.length) :
    ∃ next, find isSeparator field (some t) = some next ∧ Lands field t .value next := by
  rcases find_spec isSeparator ht with ⟨hfind, hall⟩ | ⟨before, c, rest, hsplit, hout, hin, hfind⟩
  · refine ⟨none, hfind, ?_⟩
    rw [Lands, ← List.append_nil (field.drop t), ends_stay fun c hc => value_stay (hall c hc)]
    rfl
  · refine ⟨_, hfind, Nat.le_add_right _ _, ⟨c, rest, drop_split hsplit, hin⟩, ?_⟩
    rw [drop_split hsplit, hsplit, ends_stay fun c hc => value_stay (hout c hc)]

theorem ends_bracket {before : Octets} (h : ∀ c ∈ before, isBracketEnd c = false)
    (rest : Octets) : ends .bracket (before ++ rest) = ends .bracket rest :=
  ends_stay (fun c hc => by rw [Scan.next, if_neg (of_decide_eq_false (h c hc))]) rest

/-- What a value is, and that the position is moved. -/
theorem readValue_spec (ht : t ≤ field.length)
    (hhead : ∀ c rest, field.drop t = c :: rest → isSeparator c = false) :
    ∃ found, readValue field t = some found ∧ Lands field t .start found.2 ∧ found.2 ≠ some t := by
  have hmoved {i : Nat} {next : Option Nat} (hnext : Lands field i .value next) (hi : t ≤ i) :
      next ≠ some t := by
    rintro rfl
    obtain ⟨-, ⟨c, rest, hdrop, hin⟩, -⟩ := hnext
    rw [hhead c rest hdrop] at hin
    exact Bool.false_ne_true hin
  have hplain (hc : ∃ c, readAt field t = some c ∧ c ≠ 60)
      (hstart : ends .start (field.drop t) = ends .value (field.drop t)) :
      ∃ found, readValue field t = some found ∧ Lands field t .start found.2 ∧
        found.2 ≠ some t := by
    obtain ⟨c, hread, hc⟩ := hc
    obtain ⟨next, hfind, hlands⟩ := find_lands ht
    obtain ⟨part, hpart⟩ := sub_isSome field t next
    obtain ⟨value, hvalue⟩ := trim_isSome part
    refine ⟨(value, next), ?_, lands_trans (Nat.le_refl _) hstart hlands,
      hmoved hlands (Nat.le_refl _)⟩
    rw [readValue, hread, Option.bind_some, if_neg hc, hfind, Option.bind_some, hpart,
      Option.bind_some, hvalue, Option.map_some]
  rcases hdrop : field.drop t with _ | ⟨c, rest⟩
  · rw [hdrop] at hplain
    exact hplain ⟨0, readAt_nil ht hdrop, by decide⟩ rfl
  · have hc := hhead c rest hdrop
    have hstart := @ends_start_cons rest c hc
    by_cases hbracket : c = 60
    · subst hbracket
      rw [if_pos rfl] at hstart
      rcases find_spec isBracketEnd ht with
        ⟨hfind, hall⟩ | ⟨before, x, behind, hsplit, hout, hin, hfind⟩
      · obtain ⟨value, hvalue⟩ := sub_isSome field (t + 1) none
        refine ⟨(value, none), ?_, ?_, fun h => nomatch h⟩
        · rw [readValue, readAt_cons hdrop, Option.bind_some, if_pos rfl, hfind, Option.bind_some,
            hvalue, Option.bind_some]
          rfl
        · rw [Lands, hdrop, hstart, ← List.append_nil rest]
          rw [hdrop] at hall
          rw [ends_bracket fun c hc => hall c (List.mem_cons_of_mem _ hc)]
          rfl
      · -- the bracket itself is in front of its end
        have hx : x = 62 := of_decide_eq_true hin
        subst hx
        have hcons := hsplit
        rw [hdrop] at hcons
        rcases before with _ | ⟨y, before⟩
        · exact absurd (List.cons.inj hcons).1 (by decide)
        rw [List.cons_append] at hcons
        obtain ⟨-, hbehind⟩ := List.cons.inj hcons
        have hlen := length_split ht hsplit
        obtain ⟨next, hnext, hlands⟩ :=
          @find_lands field (t + (y :: before).length) (by omega)
        obtain ⟨value, hvalue⟩ := sub_isSome field (t + 1) (some (t + (y :: before).length))
        refine ⟨(value, next), ?_, lands_trans (Nat.le_add_right _ _) ?_ hlands,
          hmoved hlands (Nat.le_add_right _ _)⟩
        · rw [readValue, readAt_cons hdrop, Option.bind_some, if_pos rfl, hfind, Option.bind_some,
            hvalue, Option.bind_some, hnext, Option.map_some]
        · rw [drop_split hsplit, hdrop, hstart, hbehind,
            ends_bracket fun c hc => hout c (List.mem_cons_of_mem _ hc)]
          rfl
    · rw [if_neg hbracket] at hstart
      refine hplain ⟨c, readAt_cons hdrop, hbracket⟩ ?_
      rw [hdrop, hstart, ends_cons, value_stay hc]

/-- The search for the quote that ends a value, from behind a quote on. -/
theorem findQuote_spec {left : Nat} (hleft : field.length < t + left) (ht : t + 1 ≤ field.length)
    (hbefore : ∃ rest, field.drop t = 34 :: rest) :
    ∃ found, findQuote field left (t + 1) = some found ∧
      match found with
      | none => ends .quoted (field.drop (t + 1)) = true
      | some i => t < i ∧ ∃ rest, field.drop i = 34 :: rest ∧
          ends .quoted (field.drop (t + 1)) = ends .value rest := by
  induction left generalizing t with
  | zero => omega
  | succ left ih =>
      obtain ⟨after, hquote⟩ := hbefore
      rcases find_spec isQuote ht with
        ⟨hfind, hall⟩ | ⟨before, c, rest, hsplit, hout, hin, hfind⟩
      · refine ⟨none, by rw [findQuote, hfind, Option.bind_some], ?_⟩
        rcases foldl_quoted hall (.inl rfl) with hq | hq
        · rw [ends, hq]
          rfl
        · rw [ends, hq]
          rfl
      · have hc : c = 34 := of_decide_eq_true hin
        subst hc
        rcases List.eq_nil_or_concat before with rfl | ⟨front, x, rfl⟩
        · -- the quote in front is no backslash
          refine ⟨some (t + 1), ?_, Nat.lt_succ_self t, rest, hsplit, ?_⟩
          · rw [findQuote, hfind, Option.bind_some]
            simp only [List.length_nil, Nat.add_zero]
            rw [readAt_cons hquote, Option.bind_some, if_neg (by decide)]
          · rw [hsplit]
            rfl
        · rw [List.concat_eq_append] at hsplit hout hfind
          have hlen := length_split ht hsplit
          rw [List.length_append, List.length_singleton, List.length_cons] at hlen
          have hread : readAt field (t + 1 + front.length) = some x := by
            rw [List.append_assoc] at hsplit
            exact readAt_cons (drop_split hsplit)
          have hplace : t + 1 + (front ++ [x]).length = t + 1 + front.length + 1 := by
            rw [List.length_append, List.length_singleton, Nat.add_assoc (t + 1)]
          have hdrop : field.drop (t + 1 + front.length + 1) = 34 :: rest := by
            rw [← hplace]
            exact drop_split hsplit
          have hends : ends .quoted (field.drop (t + 1)) =
              ends (if x = 92 then .escaped else .quoted) (34 :: rest) := by
            rw [hsplit, ends_append, foldl_quoted_last hout]
          rw [findQuote, hfind, Option.bind_some, hplace]
          simp only [hread, Option.bind_some]
          by_cases hx : x = 92
          · rw [if_pos hx] at hends ⊢
            obtain ⟨found, hfound, hlands⟩ := @ih (t + 1 + front.length + 1) (by omega) (by omega)
              ⟨rest, hdrop⟩
            refine ⟨found, hfound, ?_⟩
            rw [drop_next hdrop] at hlands
            cases found with
            | none => exact hends.trans hlands
            | some i =>
                obtain ⟨hlt, behind, hi, hvalue⟩ := hlands
                exact ⟨by omega, behind, hi, hends.trans hvalue⟩
          · rw [if_neg hx] at hends ⊢
            exact ⟨_, rfl, by omega, rest, hdrop, hends⟩

/-- What a parameter is, when it is well formed. -/
def Reads (field : Octets) (t : Nat) (q : Scan) : Option Parameter → Prop
  | none => ends q (field.drop t) = false
  | some found =>
    match found.next with
    | .leave => False
    | .again next => Lands field t q next

theorem reads_trans {t' : Nat} {q' : Scan} (hle : t ≤ t')
    (h : ends q (field.drop t) = ends q' (field.drop t')) {found : Option Parameter}
    (hreads : Reads field t' q' found) : Reads field t q found := by
  rcases found with _ | ⟨tag, value, next⟩
  · exact h.trans hreads
  · rcases next with _ | next
    · exact hreads
    · cases next with
      | none => exact h.trans hreads
      | some i => exact ⟨Nat.le_trans hle hreads.1, hreads.2.1, h.trans hreads.2.2⟩

/-- A value in quotes. -/
theorem readQuoted_spec (ht : t + 1 ≤ field.length) (hquote : ∃ rest, field.drop t = 34 :: rest)
    (tag : Octets) : Reads field (t + 1) .quoted (readQuoted field tag (t + 1)) := by
  obtain ⟨found, hfound, hspec⟩ :=
    @findQuote_spec field t (field.length + 1) (by omega) ht hquote
  obtain ⟨value, hvalue⟩ := sub_isSome field (t + 1) found
  rw [readQuoted, hfound, Option.bind_some, hvalue, Option.bind_some]
  cases found with
  | none => exact hspec
  | some i =>
      obtain ⟨hlt, rest, hdrop, hends⟩ := hspec
      have hi : i ≤ field.length := by
        refine Nat.le_of_not_lt fun hlt => ?_
        rw [List.drop_eq_nil_of_le (Nat.le_of_lt hlt)] at hdrop
        exact List.cons_ne_nil _ _ hdrop.symm
      obtain ⟨next, hnext, hlands⟩ := find_lands hi
      rw [hnext, Option.map_some]
      refine lands_trans hlt (hends.trans ?_) hlands
      rw [hdrop]
      rfl

/-- A value without quotes. -/
theorem readUnquoted_spec (ht : t ≤ field.length)
    (hhead : ∀ c rest, field.drop t = c :: rest → isSpace c = false ∧ c ≠ 34) (tag : Octets) :
    Reads field t .equals (readUnquoted field tag t) := by
  obtain ⟨next, hfind, hlands⟩ := find_lands ht
  rw [readUnquoted, hfind, Option.bind_some]
  rcases hdrop : field.drop t with _ | ⟨c, rest⟩
  · -- nothing is behind the equals sign
    have hnone : next = none := by
      rcases next with _ | i
      · rfl
      · obtain ⟨hle, ⟨c, rest, hi, -⟩, -⟩ := hlands
        rw [List.drop_eq_nil_of_le (Nat.le_trans (List.drop_eq_nil_iff.mp hdrop) hle)] at hi
        exact absurd hi.symm (List.cons_ne_nil _ _)
    subst hnone
    rw [sub_rest ht, hdrop]
    rw [Option.bind_some, rightTrim]
    change ends .equals (field.drop t) = false
    rw [hdrop]
    rfl
  · obtain ⟨hspace, hquote⟩ := hhead c rest hdrop
    have hequals : ends .equals (field.drop t) =
        ends (if c = 59 ∨ c = 44 then .wrong else .value) rest := by
      rw [hdrop, ends_cons, Scan.next, hspace, if_neg Bool.false_ne_true, if_neg hquote]
    rcases hsep : isSeparator c with _ | _
    · -- the value is not empty
      have hpart : ∃ part, sub field t next = some part ∧ part ≠ [] := by
        rcases find_spec isSeparator ht with
          ⟨hfind', -⟩ | ⟨before, x, behind, hsplit, -, hin, hfind'⟩
        · rw [Option.some.inj (hfind.symm.trans hfind')]
          refine ⟨_, sub_rest ht, ?_⟩
          rw [hdrop]
          exact List.cons_ne_nil _ _
        · rw [Option.some.inj (hfind.symm.trans hfind')]
          refine ⟨before, sub_split ht hsplit, ?_⟩
          rintro rfl
          rw [hdrop] at hsplit
          rw [← (List.cons.inj hsplit).1, hsep] at hin
          exact Bool.false_ne_true hin
      obtain ⟨part, hpart, hne⟩ := hpart
      obtain ⟨value, hvalue⟩ := (rightTrim_isSome_iff part).mpr hne
      rw [hpart, Option.bind_some, hvalue, Option.map_some]
      refine lands_trans (Nat.le_refl _) ?_ hlands
      rw [hequals, if_neg (of_decide_eq_false hsep), hdrop, ends_cons,
        value_stay hsep]
    · have hempty : sub field t next = some [] := by
        rcases find_spec isSeparator ht with
          ⟨-, hall⟩ | ⟨before, x, behind, hsplit, hout, -, hfind'⟩
        · rw [hdrop] at hall
          rw [hall c List.mem_cons_self] at hsep
          exact absurd hsep Bool.false_ne_true
        · rw [Option.some.inj (hfind.symm.trans hfind')]
          rcases before with _ | ⟨y, before⟩
          · exact sub_split ht hsplit
          · rw [hdrop] at hsplit
            have hy := hout y List.mem_cons_self
            rw [← (List.cons.inj hsplit).1, hsep] at hy
            exact absurd hy.symm Bool.false_ne_true
      rw [hempty, Option.bind_some, rightTrim]
      change ends .equals (field.drop t) = false
      rw [hequals, if_pos (separator_iff.mp hsep), ends_wrong]

/-- Where the loops are after a parameter. -/
def Leads (field : Octets) (t : Nat) (q : Scan) : Option Parameter → Prop
  | none => ends q (field.drop t) = false
  | some found =>
    match found.next with
    | .leave => ends q (field.drop t) = ends .start (field.drop t)
    | .again next => Lands field t q next

theorem leads_of_reads {found : Option Parameter} (h : Reads field t q found) :
    Leads field t q found := by
  rcases found with _ | ⟨tag, value, next⟩
  · exact h
  · cases next with
    | leave => exact absurd h id
    | again next => exact h

/-- What is behind an equals sign. -/
theorem readValueOf_spec (ht : t < field.length) {rest : Octets}
    (hdrop : field.drop t = 61 :: rest) (tag : Octets) :
    Reads field (t + 1) .equals (readBehindName field tag t) := by
  obtain ⟨before, behind, hsplit, hspace, hout, hskip⟩ := @skipOver_spec isSpace field (t + 1) rfl ht
  have hlen := length_split ht hsplit
  have hends : ends .equals (field.drop (t + 1)) =
      ends .equals (field.drop (t + 1 + before.length)) := by
    rw [drop_split hsplit, hsplit, ends_stay fun c hc => by
      rw [Scan.next, if_pos (hspace c hc)]]
  rw [readBehindName, readAt_cons hdrop, Option.bind_some, if_neg (by decide),
    if_neg (by decide), hskip, Option.bind_some]
  refine reads_trans (Nat.le_add_right _ _) hends ?_
  have hbehind := drop_split hsplit
  have hplain (hhead : ∀ c rest, behind = c :: rest → isSpace c = false ∧ c ≠ 34) :
      Reads field (t + 1 + before.length) .equals
        (readUnquoted field tag (t + 1 + before.length)) :=
    readUnquoted_spec (by omega) (fun c rest h => hhead c rest (hbehind.symm.trans h)) tag
  rcases behind with _ | ⟨c, behind⟩
  · rw [readAt_nil (by omega) hbehind, Option.bind_some, if_neg (by decide)]
    exact hplain fun c rest h => absurd h.symm (List.cons_ne_nil _ _)
  · rw [readAt_cons hbehind, Option.bind_some]
    rw [List.length_cons] at hlen
    by_cases hquote : c = 34
    · subst hquote
      rw [if_pos rfl]
      refine reads_trans (Nat.le_succ _) ?_ (readQuoted_spec (by omega) ⟨behind, hbehind⟩ tag)
      rw [drop_next hbehind, hbehind]
      rfl
    · rw [if_neg hquote]
      refine hplain fun x rest h => ?_
      obtain ⟨rfl, -⟩ := List.cons.inj h
      exact ⟨hout c behind rfl, hquote⟩

/-- A parameter leads to the next one, or to a value. -/
theorem readParameter_spec (ht : t ≤ field.length) :
    Leads field t .name (readParameter field t) := by
  rcases find_spec isNameEnd ht with ⟨hfind, hall⟩ | ⟨before, c, rest, hsplit, hout, hin, hfind⟩
  · obtain ⟨part, hpart⟩ := sub_isSome field t none
    obtain ⟨tag, htag⟩ := trim_isSome part
    rw [readParameter, hfind, Option.bind_some, hpart, Option.bind_some, htag]
    have hreread := ends_reread hall (.inl rfl)
    rw [List.append_nil] at hreread
    exact hreread
  · obtain ⟨part, hpart⟩ := sub_isSome field t (some (t + before.length))
    obtain ⟨tag, htag⟩ := trim_isSome part
    rw [readParameter, hfind, Option.bind_some, hpart, Option.bind_some, htag]
    have hdrop := drop_split hsplit
    have hlen := length_split ht hsplit
    rw [List.length_cons] at hlen
    change Leads field t .name (readBehindName field tag (t + before.length))
    rcases (of_decide_eq_true hin : c = 61 ∨ c = 59 ∨ c = 44) with rfl | rfl | rfl
    · refine leads_of_reads (@reads_trans field t .name (t + before.length + 1) .equals (by omega)
        ?_ _ (readValueOf_spec (by omega) hdrop tag))
      rw [drop_next hdrop, hsplit]
      exact (ends_name hout).1
    · rw [readBehindName, readAt_cons hdrop, Option.bind_some, if_neg (by decide), if_pos rfl]
      refine ⟨Nat.le_add_right _ _, ⟨59, rest, hdrop, rfl⟩, ?_⟩
      rw [hdrop, hsplit]
      exact (ends_name hout).2
    · rw [readBehindName, readAt_cons hdrop, Option.bind_some, if_pos rfl]
      change ends .name (field.drop t) = ends .start (field.drop t)
      rw [hsplit]
      exact ends_reread hout (.inr ⟨rest, rfl⟩)

/-- Where the loop over the parameters stops. -/
def Stops (field : Octets) (t : Nat) : Option Nat → Prop
  | none => ends .value (field.drop t) = true
  | some u => t ≤ u ∧ u ≤ field.length ∧ (u = t → ∃ rest, field.drop t = 44 :: rest) ∧
      ends .value (field.drop t) = ends .start (field.drop u)

theorem stops_trans {t' : Nat} (hlt : t < t')
    (h : ends .value (field.drop t) = ends .value (field.drop t')) {next : Option Nat}
    (hstops : Stops field t' next) : Stops field t next := by
  cases next with
  | none => exact h.trans hstops
  | some u =>
      obtain ⟨hle, hu, -, hends⟩ := hstops
      exact ⟨by omega, hu, fun heq => by omega, h.trans hends⟩

theorem parameters_none (keyPrefix : Octets) (fuel : Nat) (info : Info) :
    parameters field keyPrefix fuel info none = some (info, none) := by
  cases fuel <;> rfl

/-- The loop over the parameters ends when they are well formed. -/
theorem parameters_spec (keyPrefix : Octets) {fuel : Nat} {info : Info}
    (hhead : ∃ c rest, field.drop t = c :: rest ∧ isSeparator c = true) :
    match parameters field keyPrefix fuel info (some t) with
    | none => field.length < t + fuel → ends .value (field.drop t) = false
    | some found => Stops field t found.2 := by
  induction fuel generalizing t info with
  | zero =>
      obtain ⟨c, rest, hdrop, -⟩ := hhead
      intro hfuel
      rw [List.drop_eq_nil_of_le (Nat.le_of_lt (Nat.lt_of_lt_of_le hfuel (Nat.le_refl t)))] at hdrop
      exact absurd hdrop.symm (List.cons_ne_nil _ _)
  | succ fuel ih =>
      obtain ⟨c, rest, hdrop, hin⟩ := hhead
      have hlt : t < field.length := by
        refine Nat.lt_of_not_le fun hle => ?_
        rw [List.drop_eq_nil_of_le hle] at hdrop
        exact List.cons_ne_nil _ _ hdrop.symm
      rw [parameters, readAt_cons hdrop, Option.bind_some]
      by_cases hcomma : c = 44
      · subst hcomma
        rw [if_pos rfl]
        refine ⟨Nat.le_refl _, Nat.le_of_lt hlt, fun _ => ⟨rest, hdrop⟩, ?_⟩
        rw [hdrop, ends_value_comma]
      · have hc : c = 59 := (separator_iff.mp hin).resolve_right hcomma
        subst hc
        rw [if_neg hcomma]
        have hname : ends .value (field.drop t) = ends .name (field.drop (t + 1)) := by
          rw [drop_next hdrop, hdrop]
          rfl
        have hparameter := @readParameter_spec field (t + 1) hlt
        revert hparameter
        rcases readParameter field (t + 1) with _ | ⟨tag, value, next⟩
        · exact fun hparameter _ => hname.trans hparameter
        · intro hparameter
          rw [Option.bind_some]
          cases next with
          | leave =>
              exact ⟨Nat.le_succ t, hlt, fun heq => absurd heq (Nat.succ_ne_self t),
                hname.trans hparameter⟩
          | again next =>
              cases next with
              | none =>
                  simp only [parameters_none]
                  exact hname.trans hparameter
              | some i =>
                  obtain ⟨hle, hseparator, hends⟩ := hparameter
                  have hloop := @ih i (info.setAt (keyPrefix ++ tag) value) hseparator
                  simp only
                  rcases hresult : parameters field keyPrefix fuel
                      (info.setAt (keyPrefix ++ tag) value) (some i) with _ | found
                  · rw [hresult] at hloop
                    intro hfuel
                    exact (hname.trans hends).trans (hloop (by omega))
                  · rw [hresult] at hloop
                    exact stops_trans hle (hname.trans hends) hloop

/-- Where a value begins. -/
theorem skipCommas_spec (ht : t ≤ field.length) (hnul : 0 ∉ field) :
    ∃ found, skipCommas field t = some found ∧
      match found with
      | none => ends .start (field.drop t) = true
      | some u => t ≤ u ∧ u ≤ field.length ∧
          ends .start (field.drop t) = ends .start (field.drop u) ∧
          ∀ c rest, field.drop u = c :: rest → c ≠ 44 := by
  have hplain (hc : ∃ c, readAt field t = some c ∧ c ≠ 44)
      (hhead : ∀ c rest, field.drop t = c :: rest → c ≠ 44) :
      ∃ found, skipCommas field t = some found ∧
        match found with
        | none => ends .start (field.drop t) = true
        | some u => t ≤ u ∧ u ≤ field.length ∧
            ends .start (field.drop t) = ends .start (field.drop u) ∧
            ∀ c rest, field.drop u = c :: rest → c ≠ 44 := by
    obtain ⟨c, hread, hc⟩ := hc
    refine ⟨some t, ?_, Nat.le_refl t, ht, rfl, hhead⟩
    rw [skipCommas, hread, Option.bind_some, if_neg hc]
  rcases hdrop : field.drop t with _ | ⟨c, rest⟩
  · rw [hdrop] at hplain
    exact hplain ⟨0, readAt_nil ht hdrop, by decide⟩
      fun c rest h => absurd h.symm (List.cons_ne_nil _ _)
  by_cases hcomma : c = 44
  · subst hcomma
    obtain ⟨before, behind, hsplit, hkind, hout, hskip⟩ :=
      @skipOver_spec isCommaOrSpace field t rfl ht
    have hlen := length_split ht hsplit
    have hbehind := drop_split hsplit
    -- the comma itself is skipped
    rcases before with _ | ⟨x, before⟩
    · rw [hdrop] at hsplit
      exact absurd (hout 44 rest hsplit.symm) (by decide)
    have hfirst := hsplit
    rw [hdrop, List.cons_append] at hfirst
    obtain ⟨rfl, hrest⟩ := List.cons.inj hfirst
    have hends : ends .start (44 :: rest) = ends .between behind := by
      have hbetween : ends .start (44 :: rest) = ends .between rest := rfl
      rw [hbetween, hrest]
      refine ends_stay (fun c hc => ?_) behind
      have hc' := hkind c (List.mem_cons_of_mem _ hc)
      rw [isCommaOrSpace, Bool.or_eq_true, decide_eq_true_iff] at hc'
      have hne : c ≠ 59 := by
        rintro rfl
        exact absurd hc' (by decide)
      rw [Scan.next, if_neg hne, if_pos hc'.symm]
    rw [skipCommas, readAt_cons hdrop, Option.bind_some, if_pos rfl, hskip, Option.bind_some]
    rcases behind with _ | ⟨c, behind⟩
    · rw [readAt_nil (by omega) hbehind]
      exact ⟨none, rfl, hends⟩
    · have hc : c ≠ 0 := by
        rintro rfl
        refine hnul (List.mem_of_mem_drop (i := t) ?_)
        rw [hsplit]
        exact List.mem_append_right _ List.mem_cons_self
      have hkeep := hout c behind rfl
      rw [isCommaOrSpace, Bool.or_eq_false_iff, decide_eq_false_iff_not] at hkeep
      rw [readAt_cons hbehind, Option.map_some, if_neg hc]
      refine ⟨_, rfl, Nat.le_add_right _ _, by omega, ?_, fun x rest h => ?_⟩
      · rw [hends, hbehind, ends_cons, ends_cons, Scan.next, Scan.next, if_neg hkeep.2,
          if_neg (not_or.mpr ⟨hkeep.2, by rw [hkeep.1]; exact Bool.false_ne_true⟩)]
      · obtain ⟨rfl, -⟩ := List.cons.inj (hbehind.symm.trans h)
        exact hkeep.2
  · have hhead (x : UInt8) (behind : Octets) (h : field.drop t = x :: behind) : x ≠ 44 := by
      rw [hdrop] at h
      rw [← (List.cons.inj h).1]
      exact hcomma
    have hspec := hplain ⟨c, readAt_cons hdrop, hcomma⟩ hhead
    rw [hdrop] at hspec
    exact hspec

/-- The character of an octet of a number. -/
def digitOf (c : UInt8) : Char := Char.ofNat c.toNat

theorem digits_decimal (n : Nat) : (decimal n).map digitOf = Nat.toDigits 10 n := by
  rw [decimal, List.map_map]
  refine (List.map_congr_left fun c hc => ?_).trans (List.map_id _)
  have hdigit := Nat.isDigit_of_mem_toDigits (by decide) (by decide) hc
  have hle : c.toNat ≤ 57 := by
    rw [Char.isDigit, Bool.and_eq_true, decide_eq_true_iff, decide_eq_true_iff] at hdigit
    exact hdigit.2
  rw [Function.comp_apply, digitOf, Url.ascii, UInt8.toNat_ofNat', Nat.mod_eq_of_lt (by omega),
    Char.ofNat_toNat, id]

theorem numbered_inj {m n : Nat} (h : numbered m = numbered n) : m = n := by
  have hdigits : decimal m = decimal n := List.append_cancel_right h
  rw [← @Nat.ofDigitChars_ten_toDigits m, ← digits_decimal, hdigits, digits_decimal,
    Nat.ofDigitChars_ten_toDigits]

/-- One of the first numbers is no key, since there are more of them than keys. -/
theorem freeNumber_isSome {info : Info} {left count : Nat}
    (h : ∃ n, n < left ∧ numbered (count + n + 1) ∉ info.map Prod.fst) :
    ∃ key, freeNumber info left count = some key := by
  induction left generalizing count with
  | zero =>
      obtain ⟨n, hn, -⟩ := h
      exact absurd hn (Nat.not_lt_zero n)
  | succ left ih =>
      rw [freeNumber]
      split
      next htaken =>
        obtain ⟨n, hn, hfree⟩ := h
        cases n with
        | zero => exact absurd ((info.contains_iff _).mp htaken) hfree
        | succ n =>
            refine ih ⟨n, Nat.lt_of_succ_lt_succ hn, ?_⟩
            rwa [show count + 1 + n + 1 = count + (n + 1) + 1 by omega]
      next => exact ⟨_, rfl⟩

theorem keyPrefixOf_isSome (info : Info) : ∃ key, keyPrefixOf info = some key := by
  rw [keyPrefixOf]
  split
  · exact ⟨[], rfl⟩
  · refine freeNumber_isSome ?_
    refine Decidable.byContradiction fun hall => ?_
    have hkeys : (List.range (info.length + 1)).map (fun n => numbered (0 + n + 1)) ⊆
        info.map Prod.fst := by
      intro key hkey
      rcases List.mem_map.mp hkey with ⟨n, hn, rfl⟩
      refine Decidable.byContradiction fun hfree => hall ⟨n, List.mem_range.mp hn, hfree⟩
    have hnodup : ((List.range (info.length + 1)).map fun n => numbered (0 + n + 1)).Nodup :=
      List.Nodup.map (fun m n h => by
        have hnumber := numbered_inj h
        omega) List.nodup_range
    have hlen := (List.Nodup.subperm hnodup hkeys).length_le
    rw [List.length_map, List.length_map, List.length_range] at hlen
    exact Nat.not_succ_le_self _ hlen

theorem values_none (fuel : Nat) (info : Info) : values field fuel info none = some info := by
  cases fuel <;> rfl

/-- The loop over the values ends exactly when the line is well formed. -/
theorem values_spec (hnul : 0 ∉ field) {fuel : Nat} {info : Info} (ht : t ≤ field.length) :
    (ends .start (field.drop t) = true → field.length < t + fuel →
        ∃ r, values field fuel info (some t) = some r) ∧
      (ends .start (field.drop t) = false → values field fuel info (some t) = none) := by
  induction fuel generalizing t info with
  | zero => exact ⟨fun _ hfuel => absurd ht (Nat.not_le.mpr hfuel), fun _ => rfl⟩
  | succ fuel ih =>
      obtain ⟨found, hskip, hspec⟩ := skipCommas_spec ht hnul
      rw [values, hskip, Option.bind_some]
      cases found with
      | none => exact ⟨fun _ _ => ⟨info, rfl⟩, fun h => absurd (hspec.symm.trans h) (by decide)⟩
      | some u =>
          obtain ⟨hle, hu, hends, hcomma⟩ := hspec
          rw [hends]
          have hread : ∃ c, readAt field u = some c ∧ (c = 59 → ∃ rest, field.drop u = c :: rest) ∧
              ∀ x rest, field.drop u = x :: rest → x = c := by
            rcases hdrop : field.drop u with _ | ⟨c, rest⟩
            · exact ⟨0, readAt_nil hu hdrop, fun h => absurd h (by decide),
                fun x rest h => absurd h.symm (List.cons_ne_nil _ _)⟩
            · exact ⟨c, readAt_cons hdrop, fun _ => ⟨rest, rfl⟩, fun x behind h =>
                (List.cons.inj h).1.symm⟩
          obtain ⟨c, hread, hhere, hsame⟩ := hread
          simp only [hread, Option.bind_some]
          by_cases hsemicolon : c = 59
          · -- the position stays where it is
            obtain ⟨rest, hdrop⟩ := hhere hsemicolon
            have hwrong : ends .start (field.drop u) = false := by
              rw [hdrop, hsemicolon]
              exact ends_wrong rest
            rw [if_pos hsemicolon]
            exact ⟨fun h => absurd (hwrong.symm.trans h) Bool.false_ne_true,
              fun _ => (ih hu).2 hwrong⟩
          · rw [if_neg hsemicolon]
            have hhead (x : UInt8) (rest : Octets) (hdrop : field.drop u = x :: rest) :
                isSeparator x = false := by
              refine not_separator.mpr ⟨?_, hcomma x rest hdrop⟩
              rw [hsame x rest hdrop]
              exact hsemicolon
            obtain ⟨keyPrefix, hkey⟩ := keyPrefixOf_isSome info
            obtain ⟨⟨value, next⟩, hvalue, hlands, hmoved⟩ := readValue_spec hu hhead
            rw [hkey, Option.bind_some, hvalue, Option.bind_some]
            cases next with
            | none =>
                rw [parameters_none, Option.bind_some, values_none]
                exact ⟨fun _ _ => ⟨_, rfl⟩, fun h => absurd (hlands.symm.trans h) (by decide)⟩
            | some i =>
                obtain ⟨hlow, hseparator, hvalues⟩ := hlands
                have hne : i ≠ u := fun heq => hmoved (congrArg some heq)
                have hloop := @parameters_spec field i keyPrefix fuel (info.setAt keyPrefix value)
                  hseparator
                rw [hvalues]
                revert hloop
                rcases parameters field keyPrefix fuel (info.setAt keyPrefix value) (some i) with
                  _ | ⟨info', next'⟩
                · intro hloop
                  refine ⟨fun h hfuel => ?_, fun _ => rfl⟩
                  exact absurd ((hloop (by omega)).symm.trans h) Bool.false_ne_true
                · intro hstops
                  rw [Option.bind_some]
                  cases next' with
                  | none =>
                      rw [values_none]
                      exact ⟨fun _ _ => ⟨_, rfl⟩, fun h => absurd (hstops.symm.trans h) (by decide)⟩
                  | some w =>
                      obtain ⟨hiw, hw, -, hstart⟩ := hstops
                      rw [hstart]
                      exact ⟨fun h hfuel => (ih hw).1 h (by omega), (ih hw).2⟩

end Positions

section Fields

variable {field line s : Octets} {afterReturn : Bool}

theorem linesFrom_spec (h : field ∈ linesFrom afterReturn line s) :
    field.length ≤ line.length + s.length ∧ (∀ c ∈ field, c ∈ line ∨ c ∈ s) := by
  induction s generalizing line afterReturn with
  | nil =>
      rw [linesFrom] at h
      split at h
      · exact absurd h List.not_mem_nil
      · rw [List.mem_singleton.mp h]
        exact ⟨Nat.le_add_right _ _, fun c hc => .inl hc⟩
  | cons x s ih =>
      rw [linesFrom] at h
      rw [List.length_cons]
      split at h
      · obtain ⟨hlen, hmem⟩ := ih h
        exact ⟨by omega, fun c hc => (hmem c hc).imp id (List.mem_cons_of_mem _)⟩
      · split at h
        · rcases List.mem_cons.mp h with rfl | h
          · exact ⟨Nat.le_add_right _ _, fun c hc => .inl hc⟩
          · obtain ⟨hlen, hmem⟩ := ih h
            rw [List.length_nil] at hlen
            refine ⟨by omega, fun c hc => .inr ?_⟩
            exact List.mem_cons_of_mem _ ((hmem c hc).resolve_left List.not_mem_nil)
        · obtain ⟨hlen, hmem⟩ := ih h
          rw [List.length_append, List.length_singleton] at hlen
          refine ⟨by omega, fun c hc => ?_⟩
          rcases hmem c hc with hc | hc
          · rcases List.mem_append.mp hc with hc | hc
            · exact .inl hc
            · exact .inr (List.mem_cons.mpr (.inl (List.mem_singleton.mp hc)))
          · exact .inr (List.mem_cons_of_mem _ hc)

/-- The lines of a string are no longer than it, and have no NUL either. -/
theorem lines_spec (v : CString) (h : field ∈ lines v.octets) :
    field.length ≤ v.octets.length ∧ 0 ∉ field := by
  obtain ⟨hlen, hmem⟩ := linesFrom_spec h
  rw [List.length_nil, Nat.zero_add] at hlen
  exact ⟨hlen, fun hnul => v.noNul ((hmem 0 hnul).resolve_left List.not_mem_nil)⟩

theorem parseLines_isSome {fuel : Nat} {fields : List Octets} (info : Info)
    (h : ∀ field ∈ fields, field.length < fuel ∧ 0 ∉ field ∧ WellFormed field) :
    ∃ r, parseLines fuel info fields = some r := by
  induction fields generalizing info with
  | nil => exact ⟨info, rfl⟩
  | cons field fields ih =>
      obtain ⟨hfuel, hnul, hformed⟩ := h field List.mem_cons_self
      obtain ⟨info', hvalues⟩ := (@values_spec field 0 hnul fuel info (Nat.zero_le _)).1 hformed
        (by rwa [Nat.zero_add])
      rw [parseLines, hvalues, Option.bind_some]
      exact ih info' fun x hx => h x (List.mem_cons_of_mem _ hx)

theorem wellFormed_of_parseLines {fuel : Nat} {fields : List Octets} {info : Info}
    (hnul : ∀ field ∈ fields, 0 ∉ field) {r : Info} (h : parseLines fuel info fields = some r) :
    ∀ field ∈ fields, WellFormed field := by
  induction fields generalizing info with
  | nil => exact fun field hfield => absurd hfield List.not_mem_nil
  | cons first fields ih =>
      rw [parseLines] at h
      obtain ⟨info', hvalues, hrest⟩ := Option.bind_eq_some_iff.mp h
      intro field hfield
      rcases List.mem_cons.mp hfield with rfl | hfield
      · refine Bool.eq_true_of_not_eq_false fun hfalse => ?_
        have hnone := (@values_spec field 0 (hnul field List.mem_cons_self) fuel info
          (Nat.zero_le _)).2 hfalse
        exact Option.some_ne_none _ (hvalues.symm.trans hnone)
      · exact ih (fun x hx => hnul x (List.mem_cons_of_mem _ hx)) hrest field hfield

/-- The parser ends, and reads nothing outside its strings, exactly when each line is well
formed. -/
theorem parseComplex_iff (fieldValue : CString) :
    (∃ fuel result, parseComplex fuel fieldValue.octets = some result) ↔
      ∀ line ∈ lines fieldValue.octets, WellFormed line := by
  constructor
  · rintro ⟨fuel, result, h⟩
    obtain ⟨info, hlines, -⟩ := Option.map_eq_some_iff.mp h
    exact wellFormed_of_parseLines (fun field hfield => (lines_spec fieldValue hfield).2) hlines
  · intro hformed
    obtain ⟨info, hinfo⟩ := @parseLines_isSome (fieldValue.octets.length + 1)
      (lines fieldValue.octets) [] fun field hfield =>
        ⟨Nat.lt_succ_of_le (lines_spec fieldValue hfield).1, (lines_spec fieldValue hfield).2,
          hformed field hfield⟩
    exact ⟨_, (decide (info ≠ []), info), by rw [parseComplex, hinfo, Option.map_some]⟩

/-- The parser stays in front of a semicolon. -/
theorem parseComplex_stuck : ¬ ∀ fieldValue : CString,
    ∃ fuel result, parseComplex fuel fieldValue.octets = some result := by
  intro h
  obtain ⟨fuel, result, hresult⟩ := h ⟨[59], by decide⟩
  obtain ⟨info, hlines, -⟩ := Option.map_eq_some_iff.mp hresult
  have hnul : ∀ field ∈ lines [59], 0 ∉ field := by decide
  exact absurd (wellFormed_of_parseLines hnul hlines [59] List.mem_cons_self) Bool.false_ne_true

end Fields

end Mime

end CryptoOpal

import CryptoOpal.Url.Text

/-!
# Texts That Are Read Octet by Octet

The search, substring and trimming functions of a string class, with each octet they read. A
string may be read as far as the NUL behind its octets. There is no result when a function reads
in front of the string or behind that NUL.

Trimming the blanks on the left stops at the NUL. On the right nothing stops it, and trimming an
empty string begins with the octet in front of it.

## Main definitions

* `readAt`: An octet, or the NUL.
* `find`: A search.
* `skipOver`: The first place with another octet.
* `sub`: A substring.
* `trim`, `rightTrim`: A text without blanks around it, or behind it.

## Theorems

* `find_spec`, `skipOver_spec`: The text is split where they stop.
* `trim_isSome`: Blanks on both sides.
* `rightTrim_isSome_iff`: Blanks on the right of a text that is not empty.
-/

namespace CryptoOpal

namespace Mime

open Lib (Octets)

open Url (isSpace)

/-- A string. -/
structure CString where
  octets : Octets
  noNul : 0 ∉ octets

/-- An octet of the string, or the NUL behind it. -/
def readAt (s : Octets) (i : Nat) : Option UInt8 := (s ++ [0])[i]?

/-- The loop of the searches. -/
def search (p : UInt8 → Bool) (s : Octets) : Nat → Nat → Option (Option Nat)
  | 0, _ => some none
  | left + 1, offset =>
    (readAt s offset).bind fun c =>
      if p c then some (some offset) else search p s left (offset + 1)

/-- `Find` and `FindOneOf`, where `none` is `P_MAX_INDEX`. -/
def find (p : UInt8 → Bool) (s : Octets) : Option Nat → Option (Option Nat)
  | none => some none
  | some offset => search p s (s.length - offset) offset

/-- A loop over octets of a kind. -/
def skip (p : UInt8 → Bool) (s : Octets) : Nat → Nat → Option Nat
  | 0, pos => (readAt s pos).bind fun c => if p c then none else some pos
  | left + 1, pos => (readAt s pos).bind fun c => if p c then skip p s left (pos + 1) else some pos

def skipOver (p : UInt8 → Bool) (s : Octets) (pos : Nat) : Option Nat :=
  skip p s (s.length - pos) pos

/-- `memcpy` out of the string. -/
def copy (s : Octets) (start len : Nat) : Option Octets :=
  if start + len ≤ s.length then some ((s.drop start).take len) else none

/-- `operator()`, with the place behind the last octet. -/
def sub (s : Octets) (start : Nat) : Option Nat → Option Octets
  | none =>
    if s.length < start then some []
    else if start = 0 then some s
    else copy s start (s.length - start)
  | some stop =>
    if stop ≤ start ∨ s.length < start then some []
    else if s.length < stop then
      if start = 0 then some s else copy s start (s.length - start)
    else copy s start (stop - start)

/-- The last octet up to here that is no blank. -/
def backOver (s : Octets) : Nat → Option Nat
  | 0 => (readAt s 0).bind fun c => if isSpace c then none else some 0
  | n + 1 => (readAt s (n + 1)).bind fun c => if isSpace c then backOver s n else some (n + 1)

/-- `Trim`. -/
def trim (s : Octets) : Option Octets :=
  (skipOver isSpace s 0).bind fun lpos =>
    (readAt s lpos).bind fun c =>
      if c = 0 then some []
      else
        match s.length with
        | 0 => none
        | n + 1 => (backOver s n).bind fun rpos => copy s lpos (rpos + 1 - lpos)

/-- `RightTrim` from its last octet on. -/
def rightTrimFrom (s : Octets) : Nat → Option Octets
  | 0 => (readAt s 0).bind fun c => if isSpace c then some [] else copy s 0 1
  | n + 1 => (readAt s (n + 1)).bind fun c =>
    if isSpace c then rightTrimFrom s n else copy s 0 (n + 2)

/-- `RightTrim`. -/
def rightTrim (s : Octets) : Option Octets :=
  match s.length with
  | 0 => none -- `theArray[-1]`
  | n + 1 => rightTrimFrom s n

section Reading

variable {s before rest : Octets} {c : UInt8} {t : Nat}

theorem readAt_lt {i : Nat} (h : i < s.length) : readAt s i = some s[i] := by
  rw [readAt, List.getElem?_append_left h, List.getElem?_eq_getElem h]

theorem readAt_length (s : Octets) : readAt s s.length = some 0 := by
  rw [readAt, List.getElem?_append_right (Nat.le_refl _), Nat.sub_self]
  rfl

theorem readAt_le {i : Nat} (hi : i ≤ s.length) : ∃ c, readAt s i = some c := by
  rcases Nat.lt_or_eq_of_le hi with hlt | heq
  · exact ⟨_, readAt_lt hlt⟩
  · exact ⟨0, by rw [heq, readAt_length]⟩

theorem readAt_cons (h : s.drop t = c :: rest) : readAt s t = some c := by
  have hlt : t < s.length := by
    refine Nat.lt_of_not_le fun hle => ?_
    rw [List.drop_eq_nil_of_le hle] at h
    exact List.cons_ne_nil _ _ h.symm
  rw [readAt_lt hlt]
  rw [List.drop_eq_getElem_cons hlt] at h
  rw [(List.cons.inj h).1]

theorem readAt_nil (ht : t ≤ s.length) (h : s.drop t = []) : readAt s t = some 0 := by
  rw [Nat.le_antisymm ht (List.drop_eq_nil_iff.mp h)]
  exact readAt_length s

theorem drop_split (h : s.drop t = before ++ rest) : s.drop (t + before.length) = rest := by
  rw [← List.drop_drop, h, List.drop_left]

theorem drop_next (h : s.drop t = c :: rest) : s.drop (t + 1) = rest := @drop_split s [c] rest t h

theorem length_split (ht : t ≤ s.length) (h : s.drop t = before ++ rest) :
    s.length = t + before.length + rest.length := by
  have hlen := congrArg List.length h
  rw [List.length_drop, List.length_append] at hlen
  omega

end Reading

section Searching

variable {p : UInt8 → Bool} {s : Octets} {t : Nat}

theorem search_spec {left : Nat} (hleft : left = s.length - t) (ht : t ≤ s.length) :
    (search p s left t = some none ∧ ∀ c ∈ s.drop t, p c = false) ∨
      ∃ before c rest, s.drop t = before ++ c :: rest ∧ (∀ x ∈ before, p x = false) ∧
        p c = true ∧ search p s left t = some (some (t + before.length)) := by
  induction left generalizing t with
  | zero =>
      refine .inl ⟨rfl, fun c hc => ?_⟩
      rw [List.drop_eq_nil_of_le (by omega)] at hc
      exact absurd hc List.not_mem_nil
  | succ left ih =>
      have hlt : t < s.length := by omega
      have hdrop := List.drop_eq_getElem_cons hlt
      rw [search, readAt_lt hlt, Option.bind_some]
      rcases hp : p s[t] with _ | _
      · rw [if_neg Bool.false_ne_true]
        rcases @ih (t + 1) (by omega) hlt with ⟨hnone, hall⟩ | ⟨before, c, rest, hsplit, hout, hin, hfound⟩
        · refine .inl ⟨hnone, fun c hc => ?_⟩
          rw [hdrop] at hc
          rcases List.mem_cons.mp hc with rfl | hc
          · exact hp
          · exact hall c hc
        · refine .inr ⟨s[t] :: before, c, rest, by rw [hdrop, hsplit]; rfl, fun x hx => ?_, hin, ?_⟩
          · rcases List.mem_cons.mp hx with rfl | hx
            · exact hp
            · exact hout x hx
          · rw [hfound, List.length_cons, Nat.add_assoc, Nat.add_comm 1]
      · exact .inr ⟨[], s[t], _, hdrop, fun x hx => absurd hx List.not_mem_nil, hp,
          by rw [if_pos rfl]; rfl⟩

/-- A search ends in front of the first octet that is looked for. -/
theorem find_spec (p : UInt8 → Bool) (ht : t ≤ s.length) :
    (find p s (some t) = some none ∧ ∀ c ∈ s.drop t, p c = false) ∨
      ∃ before c rest, s.drop t = before ++ c :: rest ∧ (∀ x ∈ before, p x = false) ∧
        p c = true ∧ find p s (some t) = some (some (t + before.length)) :=
  search_spec rfl ht

theorem skip_spec (hp : p 0 = false) {left : Nat} (hleft : left = s.length - t)
    (ht : t ≤ s.length) :
    ∃ before rest, s.drop t = before ++ rest ∧ (∀ x ∈ before, p x = true) ∧
      (∀ c behind, rest = c :: behind → p c = false) ∧
      skip p s left t = some (t + before.length) := by
  induction left generalizing t with
  | zero =>
      have hend : s.drop t = [] := List.drop_eq_nil_of_le (by omega)
      refine ⟨[], [], hend, fun x hx => absurd hx List.not_mem_nil,
        fun c behind h => absurd h (List.cons_ne_nil _ _).symm, ?_⟩
      rw [skip, readAt_nil ht hend, Option.bind_some, hp]
      rfl
  | succ left ih =>
      have hlt : t < s.length := by omega
      have hdrop := List.drop_eq_getElem_cons hlt
      rw [skip, readAt_lt hlt, Option.bind_some]
      rcases hkind : p s[t] with _ | _
      · refine ⟨[], _, hdrop, fun x hx => absurd hx List.not_mem_nil, fun c behind h => ?_, rfl⟩
        rw [← (List.cons.inj h).1]
        exact hkind
      · obtain ⟨before, rest, hsplit, hin, hout, hskip⟩ := @ih (t + 1) (by omega) hlt
        refine ⟨s[t] :: before, rest, by rw [hdrop, hsplit]; rfl, fun x hx => ?_, hout, ?_⟩
        · rcases List.mem_cons.mp hx with rfl | hx
          · exact hkind
          · exact hin x hx
        · rw [if_pos rfl, hskip, List.length_cons, Nat.add_assoc, Nat.add_comm 1]

/-- The octets of a kind are skipped as far as the end of the string. -/
theorem skipOver_spec (hp : p 0 = false) (ht : t ≤ s.length) :
    ∃ before rest, s.drop t = before ++ rest ∧ (∀ x ∈ before, p x = true) ∧
      (∀ c behind, rest = c :: behind → p c = false) ∧
      skipOver p s t = some (t + before.length) :=
  skip_spec hp rfl ht

end Searching

section Parts

variable {s before rest : Octets} {t n : Nat}

theorem copy_isSome {start len : Nat} (h : start + len ≤ s.length) :
    ∃ r, copy s start len = some r := ⟨_, if_pos h⟩

theorem sub_isSome (s : Octets) (start : Nat) (stop : Option Nat) :
    ∃ r, sub s start stop = some r := by
  have hrest : ∃ r, (if start = 0 then some s else copy s start (s.length - start)) = some r ∨
      s.length < start := by
    rcases Nat.lt_or_ge s.length start with hlt | hle
    · exact ⟨s, .inr hlt⟩
    · split
      · exact ⟨s, .inl rfl⟩
      · obtain ⟨r, hr⟩ := copy_isSome (show start + (s.length - start) ≤ s.length by omega)
        exact ⟨r, .inl hr⟩
  obtain ⟨r, hr⟩ := hrest
  cases stop with
  | none =>
      rw [sub]
      split
      next => exact ⟨[], rfl⟩
      next hin => exact ⟨r, hr.resolve_right hin⟩
  | some stop =>
      rw [sub]
      split
      next => exact ⟨[], rfl⟩
      next hin =>
        split
        next => exact ⟨r, hr.resolve_right fun hlt => hin (.inr hlt)⟩
        next => exact copy_isSome (by omega)

/-- A substring up to a place that was found. -/
theorem sub_split (ht : t ≤ s.length) (h : s.drop t = before ++ rest) :
    sub s t (some (t + before.length)) = some before := by
  have hlen := length_split ht h
  rw [sub]
  split
  next hempty =>
    rw [List.length_eq_zero_iff.mp (show before.length = 0 by omega)]
  next =>
    rw [if_neg (by omega), copy, if_pos (by omega), h, Nat.add_sub_cancel_left, List.take_left]

theorem sub_rest (ht : t ≤ s.length) : sub s t none = some (s.drop t) := by
  rw [sub, if_neg (by omega)]
  split
  next hzero => rw [hzero, List.drop_zero]
  next => rw [copy, if_pos (by omega), ← List.length_drop, List.take_length]

theorem backOver_spec {i : Nat} {c : UInt8} (hi : i ≤ n) (hn : n < s.length)
    (hread : readAt s i = some c) (hkept : isSpace c = false) :
    ∃ r, backOver s n = some r ∧ i ≤ r ∧ r ≤ n := by
  induction n with
  | zero =>
      have hzero : i = 0 := Nat.le_zero.mp hi
      subst hzero
      refine ⟨0, ?_, Nat.le_refl _, Nat.le_refl _⟩
      rw [backOver, hread, Option.bind_some, hkept]
      rfl
  | succ n ih =>
      rcases Nat.lt_or_ge n i with hlast | hbefore
      · have heq : i = n + 1 := Nat.le_antisymm hi hlast
        subst heq
        refine ⟨n + 1, ?_, Nat.le_refl _, Nat.le_refl _⟩
        rw [backOver, hread, Option.bind_some, hkept]
        rfl
      · rw [backOver, readAt_lt hn, Option.bind_some]
        split
        · obtain ⟨r, hr, hlow, hhigh⟩ := ih hbefore (by omega)
          exact ⟨r, hr, hlow, Nat.le_succ_of_le hhigh⟩
        · exact ⟨n + 1, rfl, hi, Nat.le_refl _⟩

/-- Trimming on both sides stays in the string. -/
theorem trim_isSome (s : Octets) : ∃ r, trim s = some r := by
  obtain ⟨before, rest, hsplit, -, hout, hskip⟩ :=
    @skipOver_spec isSpace s 0 rfl (Nat.zero_le _)
  have hlen := length_split (Nat.zero_le _) hsplit
  rw [trim, hskip, Option.bind_some]
  cases rest with
  | nil =>
      rw [readAt_nil (by omega) (drop_split hsplit)]
      exact ⟨[], rfl⟩
  | cons c rest =>
      have hdrop := drop_split hsplit
      rw [List.length_cons] at hlen
      rw [readAt_cons hdrop, Option.bind_some]
      split
      · exact ⟨[], rfl⟩
      · obtain ⟨r, hr, hlow, hhigh⟩ := backOver_spec (show 0 + before.length ≤ s.length - 1 by omega)
          (by omega) (readAt_cons hdrop) (hout c rest rfl)
        rw [show s.length = s.length - 1 + 1 by omega]
        simp only [hr, Option.bind_some]
        exact copy_isSome (by omega)

theorem rightTrimFrom_isSome (hn : n < s.length) : ∃ r, rightTrimFrom s n = some r := by
  induction n with
  | zero =>
      rw [rightTrimFrom, readAt_lt hn, Option.bind_some]
      split
      · exact ⟨[], rfl⟩
      · exact copy_isSome hn
  | succ n ih =>
      rw [rightTrimFrom, readAt_lt hn, Option.bind_some]
      split
      · exact ih (by omega)
      · exact copy_isSome (by omega)

/-- Trimming on the right stays in the string unless that is empty. -/
theorem rightTrim_isSome_iff (s : Octets) : (∃ r, rightTrim s = some r) ↔ s ≠ [] := by
  rw [rightTrim]
  rcases hs : s.length with _ | n
  · rw [List.length_eq_zero_iff.mp hs]
    exact ⟨fun ⟨_, h⟩ => (nomatch h), fun h => absurd rfl h⟩
  · refine ⟨fun _ hnil => ?_, fun _ => rightTrimFrom_isSome (by omega)⟩
    rw [hnil] at hs
    exact absurd hs (Nat.succ_ne_zero n).symm

end Parts

end Mime

end CryptoOpal
